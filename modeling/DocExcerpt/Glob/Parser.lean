import DocExcerpt.Glob.Basic
/-!
# Reading globs

`Glob.parse` reads the text of a glob from left to right.  Open brace groups are kept on a stack, and a
bracket class is read in a mode of its own, so that the reader looks at each character once.
-/
namespace DocExcerpt
namespace Glob

inductive GlobError where
  | unclosedClass
  | invertedRange (low high : Char)
  | unopenedGroup
  | unclosedGroup
  | danglingEscape
  deriving DecidableEq

/-- A brace group that is still open: the branches before the current one, latest first, and the branch that
the group itself stands in. -/
structure OpenGroup where
  branches : List (List Token)
  outer : List Token

structure OpenClass where
  negated : Bool
  /-- Latest first. -/
  ranges : List (Char × Char)
  /-- Whether nothing has been read yet, so that `]` and `-` stand for themselves. -/
  atStart : Bool
  /-- Whether a dash has been read that may make a range. -/
  dashed : Bool

structure ReadState where
  previous? : Option Char
  /-- How many of the next characters belong to what is read already. -/
  taken : Nat
  class? : Option OpenClass
  /-- The tokens of the current branch, latest first. -/
  tokens : List Token
  groups : List OpenGroup

namespace OpenClass

def add (k : OpenClass) (c : Char) : Except GlobError OpenClass :=
  if k.dashed then
    match k.ranges with
    | (low, _) :: rest =>
      if c < low then .error (.invertedRange low c)
      else .ok { k with ranges := (low, c) :: rest, atStart := false, dashed := false }
    | [] => .ok { k with ranges := [(c, c)], atStart := false, dashed := false }
  else .ok { k with ranges := (c, c) :: k.ranges, atStart := false }

/-- The token of a class that is closed; a dash left over stands for itself. -/
def close (k : OpenClass) : Token :=
  .oneOf k.negated ((if k.dashed then ('-', '-') :: k.ranges else k.ranges).reverse)

end OpenClass

namespace ReadState

def start : ReadState := ⟨none, 0, none, [], []⟩

def push (st : ReadState) (t : Token) : ReadState := { st with tokens := t :: st.tokens }

/-- The state with a token for directories.  It takes the place of the slash before it, and joins with another
token for directories. -/
def pushDirs (st : ReadState) (t : Token) : ReadState :=
  match st.tokens with
  | .dirsBefore :: _ => st
  | .dirsAfter :: _ => st
  | _ :: rest => { st with tokens := t :: rest }
  | [] => st.push t

def dirsMayFollow (st : ReadState) : Bool :=
  st.previous? == some '/' ||
    (!st.groups.isEmpty && (st.previous? == some ',' || st.previous? == some '\x7b'))

/-- The state after two stars before the text `rest`.  They stand for directories when they begin a branch or
follow a slash, and a slash or the end comes next; that slash is part of them. -/
def readStars (st : ReadState) (rest : Text) : ReadState :=
  let beforeSlash := Text.startsWith ['/'] rest
  let beforeEnd := match rest with
    | [] => true
    | c :: _ => !st.groups.isEmpty && (c == ',' || c == '\x7d')
  if st.tokens.isEmpty then
    if beforeSlash then { st.push .dirsBefore with taken := 2 }
    else if rest.isEmpty then { st.push .dirsBefore with taken := 1 }
    else { (st.push .star).push .star with taken := 1 }
  else if st.dirsMayFollow && beforeSlash then { st.pushDirs .dirsBetween with taken := 2 }
  else if st.dirsMayFollow && beforeEnd then { st.pushDirs .dirsAfter with taken := 1 }
  else { (st.push .star).push .star with taken := 1 }

def openClass (st : ReadState) (rest : Text) : ReadState :=
  if Text.startsWith ['!'] rest || Text.startsWith ['^'] rest then
    { st with class? := some ⟨true, [], true, false⟩, taken := 1 }
  else { st with class? := some ⟨false, [], true, false⟩ }

def openGroup (st : ReadState) : ReadState :=
  { st with tokens := [], groups := ⟨[], st.tokens⟩ :: st.groups }

/-- The state after a comma: inside a group it opens the next branch. -/
def readComma (st : ReadState) : ReadState :=
  match st.groups with
  | [] => st.push (.char ',')
  | g :: groups => { st with tokens := [], groups := ⟨st.tokens :: g.branches, g.outer⟩ :: groups }

def closeGroup (crossing : Bool) (st : ReadState) : Except GlobError ReadState :=
  match st.groups with
  | [] => .error .unopenedGroup
  | g :: groups =>
    let branches := (st.tokens :: g.branches).reverse.map List.reverse
    .ok { st with tokens := Token.ofBranches crossing branches :: g.outer, groups := groups }

/-- The state after a backslash before the text `rest`: the next character stands for itself. -/
def readEscape (st : ReadState) : Text → Except GlobError ReadState
  | [] => .error .danglingEscape
  | c :: _ => .ok { st.push (.char c) with taken := 1 }

def readInClass (st : ReadState) (k : OpenClass) (c : Char) : Except GlobError ReadState :=
  if c = ']' ∧ !k.atStart then .ok { st.push k.close with class? := none }
  else if c = '-' ∧ !k.atStart ∧ !k.dashed then .ok { st with class? := some { k with dashed := true } }
  else (k.add c).map (fun k => { st with class? := some k })

def readPlain (crossing : Bool) (st : ReadState) (c : Char) (rest : Text) : Except GlobError ReadState :=
  if c = '?' then .ok (st.push .any)
  else if c = '*' then .ok (if Text.startsWith ['*'] rest then st.readStars rest.tail else st.push .star)
  else if c = '[' then .ok (st.openClass rest)
  else if c = '\x7b' then .ok st.openGroup
  else if c = '\x7d' then st.closeGroup crossing
  else if c = ',' then .ok st.readComma
  else if c = '\\' then st.readEscape rest
  else .ok (st.push (.char c))

def read (crossing : Bool) (st : ReadState) (c : Char) (rest : Text) : Except GlobError ReadState :=
  let after : Except GlobError ReadState := match st.taken, st.class? with
    | taken + 1, _ => .ok { st with taken := taken }
    | 0, some k => st.readInClass k c
    | 0, none => st.readPlain crossing c rest
  after.map (fun st => { st with previous? := some c })

def finish (st : ReadState) : Except GlobError (List Token) :=
  if st.class?.isSome then .error .unclosedClass
  else if !st.groups.isEmpty then .error .unclosedGroup
  else .ok st.tokens.reverse

end ReadState

def parseFrom (crossing : Bool) : ReadState → Text → Except GlobError (List Token)
  | st, [] => st.finish
  | st, c :: rest => do parseFrom crossing (← st.read crossing c rest) rest

/-- Reads a glob.  `crossing` tells whether `?` and `*` take a slash.  Two stars alone match everything. -/
def parse (crossing : Bool) (t : Text) : Except GlobError Glob := do
  let tokens ← parseFrom crossing ReadState.start t
  let alternatives :=
    if tokens = [.dirsBefore] then [[.many .all]] else Token.spellOut crossing tokens
  return ⟨alternatives⟩

end Glob
end DocExcerpt
