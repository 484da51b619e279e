import DocExcerpt.Text.Utf8
/-!
# Glob patterns

A glob is matched against the bytes of a path.  Its text is cut into tokens; the tokens are spelled out as
alternatives of atoms, each of which takes one byte or any number of bytes of a class (`Token.alternatives`),
and `Atom.matchAll` tries an alternative on the whole path.
-/
namespace DocExcerpt
namespace Glob

/-- A set of bytes: the ranges, or everything outside them. -/
structure ByteClass where
  negated : Bool
  ranges : List (UInt8 × UInt8)
  deriving DecidableEq

namespace ByteClass

def contains (k : ByteClass) (b : UInt8) : Bool :=
  k.negated != k.ranges.any (fun r => decide (r.1 ≤ b) && decide (b ≤ r.2))

def all : ByteClass := ⟨true, []⟩

def just (b : UInt8) : ByteClass := ⟨false, [(b, b)]⟩

def slash : ByteClass := just 0x2F

def noSlash : ByteClass := ⟨true, [(0x2F, 0x2F)]⟩

end ByteClass

inductive Atom where
  | one (k : ByteClass)
  | many (k : ByteClass)
  deriving DecidableEq

/-- What may be left of some bytes when a row of bytes of a class is taken off their start, the longest first. -/
def ByteClass.rests (k : ByteClass) : List UInt8 → List (List UInt8)
  | [] => [[]]
  | b :: bytes => (b :: bytes) :: (if k.contains b then rests k bytes else [])

/-- Whether the atoms, one after the other, take exactly the given bytes. -/
def Atom.matchAll : List Atom → List UInt8 → Bool
  | [], bytes => bytes.isEmpty
  | .one _ :: _, [] => false
  | .one k :: atoms, b :: bytes => k.contains b && matchAll atoms bytes
  | .many k :: atoms, bytes => (k.rests bytes).any (matchAll atoms)

inductive Token where
  | char (c : Char)
  | any
  | star
  /-- Two stars and a slash at the start: any directories, or none. -/
  | dirsBefore
  /-- Two stars between slashes: at least the one slash. -/
  | dirsBetween
  /-- A slash and two stars at the end: everything inside. -/
  | dirsAfter
  | oneOf (negated : Bool) (ranges : List (Char × Char))
  | group (alternatives : List (List Atom))
  deriving DecidableEq

/-- The bytes of a class of characters.  The class is one of bytes: a character that takes several bytes puts
each of them in, and a range runs from the last byte of its lower end to the first of its upper end. -/
def bytesOfRange (r : Char × Char) : List (UInt8 × UInt8) :=
  let low := String.utf8EncodeChar r.1
  let high := String.utf8EncodeChar r.2
  if r.1 = r.2 then low.map (fun b => (b, b))
  else
    low.dropLast.map (fun b => (b, b)) ++ (low.getLast?.toList.zip high.head?.toList)
      ++ high.tail.map (fun b => (b, b))

namespace Token

/-- The atoms that a token may stand for.  `crossing` tells whether `?` and `*` take a slash. -/
def alternatives (crossing : Bool) : Token → List (List Atom)
  | char c => [(String.utf8EncodeChar c).map (fun b => .one (.just b))]
  | any => [[.one (if crossing then .all else .noSlash)]]
  | star => [[.many (if crossing then .all else .noSlash)]]
  | dirsBefore => [[], [.many .all, .one .slash]]
  | dirsBetween => [[.one .slash], [.one .slash, .many .all, .one .slash]]
  | dirsAfter => [[.one .slash, .many .all]]
  | oneOf negated ranges => [[.one ⟨negated, ranges.flatMap bytesOfRange⟩]]
  | group [] => [[]]
  | group (a :: as) => a :: as

def spellOut (crossing : Bool) (tokens : List Token) : List (List Atom) :=
  tokens.foldr (fun t rest => (t.alternatives crossing).flatMap (fun a => rest.map (a ++ ·))) [[]]

/-- Whether tokens leave no trace in the pattern: a branch without any, or with empty groups only. -/
def traceless (tokens : List Token) : Bool := tokens.all (· == group [])

/-- A brace group from its branches.  Branches that leave no trace are dropped, so `{a,}` is `a`. -/
def ofBranches (crossing : Bool) (branches : List (List Token)) : Token :=
  group ((branches.filter (fun b => !traceless b)).flatMap (spellOut crossing))

end Token
end Glob

structure Glob where
  alternatives : List (List Glob.Atom)
  deriving DecidableEq

/-- Whether the glob matches the whole path. -/
def Glob.matches (g : Glob) (path : Text) : Bool :=
  g.alternatives.any (fun atoms => Atom.matchAll atoms (Utf8.encode path))

end DocExcerpt
