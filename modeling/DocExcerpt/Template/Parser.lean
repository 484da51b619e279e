import DocExcerpt.Template.Segment
/-!
# Reading templates

The parts of a template: expressions with attributes and filters, loops, and conditions with alternatives.
-/
namespace DocExcerpt
namespace Template

inductive Symbol where
  | word (t : Text)
  | sign (c : Char)
  deriving DecidableEq

def isNameChar (c : Char) : Bool := c.isAlphanum || c == '_'

/-- The blanks of ASCII, which part the words of an expression. -/
def isSeparator (c : Char) : Bool := c.isWhitespace || c == '\x0C'

/-- Puts a character in front of symbols: a name character joins the word that follows it directly. -/
def consSymbol (c : Char) : Option Char × List Symbol → Option Char × List Symbol
  | (next?, symbols) =>
    if isNameChar c then
      match next?.filter isNameChar, symbols with
      | some _, .word w :: rest => (some c, .word (c :: w) :: rest)
      | _, rest => (some c, .word [c] :: rest)
    else if isSeparator c then (some c, symbols)
    else (some c, .sign c :: symbols)

def symbols (t : Text) : List Symbol := (t.foldr consSymbol (none, [])).2

def isName : Text → Bool
  | [] => false
  | c :: _ => !c.isDigit

def filters? : List Symbol → Option (List Text)
  | [] => some []
  | .sign '|' :: .word f :: rest => if isName f then (filters? rest).map (f :: ·) else none
  | _ => none

def attributes? : List Symbol → Option (List Text × List Text)
  | .sign '.' :: .word a :: rest => if isName a then (attributes? rest).map (fun p => (a :: p.1, p.2)) else none
  | rest => (filters? rest).map (fun fs => ([], fs))

def expr? : List Symbol → Option Expr
  | .word name :: rest =>
    if isName name then (attributes? rest).map (fun p => ⟨name, p.1, p.2⟩) else none
  | _ => none

inductive Tag where
  | forLoop (binder : Text) (items : Expr)
  | ifTrue (condition : Expr)
  | elseIf (condition : Expr)
  | otherwise
  | endFor
  | endIf

def tag? (body : Text) : Option Tag :=
  match symbols body with
  | .word w :: rest =>
    if w = "for".toList then
      match rest with
      | .word x :: .word between :: items =>
        if between = "in".toList ∧ isName x then (expr? items).map (Tag.forLoop x) else none
      | _ => none
    else if w = "if".toList then (expr? rest).map Tag.ifTrue
    else if w = "elif".toList then (expr? rest).map Tag.elseIf
    else if !rest.isEmpty then none
    else if w = "else".toList then some .otherwise
    else if w = "endfor".toList then some .endFor
    else if w = "endif".toList then some .endIf
    else none
  | _ => none

mutual

/-- Reads nodes up to a tag that they do not contain, which is given back with the segments after it. -/
def nodes? : Nat → List Segment → Option (List Node × Option Tag × List Segment)
  | 0, _ => none
  | _ + 1, [] => some ([], none, [])
  | steps + 1, segment :: rest => do
    let more (n : Node) (rest : List Segment) : Option (List Node × Option Tag × List Segment) := do
      let (ns, stop?, rest) ← nodes? steps rest
      return (n :: ns, stop?, rest)
    match segment with
    | .text t => more (.text t) rest
    | .comment => nodes? steps rest
    | .output body =>
      let e ← expr? (symbols body)
      more (.output e) rest
    | .tag body =>
      match ← tag? body with
      | .forLoop x items =>
        match ← nodes? steps rest with
        | (body, some .endFor, rest) => more (.loop x items body []) rest
        | (body, some .otherwise, rest) =>
          match ← nodes? steps rest with
          | (other, some .endFor, rest) => more (.loop x items body other) rest
          | _ => none
        | _ => none
      | .ifTrue e =>
        let (n, rest) ← branch? steps e rest
        more n rest
      | stop => return ([], some stop, rest)

/-- Reads the rest of a condition after its first tag. -/
def branch? : Nat → Expr → List Segment → Option (Node × List Segment)
  | 0, _, _ => none
  | steps + 1, e, rest => do
    match ← nodes? steps rest with
    | (body, some .endIf, rest) => return (.branch e body [], rest)
    | (body, some .otherwise, rest) =>
      match ← nodes? steps rest with
      | (other, some .endIf, rest) => return (.branch e body other, rest)
      | _ => none
    | (body, some (.elseIf next), rest) =>
      let (n, rest) ← branch? steps next rest
      return (.branch e body [n], rest)
    | _ => none

end

def parse (t : Text) : Except TemplateError (List Node) :=
  match (segments? t).bind (fun segments => nodes? (2 * segments.length + 2) segments) with
  | some (nodes, none, _) => .ok nodes
  | _ => .error .malformed

end Template
end DocExcerpt
