import DocExcerpt.Path
import DocExcerpt.Selector.Parser
/-!
# Include tags

The value of an include tag is a path, and possibly a selector in brackets at its end: `src/demo.ts[2:8]`.
Selectors used to follow a colon; a value in that form is refused with its bracket form as a suggestion.
-/
namespace DocExcerpt

inductive TagError where
  /-- The brackets do not form one group at the end after a path. -/
  | malformed (value : Text)
  | emptySelector (value : Text)
  | colonSelector (value suggestion : Text)
  | selector (e : SelectorError)
  deriving DecidableEq

def TagError.message : TagError → Text
  | .malformed value => "malformed bracket syntax in '".toList ++ value ++ "'".toList
  | .emptySelector value => "empty line selector in '".toList ++ value ++ "'".toList
  | .colonSelector value suggestion =>
    "BREAKING CHANGE: the colon syntax '".toList ++ value
      ++ "' is no longer supported in v3.0.0+; use bracket syntax instead: '".toList ++ suggestion ++ "'".toList
  | .selector e => e.message

/-- The value of a tag cut into its path and the text of its selector. -/
structure TagParts where
  path : Text
  selector? : Option Text
  deriving DecidableEq

namespace TagParts

/-- Whether every `]` closes an earlier `[` when `depth` of them are open, and all are closed at the end. -/
def balancedFrom : Nat → Text → Bool
  | depth, [] => depth == 0
  | depth, '[' :: cs => balancedFrom (depth + 1) cs
  | 0, ']' :: _ => false
  | depth + 1, ']' :: cs => balancedFrom depth cs
  | depth, _ :: cs => balancedFrom depth cs

def balanced (t : Text) : Bool := balancedFrom 0 t

/-- Cuts the value of a tag at the bracket group that ends it. -/
def parse (tag : Text) : Except TagError TagParts :=
  let value := Text.trim tag
  match Text.before? [']'] value with
  | none =>
    if value.contains '[' || value.contains ']' then .error (.malformed value) else .ok ⟨value, none⟩
  | some body =>
    match Text.cutLast? '[' body with
    | none => .error (.malformed value)
    | some (before, selector) =>
      let path := Text.trimEnd before
      if path.isEmpty || selector.contains ']' || !balanced path then .error (.malformed value)
      else if (Text.trim selector).isEmpty then .error (.emptySelector value)
      else .ok ⟨path, some selector⟩

end TagParts

def isColonSelectorChar (c : Char) : Bool := isDecimalDigit c || c == '-' || c == ',' || isBlank c

/-- The bracket form of a value whose selector follows its last colon. -/
def bracketForm? (value : Text) : Option Text :=
  match Text.cutLast? ':' value with
  | none => none
  | some (path, selector) =>
    if !(Text.trim selector).isEmpty && selector.all isColonSelectorChar then
      some (path ++ "[".toList ++ Text.replaceAll '-' ':' selector ++ "]".toList)
    else none

structure Tag where
  path : Path
  /-- Without a selector the whole file is wanted. -/
  selector? : Option Selector
  deriving DecidableEq

/-- Reads the value of a tag.  A blank value names the file `default?`, if there is one. -/
def Tag.parse (tag : Text) (default? : Option Path) : Except TagError Tag := do
  let parts ← TagParts.parse tag
  match parts.selector? with
  | none =>
    match bracketForm? parts.path with
    | some suggestion => .error (.colonSelector parts.path suggestion)
    | none =>
      let written : Path := ⟨parts.path⟩
      return ⟨if parts.path.isEmpty then default?.getD written else written, none⟩
  | some text =>
    let selector ← (Selector.parse text).mapError TagError.selector
    return ⟨⟨parts.path⟩, some selector⟩

end DocExcerpt
