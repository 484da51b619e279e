import DocExcerpt.Text.Digit
/-!
# JSON values and their text

A report is shown to other programs as JSON: objects keep the order of their members, numbers are natural
numbers, and the text is indented by two blanks a level.  In a string only the quote, the backslash and the
control characters are escaped.
-/
namespace DocExcerpt

inductive Json where
  | null
  | bool (b : Bool)
  | number (n : Nat)
  | string (t : Text)
  | array (items : List Json)
  | object (members : List (Text × Json))

namespace Json

def hexPair (n : Nat) : Text := [Nat.digitChar (n / 16), Nat.digitChar (n % 16)]

def escapeChar (c : Char) : Text :=
  if c = '"' then ['\\', '"']
  else if c = '\\' then ['\\', '\\']
  else if c.toNat = 0x08 then ['\\', 'b']
  else if c.toNat = 0x0C then ['\\', 'f']
  else if c = '\n' then ['\\', 'n']
  else if c = '\r' then ['\\', 'r']
  else if c = '\t' then ['\\', 't']
  else if c.toNat < 0x20 then ['\\', 'u', '0', '0'] ++ hexPair c.toNat
  else [c]

def quote (t : Text) : Text := '"' :: (t.flatMap escapeChar ++ ['"'])

def newline (level : Nat) : Text := '\n' :: List.replicate (2 * level) ' '

/-- Items between brackets, each on a line of its own one level further in. -/
def enclose (opening closing : Char) (level : Nat) : List Text → Text
  | [] => [opening, closing]
  | items =>
    opening :: (Text.join [','] (items.map (newline (level + 1) ++ ·)) ++ newline level ++ [closing])

mutual

def printAt (level : Nat) : Json → Text
  | null => "null".toList
  | bool b => if b then "true".toList else "false".toList
  | number n => Text.decimal n
  | string t => quote t
  | array items => enclose '[' ']' level (printItems (level + 1) items)
  | object members => enclose '\x7b' '\x7d' level (printMembers (level + 1) members)

def printItems (level : Nat) : List Json → List Text
  | [] => []
  | v :: vs => printAt level v :: printItems level vs

def printMembers (level : Nat) : List (Text × Json) → List Text
  | [] => []
  | (name, v) :: ms => (quote name ++ ':' :: ' ' :: printAt level v) :: printMembers level ms

end

def print (v : Json) : Text := printAt 0 v

def member (name : String) (v : Json) : Text × Json := (name.toList, v)

def orNull : Option Text → Json
  | none => null
  | some t => string t

end Json
end DocExcerpt
