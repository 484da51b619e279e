import DocExcerpt.Selector.Resolution
import DocExcerpt.Text.Line
/-!
# Excerpts

An excerpt is the part of a file that a selector keeps, with the numbers of its lines.  Without a selector the
content is kept as it is; with one, the kept lines lose their carriage returns.
-/
namespace DocExcerpt

/-- Lines kept from a file: their 1-based numbers, ascending, and their text. -/
structure Excerpt where
  numbers : List Nat
  text : Text
  deriving DecidableEq

namespace Excerpt

def ofContent (content : Text) (selector? : Option Selector) : Except OutOfRange Excerpt :=
  let lines := (Text.lines content).toArray
  match selector? with
  | none => .ok ⟨List.range' 1 lines.size, content⟩
  | some selector => do
    let numbers ← selector.resolve lines.size
    return ⟨numbers, Text.join ['\n'] (numbers.filterMap (fun n => lines[n - 1]?))⟩

/-- A numeral filled up on the left to `width` characters. -/
def alignRight (width : Nat) (numeral : Text) : Text :=
  List.replicate (width - numeral.length) ' ' ++ numeral

def bar : Text := [' ', '\u2502', ' ']

/-- The width of the number column: that of the last number, which is the largest. -/
def gutterWidth (e : Excerpt) : Nat :=
  match e.numbers.getLast? with
  | none => 1
  | some last => (Text.decimal last).length

def gutter (e : Excerpt) : Text :=
  let width := e.gutterWidth
  Text.join ['\n'] ((e.numbers.zip (Text.pieces '\n' e.text)).map (fun row =>
    alignRight width (Text.decimal row.1) ++ bar ++ row.2))

end Excerpt
end DocExcerpt
