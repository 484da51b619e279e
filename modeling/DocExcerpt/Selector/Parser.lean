import DocExcerpt.Selector.Basic
import DocExcerpt.Text.Blank
/-!
# Reading selectors

The clauses stand between commas.  A clause is a line reference, or two sides around a colon of which each may
be empty; a `!` in front excludes it.  Ranges used to be written with a dash: a clause in that form is refused
before anything else is read, with its colon form as a suggestion.
-/
namespace DocExcerpt

def LineRef.maxMagnitude : Nat := 0x7FFFFFFFFFFFFFFF

/-- A line reference from an optional minus sign and a numeral. -/
def LineRef.parse (place : RefPlace) (token : Text) : Except SelectorError LineRef :=
  let negative := Text.startsWith ['-'] token
  let digits := (Text.after? ['-'] token).getD token
  if Text.isNumeral digits then
    if h : 0 < Text.ofDigits digits then
      if Text.ofDigits digits ≤ LineRef.maxMagnitude then .ok ⟨Text.ofDigits digits, negative, h⟩
      else .error (.notNumber place token)
    else .error (.zero place)
  else .error (.notNumber place token)

namespace Clause

/-- A part of a selector without the `!` that excludes it. -/
def unmarked : Text → Text
  | '!' :: rest => Text.trim rest
  | part => part

/-- One side of a range; blank means open. -/
def parseSide (place : RefPlace) (side : Text) : Except SelectorError (Option LineRef) :=
  match Text.trim side with
  | [] => .ok none
  | token => (LineRef.parse place token).map some

/-- A range whose references both count from the start must not end before it starts; otherwise the order
depends on the file. -/
def ordered : Option LineRef → Option LineRef → Except SelectorError Unit
  | some first, some last =>
    if !first.negative && !last.negative && decide (last.magnitude < first.magnitude) then
      .error (.inverted first.magnitude last.magnitude)
    else .ok ()
  | _, _ => .ok ()

def parseReach (body : Text) : Except SelectorError Reach :=
  match Text.cutFirst? ':' body with
  | none => (LineRef.parse .lineNumber body).map Reach.line
  | some (left, right) => do
    let first? ← parseSide .rangeStart left
    let last? ← parseSide .rangeEnd right
    ordered first? last?
    return .range first? last?

def parse (part : Text) : Except SelectorError Clause :=
  (parseReach (unmarked part)).map (fun reach => ⟨Text.startsWith ['!'] part, reach⟩)

def isNegativeNumeral : Text → Bool
  | '-' :: digits => Text.isNumeral digits
  | _ => false

/-- Whether a part is written with a dash between its sides. -/
def isDashed (part : Text) : Bool :=
  let body := unmarked part
  !body.contains ':' && body.contains '-' && !isNegativeNumeral body

/-- A dashed part with its dash as a colon.  A dash in front is a sign as long as another one follows. -/
def colonForm (part : Text) : Text :=
  let mark : Text := if Text.startsWith ['!'] part then ['!'] else []
  match unmarked part with
  | [] => mark
  | c :: rest =>
    if rest.contains '-' then mark ++ c :: Text.replaceFirst '-' ':' rest
    else mark ++ Text.replaceFirst '-' ':' (c :: rest)

end Clause

def Selector.parts (selector : Text) : List Text := (Text.pieces ',' selector).map Text.trim

/-- The clauses written in a text.  A blank text and a lone colon have none; blank parts are passed over. -/
def Selector.parse (selector : Text) : Except SelectorError Selector :=
  let body := Text.trim selector
  if body = [] ∨ body = [':'] then .ok ⟨[]⟩
  else
    match (parts body).find? Clause.isDashed with
    | some part => .error (.dashRange part (Clause.colonForm part))
    | none => do
      let clauses ← ((parts body).filter (fun part => !part.isEmpty)).mapM Clause.parse
      return ⟨clauses⟩

end DocExcerpt
