import DocExcerpt.Text.Blank
import DocExcerpt.Text.Line
/-!
# Documentation comments

Include tags stand in documentation comments: `/** … */` blocks, and lines that start with `///` or `//!`.
`bodies` gives the comment text of each row of a source file, `tagValue?` finds a tag in such a text, and
`requests` puts the two together.
-/
namespace DocExcerpt

/-- An include tag found in a source file. -/
structure Request where
  /-- The 1-based row; 0 when the file itself could not be read. -/
  line : Nat
  /-- The trimmed text after the tag; empty when the tag names no file. -/
  value : Text
  deriving DecidableEq

namespace DocComment

/-- The text before the end of a block, and whether the end is there. -/
def closeBlock (t : Text) : Text × Bool :=
  match Text.cutAt? ['*', '/'] t with
  | some (body, _) => (body, true)
  | none => (t, false)

/-- A row inside a block: its text without the star that opens it. -/
def blockRow (t : Text) : Text :=
  let body := Text.trimStart t
  (Text.after? ['*'] body).getD body

/-- The comment text of one row, and whether the next row is inside a block.  `inBlock` tells whether this one
is. -/
def bodyOf (inBlock : Bool) (row : Text) : Option Text × Bool :=
  let row := Text.trimStart row
  if inBlock then
    let (body, closed) := closeBlock row
    (some (blockRow body), !closed)
  else
    match Text.after? ['/', '*', '*'] row with
    | some rest =>
      if Text.startsWith ['/'] rest then (none, false)
      else
        let (body, closed) := closeBlock rest
        (some body, !closed)
    | none => (Text.after? ['/', '/', '/'] row <|> Text.after? ['/', '/', '!'] row, false)

/-- `bodies` of the remaining rows, after those already done, latest first. -/
def bodiesFrom : Bool → List (Option Text) → List Text → List (Option Text)
  | _, done, [] => done.reverse
  | inBlock, done, row :: rows =>
    let (body?, inBlock) := bodyOf inBlock row
    bodiesFrom inBlock (body? :: done) rows

/-- The comment text of each row, where the row has some. -/
def bodies (rows : List Text) : List (Option Text) := bodiesFrom false [] rows

def endsWord : Text → Bool
  | [] => true
  | c :: _ => isBlank c

/-- `tagValue?` in what is left of a text; `atStart` tells whether a word may start here. -/
def tagValueFrom? (tag : Text) : Bool → Text → Option Text
  | atStart, t =>
    match if atStart then (Text.after? tag t).filter endsWord else none with
    | some rest => some (Text.trim rest)
    | none =>
      match t with
      | [] => none
      | c :: cs => tagValueFrom? tag (isBlank c) cs

/-- The value of the first occurrence of a tag as a word of its own: what follows it, trimmed. -/
def tagValue? (tag body : Text) : Option Text := tagValueFrom? tag true body

/-- The include tags of a source file, in order. -/
def requests (tag content : Text) : List Request :=
  ((bodies (Text.rows content)).zipIdx 1).filterMap (fun (body?, line) =>
    (body?.bind (tagValue? tag)).map (fun value => ⟨line, value⟩))

end DocComment
end DocExcerpt
