import DocExcerpt.Text.Basic
/-!
# Lines

Two ways to cut a file into lines.  `lines` is the numbering that selectors use: the text after the last line
feed is a line even when it is empty, so counting from the end agrees with an editor.  `rows` is how a file is
read row by row: a line feed ends a row and opens none.
-/
namespace DocExcerpt
namespace Text

/-- The text without one carriage return at its end. -/
def withoutReturn (t : Text) : Text := (before? ['\r'] t).getD t

/-- The pieces between line feeds, each without one trailing carriage return. -/
def lines (content : Text) : List Text := (pieces '\n' content).map withoutReturn

/-- The rows of a file.  A row ends at a line feed, and a carriage return directly before that is not part of
it; what follows the last line feed is a row as it stands, unless it is empty. -/
def rows (content : Text) : List Text :=
  match (pieces '\n' content).reverse with
  | [] => []
  | last :: ended => (ended.map withoutReturn).reverse ++ (if last.isEmpty then [] else [last])

end Text
end DocExcerpt
