import DocExcerpt.Text.Basic
/-!
# Templates

A template is text with expressions to insert and parts to repeat or leave out.  Its text is first cut into
segments (`Template.Segment`), the segments are read as nodes (`Template.parse`), and the nodes are rendered
over the members of a value (`Template.render`).
-/
namespace DocExcerpt
namespace Template

/-- A name, the attributes taken from it, and the filters applied to the result, in order. -/
structure Expr where
  name : Text
  attributes : List Text
  filters : List Text
  deriving DecidableEq

inductive Node where
  | text (t : Text)
  | output (e : Expr)
  /-- Renders the body for each item of a value, or the other part when there is none. -/
  | loop (binder : Text) (items : Expr) (body otherwise : List Node)
  | branch (condition : Expr) (body otherwise : List Node)

inductive TemplateError where
  | malformed
  | undefined (name : Text)
  | unknownFilter (name : Text)
  | noLength
  | noItems
  deriving DecidableEq

end Template
end DocExcerpt
