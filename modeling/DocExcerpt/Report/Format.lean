import DocExcerpt.Config.Basic
import DocExcerpt.Path
import DocExcerpt.Text.Blank
/-!
# Report formats and options

A report is a Markdown document, plain text or JSON.  The options of a rendering start from the configuration.
-/
namespace DocExcerpt

inductive ReportFormat where
  | markdown
  | plain
  | json
  deriving DecidableEq

/-- A name that is no report format, in lower case. -/
structure UnknownFormat where
  name : Text
  deriving DecidableEq

def UnknownFormat.message (e : UnknownFormat) : Text :=
  "unknown render format '".toList ++ e.name ++ "'".toList

namespace ReportFormat

def name : ReportFormat → Text
  | markdown => "markdown".toList
  | plain => "plain".toList
  | json => "json".toList

def ofName? (t : Text) : Option ReportFormat := [markdown, plain, json].find? (fun f => f.name == t)

/-- The format that a setting names, up to case and blanks around it; the text formats have short names too. -/
def parse (setting : Text) : Except UnknownFormat ReportFormat :=
  let t := Text.asciiLower (Text.trim setting)
  if t = "markdown".toList ∨ t = "md".toList then .ok markdown
  else if t = "plain".toList ∨ t = "text".toList ∨ t = "txt".toList then .ok plain
  else if t = "json".toList then .ok json
  else .error ⟨t⟩

/-- The built-in template of a format; JSON has none. -/
def templateName? : ReportFormat → Option Text
  | markdown => some markdown.name
  | plain => some plain.name
  | json => none

end ReportFormat

structure ReportOptions where
  format : ReportFormat
  /-- The name of a built-in template or the path of another one. -/
  template? : Option Text
  heading : Text
  fenceLanguage : Bool
  lineNumbers : Bool
  output? : Option Path
  deriving DecidableEq

def ReportOptions.ofConfig (c : Config) : Except UnknownFormat ReportOptions := do
  let format ← ReportFormat.parse c.format
  return ⟨format, c.render.template?, c.defaults.heading, c.fenceLanguage, c.lineNumbers, none⟩

end DocExcerpt
