import DocExcerpt.Report.Document
import DocExcerpt.Report.Template
import DocExcerpt.Storage.Change
/-!
# Rendering reports

A report is rendered as JSON or with a template, built in or from a file, and may be written to a file.
-/
namespace DocExcerpt

inductive RenderError where
  | noTemplate (name : Text)
  | unreadableTemplate (name : Text) (cause : IoError)
  | malformedTemplate (name : Text) (cause : Template.TemplateError)
  | failedTemplate (name : Text) (cause : Template.TemplateError)
  | outputDirectory (path : Path) (cause : IoError)
  | output (path : Path) (cause : IoError)
  deriving DecidableEq

def RenderError.message : RenderError → Text
  | .noTemplate name => "template '".toList ++ name ++ "' not found (built-in or filesystem)".toList
  | .unreadableTemplate name cause =>
    "failed to load template from path ".toList ++ name ++ ": ".toList ++ cause.message
  | .malformedTemplate name _ => "invalid template '".toList ++ name ++ "'".toList
  | .failedTemplate name _ => "failed to render template '".toList ++ name ++ "'".toList
  | .outputDirectory path cause =>
    "failed to create output directory: ".toList ++ path.text ++ ": ".toList ++ cause.message
  | .output path cause => "failed to write report to ".toList ++ path.text ++ ": ".toList ++ cause.message

namespace Report

/-- The text of the template with the given name: a built-in one, or else the file at that path. -/
def templateText (s : Storage) (name : Text) : Except RenderError Text :=
  match builtInTemplate? name with
  | some t => .ok t
  | none =>
    if s.exists? ⟨name⟩ then (s.readUtf8 ⟨name⟩).mapError (RenderError.unreadableTemplate name)
    else .error (.noTemplate name)

def renderTemplate (s : Storage) (r : Report) (options : ReportOptions) (name : Text) :
    Except RenderError Text := do
  let t ← templateText s name
  let nodes ← (Template.parse t).mapError (RenderError.malformedTemplate name)
  (Template.render nodes (r.document options)).mapError (RenderError.failedTemplate name)

/-- The text of a report.  JSON needs no template and heeds none. -/
def render (r : Report) (s : Storage) (options : ReportOptions) : Except RenderError Text :=
  match options.format.templateName? with
  | none => .ok (Json.print (.object (r.document options)))
  | some name => renderTemplate s r options (options.template?.getD name)

/-- Writes a text to a file, whose directory is made if it is missing. -/
def save (s : Storage) (path : Path) (t : Text) : Storage × Except RenderError Unit :=
  let (s, refused?) := match path.parent? with
    | some dir => ((s.createDirectories dir).1, (s.createDirectories dir).2.map (RenderError.outputDirectory dir))
    | none => (s, none)
  match refused? with
  | some e => (s, .error e)
  | none =>
    match s.write path (Utf8.encode t) with
    | .ok s => (s, .ok ())
    | .error e => (s, .error (.output path e))

/-- Renders a report and writes it to the output file, if there is one. -/
def publish (s : Storage) (r : Report) (options : ReportOptions) : Storage × Except RenderError Text :=
  match r.render s options with
  | .error e => (s, .error e)
  | .ok t =>
    match options.output? with
    | none => (s, .ok t)
    | some path =>
      match save s path t with
      | (s, .ok ()) => (s, .ok t)
      | (s, .error e) => (s, .error e)

end Report
end DocExcerpt
