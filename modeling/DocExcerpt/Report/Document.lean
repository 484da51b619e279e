import DocExcerpt.Json.Value
import DocExcerpt.Report.Block
import DocExcerpt.Scan
/-!
# The report as a document

What a report says, as the members of a JSON object.  They are printed as they stand when the format is JSON,
and are what a template inserts otherwise.
-/
namespace DocExcerpt

def Include.document (i : Include) (options : ReportOptions) : Json :=
  .object [
    Json.member "source" (.string i.source),
    Json.member "line" (.number i.request.line),
    Json.member "tag" (.string i.request.value),
    Json.member "example" (.string i.content.path.text),
    Json.member "language" (Json.orNull i.content.language?),
    Json.member "lines" (.array (i.content.excerpt.numbers.map Json.number)),
    Json.member "contents" (.string (i.content.contents options)),
    Json.member "block" (.string (i.content.block options))]

def Failure.document (f : Failure) : Json :=
  .object [
    Json.member "source" (.string f.source),
    Json.member "line" (.number f.request.line),
    Json.member "tag" (.string f.request.value),
    Json.member "message" (.string f.message)]

def Report.document (r : Report) (options : ReportOptions) : List (Text × Json) :=
  [Json.member "root" (.string r.root.text),
    Json.member "files_scanned" (.number r.filesScanned),
    Json.member "heading" (.string options.heading),
    Json.member "includes" (.array (r.includes.map (·.document options))),
    Json.member "failures" (.array (r.failures.map Failure.document))]

end DocExcerpt
