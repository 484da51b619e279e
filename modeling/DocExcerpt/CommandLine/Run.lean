import DocExcerpt.CommandLine.Basic
import DocExcerpt.Config.Layer
import DocExcerpt.Report.Render
import DocExcerpt.Selector.Parser
/-!
# Running commands

What a command prints, how it changes the storage, and how it fails.
-/
namespace DocExcerpt

inductive CommandError where
  | selector (e : SelectorError)
  | lines (e : OutOfRange)
  | config (e : Config.LoadError)
  | format (e : UnknownFormat)
  | example (e : ExampleError)
  | skip (e : SkipError)
  | render (e : RenderError)
  | unresolved (count : Nat)
  deriving DecidableEq

def CommandError.message : CommandError → Text
  | .selector e => e.message
  | .lines e => e.message
  | .config e => e.message
  | .format e => e.message
  | .example e => e.message
  | .skip e => e.message
  | .render e => e.message
  | .unresolved count => Text.decimal count ++ " include(s) could not be resolved".toList

/-- The result of a command: the storage afterwards, what is printed, and the error if it fails. -/
structure Outcome where
  storage : Storage
  printed : Text
  error? : Option CommandError

def LineRef.document (r : LineRef) : Json :=
  .object [Json.member "magnitude" (.number r.magnitude), Json.member "negative" (.bool r.negative)]

def LineRef.documentOrNull : Option LineRef → Json
  | none => .null
  | some r => r.document

def Clause.document (c : Clause) : Json :=
  match c.reach with
  | .line ref =>
    .object [Json.member "kind" (.string "single".toList), Json.member "exclusion" (.bool c.excluded),
      Json.member "line" ref.document]
  | .range first? last? =>
    .object [Json.member "kind" (.string "range".toList), Json.member "exclusion" (.bool c.excluded),
      Json.member "start" (LineRef.documentOrNull first?), Json.member "end" (LineRef.documentOrNull last?)]

def Selector.document (s : Selector) : Json :=
  .object [Json.member "selections" (.array (s.clauses.map Clause.document)),
    Json.member "has_negative_indexing" (.bool s.countsFromEnd),
    Json.member "has_exclusions" (.bool s.hasExclusions)]

namespace Command

def printResolved (selector : Text) (total : Nat) (json : Bool) : Except CommandError Text := do
  let parsed ← (Selector.parse selector).mapError CommandError.selector
  let numbers ← (parsed.resolve total).mapError CommandError.lines
  if json then
    return Json.print (.object [Json.member "selector" parsed.document,
      Json.member "lines" (.array (numbers.map Json.number))]) ++ ['\n']
  else
    return Text.join [','] (numbers.map Text.decimal) ++ ['\n']

def printExample (s : Storage) (env : Environment) (tag : Text) (source? : Option Path) (lineNumbers block : Bool) :
    Except CommandError Text := do
  let here := s.workingPath
  let config ← (Config.load s env here).mapError CommandError.config
  let found ← (Example.load s here config.defaults.exampleSuffix source? tag).mapError CommandError.example
  let options ← (ReportOptions.ofConfig config).mapError CommandError.format
  let options := { options with lineNumbers := options.lineNumbers || lineNumbers }
  let t := if block then Text.trimStart (found.block options) else found.contents options
  return t ++ ['\n']

/-- The options of a scan: those of the configuration under those of the command line. -/
def scanOptions (config : Config) (format? : Option ReportFormat) (template? : Option Text)
    (output? : Option Path) (lineNumbers : Bool) : Except CommandError ReportOptions := do
  let options ← (ReportOptions.ofConfig config).mapError CommandError.format
  return { options with
    format := format?.getD options.format
    template? := template? <|> options.template?
    output? := output?
    lineNumbers := options.lineNumbers || lineNumbers }

/-- The report of a scan and the options to render it with. -/
def scanReport (s : Storage) (env : Environment) (root? : Option Path) (format? : Option ReportFormat)
    (template? : Option Text) (output? : Option Path) (lineNumbers : Bool) :
    Except CommandError (Report × ReportOptions) := do
  let root := root?.getD s.workingPath
  let config ← (Config.load s env root).mapError CommandError.config
  let options ← scanOptions config format? template? output? lineNumbers
  let report ← (Scan.run s config Scan.defaultMaxSize root).mapError CommandError.skip
  return (report, options)

/-- The outcome of printing a text or failing, with the storage as it is. -/
def printing (s : Storage) : Except CommandError Text → Outcome
  | .ok t => ⟨s, t, none⟩
  | .error e => ⟨s, [], some e⟩

def completionWords : List Text :=
  CommandLine.signatures.flatMap (fun g => g.name :: g.options.map (fun a => ['-', '-'] ++ a.name))

def completionText (shell : Shell) : Text :=
  let words := Text.join [' '] completionWords.eraseDups
  match shell with
  | .bash => "complete -W \"".toList ++ words ++ "\" excerpt\n".toList
  | .zsh => "#compdef excerpt\ncompadd -- ".toList ++ words ++ "\n".toList
  | .fish => "complete -c excerpt -f -a \"".toList ++ words ++ "\"\n".toList
  | .elvish =>
    "set edit:completion:arg-completer[excerpt] = \x7b|@args| put ".toList ++ words ++ " \x7d\n".toList
  | .powershell =>
    "Register-ArgumentCompleter -Native -CommandName excerpt -ScriptBlock \x7b \"".toList ++ words
      ++ "\" -split \" \" \x7d\n".toList

def run (s : Storage) (env : Environment) : Command → Outcome
  | .resolve selector total json => printing s (printResolved selector total json)
  | .show tag source? lineNumbers block => printing s (printExample s env tag source? lineNumbers block)
  | .completions shell => printing s (.ok (completionText shell))
  | .scan root? format? template? output? lineNumbers =>
    match scanReport s env root? format? template? output? lineNumbers with
    | .error e => ⟨s, [], some e⟩
    | .ok (report, options) =>
      match report.publish s options with
      | (s, .error e) => ⟨s, [], some (.render e)⟩
      | (s, .ok t) => ⟨s, t, if report.isClean then none else some (.unresolved report.failures.length)⟩

end Command
end DocExcerpt
