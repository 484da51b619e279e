import DocExcerpt.Proofs.Report.Faithful
import DocExcerpt.Proofs.Template.Rendering
/-!
# What the built-in templates say

A Markdown report and a plain one are put together line by line from the facts of the report
(`ReportFacts.markdown`, `ReportFacts.plain`).  The built-in templates say these lines and nothing else, whatever the
facts hold (`Report.render_builtIn`): a line of the template with a tag alone leaves no line, and an inserted value is
not read again.
-/
namespace DocExcerpt

/-- The text of some lines, each with a line end. -/
def Text.ofLines (lines : List Text) : Text := lines.flatMap (· ++ ['\n'])

namespace Text

@[simp] theorem ofLines_nil : ofLines [] = [] := rfl

@[simp] theorem ofLines_cons (line : Text) (lines : List Text) :
    ofLines (line :: lines) = line ++ '\n' :: ofLines lines := by
  rw [ofLines, List.flatMap_cons, List.append_assoc]
  rfl

@[simp] theorem ofLines_append (lines more : List Text) : ofLines (lines ++ more) = ofLines lines ++ ofLines more :=
  List.flatMap_append

theorem ofLines_flatMap {α : Type} (l : List α) (lines : α → List Text) :
    ofLines (l.flatMap lines) = l.flatMap (fun a => ofLines (lines a)) := List.flatMap_assoc

end Text

/-! ## The lines of a report -/

def IncludeFacts.markdown (f : IncludeFacts) : List Text :=
  ["## ".toList ++ f.source ++ ":".toList ++ Text.decimal f.line, "_".toList ++ f.file ++ "_".toList, f.block, []]

def FailureFacts.markdown (f : FailureFacts) : List Text :=
  ["- ".toList ++ f.source ++ ":".toList ++ Text.decimal f.line ++ " `".toList ++ f.tag ++ "`: ".toList ++ f.message]

/-- The failures under a heading; without any there is no heading either. -/
def ReportFacts.markdownFailures (f : ReportFacts) : List Text :=
  if f.failures = [] then [] else ["## Failures".toList, []] ++ f.failures.flatMap FailureFacts.markdown

def ReportFacts.markdown (f : ReportFacts) : List Text :=
  ["# Included Examples".toList,
    [],
    "Scanned ".toList ++ Text.decimal f.filesScanned ++ " files under `".toList ++ f.root ++ "`.".toList,
    []] ++
  f.includes.flatMap IncludeFacts.markdown ++ f.markdownFailures

def IncludeFacts.plain (f : IncludeFacts) : List Text :=
  ["-- ".toList ++ f.source ++ ":".toList ++ Text.decimal f.line ++ " (".toList ++ f.file ++ ")".toList, f.contents, []]

def FailureFacts.plain (f : FailureFacts) : List Text :=
  ["!! ".toList ++ f.source ++ ":".toList ++ Text.decimal f.line ++ " ".toList ++ f.tag ++ ": ".toList ++ f.message]

def ReportFacts.plain (f : ReportFacts) : List Text :=
  ["Scanned ".toList ++ Text.decimal f.filesScanned ++ " files under ".toList ++ f.root, []] ++
  f.includes.flatMap IncludeFacts.plain ++ f.failures.flatMap FailureFacts.plain

/-! ## The nodes of the templates

A tag alone on its line leaves nothing of that line, so there is an empty text between two such tags. -/

namespace Template

def Expr.ofName (name : String) : Expr := ⟨name.toList, [], []⟩

def Expr.ofMember (name member : String) : Expr := ⟨name.toList, [member.toList], []⟩

end Template

namespace Report
open Template

def markdownInclude : List Node := [
  .text "## ".toList, .output (.ofMember "include" "source"), .text ":".toList, .output (.ofMember "include" "line"),
  .text "\n_".toList, .output (.ofMember "include" "example"), .text "_\n".toList,
  .output (.ofMember "include" "block"), .text "\n\n".toList]

def markdownFailure : List Node := [
  .text "- ".toList, .output (.ofMember "failure" "source"), .text ":".toList, .output (.ofMember "failure" "line"),
  .text " `".toList, .output (.ofMember "failure" "tag"), .text "`: ".toList, .output (.ofMember "failure" "message"),
  .text "\n".toList]

def markdownFailures : List Node := [
  .text "## Failures\n\n".toList, .loop "failure".toList (.ofName "failures") markdownFailure [], .text []]

def markdownNodes : List Node := [
  .text "# Included Examples\n\nScanned ".toList, .output (.ofName "files_scanned"), .text " files under `".toList,
  .output (.ofName "root"), .text "`.\n\n".toList,
  .loop "include".toList (.ofName "includes") markdownInclude [],
  .text [],
  .branch (.ofName "failures") markdownFailures [],
  .text []]

def plainInclude : List Node := [
  .text "-- ".toList, .output (.ofMember "include" "source"), .text ":".toList, .output (.ofMember "include" "line"),
  .text " (".toList, .output (.ofMember "include" "example"), .text ")\n".toList,
  .output (.ofMember "include" "contents"), .text "\n\n".toList]

def plainFailure : List Node := [
  .text "!! ".toList, .output (.ofMember "failure" "source"), .text ":".toList, .output (.ofMember "failure" "line"),
  .text " ".toList, .output (.ofMember "failure" "tag"), .text ": ".toList, .output (.ofMember "failure" "message"),
  .text "\n".toList]

def plainNodes : List Node := [
  .text "Scanned ".toList, .output (.ofName "files_scanned"), .text " files under ".toList, .output (.ofName "root"),
  .text "\n\n".toList,
  .loop "include".toList (.ofName "includes") plainInclude [],
  .text [],
  .loop "failure".toList (.ofName "failures") plainFailure [],
  .text []]

theorem segments?_plainTemplate : segments? plainTemplate = some [
    .text "Scanned ".toList, .output " files_scanned ".toList, .text " files under ".toList, .output " root ".toList,
    .text "\n\n".toList, .tag " for include in includes ".toList,
    .text "-- ".toList, .output " include.source ".toList, .text ":".toList, .output " include.line ".toList,
    .text " (".toList, .output " include.example ".toList, .text ")\n".toList, .output " include.contents ".toList,
    .text "\n\n".toList, .tag " endfor ".toList, .text [], .tag " for failure in failures ".toList,
    .text "!! ".toList, .output " failure.source ".toList, .text ":".toList, .output " failure.line ".toList,
    .text " ".toList, .output " failure.tag ".toList, .text ": ".toList, .output " failure.message ".toList,
    .text "\n".toList, .tag " endfor ".toList, .text []] := by
  decide +kernel

theorem parse_plainTemplate : Template.parse plainTemplate = .ok plainNodes := by
  rw [Template.parse, segments?_plainTemplate]
  rfl

theorem segments?_markdownTemplate : segments? markdownTemplate = some [
    .text "# Included Examples\n\nScanned ".toList, .output " files_scanned ".toList, .text " files under `".toList,
    .output " root ".toList, .text "`.\n\n".toList, .tag " for include in includes ".toList,
    .text "## ".toList, .output " include.source ".toList, .text ":".toList, .output " include.line ".toList,
    .text "\n_".toList, .output " include.example ".toList, .text "_\n".toList, .output " include.block ".toList,
    .text "\n\n".toList, .tag " endfor ".toList, .text [], .tag " if failures ".toList,
    .text "## Failures\n\n".toList, .tag " for failure in failures ".toList,
    .text "- ".toList, .output " failure.source ".toList, .text ":".toList, .output " failure.line ".toList,
    .text " `".toList, .output " failure.tag ".toList, .text "`: ".toList, .output " failure.message ".toList,
    .text "\n".toList, .tag " endfor ".toList, .text [], .tag " endif ".toList, .text []] := by
  decide +kernel

theorem parse_markdownTemplate : Template.parse markdownTemplate = .ok markdownNodes := by
  rw [Template.parse, segments?_markdownTemplate]
  rfl

/-! ## What the nodes say -/

variable {loop : Json} {scope : Scope}

theorem renderNodes_markdownInclude (f : IncludeFacts) :
    renderNodes (("include".toList, f.json) :: ("loop".toList, loop) :: scope) markdownInclude =
      .ok (Text.ofLines f.markdown) := by
  have h : renderNodes (("include".toList, f.json) :: ("loop".toList, loop) :: scope) markdownInclude =
      .ok (List.flatten ["## ".toList, f.source, ":".toList, Text.decimal f.line, "\n_".toList, f.file,
        "_\n".toList, f.block, "\n\n".toList]) := rfl
  rw [h]
  simp [IncludeFacts.markdown]

theorem renderNodes_plainInclude (f : IncludeFacts) :
    renderNodes (("include".toList, f.json) :: ("loop".toList, loop) :: scope) plainInclude =
      .ok (Text.ofLines f.plain) := by
  have h : renderNodes (("include".toList, f.json) :: ("loop".toList, loop) :: scope) plainInclude =
      .ok (List.flatten ["-- ".toList, f.source, ":".toList, Text.decimal f.line, " (".toList, f.file,
        ")\n".toList, f.contents, "\n\n".toList]) := rfl
  rw [h]
  simp [IncludeFacts.plain]

theorem renderNodes_markdownFailure (f : FailureFacts) :
    renderNodes (("failure".toList, f.json) :: ("loop".toList, loop) :: scope) markdownFailure =
      .ok (Text.ofLines f.markdown) := by
  have h : renderNodes (("failure".toList, f.json) :: ("loop".toList, loop) :: scope) markdownFailure =
      .ok (List.flatten ["- ".toList, f.source, ":".toList, Text.decimal f.line, " `".toList, f.tag, "`: ".toList,
        f.message, "\n".toList]) := rfl
  rw [h]
  simp [FailureFacts.markdown]

theorem renderNodes_plainFailure (f : FailureFacts) :
    renderNodes (("failure".toList, f.json) :: ("loop".toList, loop) :: scope) plainFailure =
      .ok (Text.ofLines f.plain) := by
  have h : renderNodes (("failure".toList, f.json) :: ("loop".toList, loop) :: scope) plainFailure =
      .ok (List.flatten ["!! ".toList, f.source, ":".toList, Text.decimal f.line, " ".toList, f.tag, ": ".toList,
        f.message, "\n".toList]) := rfl
  rw [h]
  simp [FailureFacts.plain]

/-- A loop whose body says some lines of each item says the lines of all items. -/
theorem renderNode_loop_ofLines {α : Type} {l : List α} {json : α → Json} {lines : α → List Text} {x : Text}
    {whole : Expr} {body : List Node} (hwhole : whole.value scope = .ok (some (.array (l.map json))))
    (hbody : ∀ a loop,
      renderNodes ((x, json a) :: ("loop".toList, loop) :: scope) body = .ok (Text.ofLines (lines a))) :
    renderNode scope (.loop x whole body []) = .ok (Text.ofLines (l.flatMap lines)) := by
  have heach : List.Forall₂ (fun v t => ∀ loop, renderNodes ((x, v) :: ("loop".toList, loop) :: scope) body = .ok t)
      (l.map json) (l.map (fun a => Text.ofLines (lines a))) := by
    rw [List.forall₂_map_left_iff, List.forall₂_map_right_iff, List.forall₂_same]
    exact fun a _ => hbody a
  rw [renderNode_loop_eq_ok hwhole heach, Text.ofLines_flatMap, List.flatMap_def]

variable {f : ReportFacts}

theorem value_includes (h : Json.object scope = f.json) :
    (Expr.ofName "includes").value scope = .ok (some (.array (f.includes.map IncludeFacts.json))) := by
  obtain rfl := Json.object.inj h
  rfl

theorem value_failures (h : Json.object scope = f.json) :
    (Expr.ofName "failures").value scope = .ok (some (.array (f.failures.map FailureFacts.json))) := by
  obtain rfl := Json.object.inj h
  rfl

/-- **The nodes of the plain template say the lines of a plain report.** -/
theorem renderNodes_plainNodes (h : Json.object scope = f.json) :
    renderNodes scope plainNodes = .ok (Text.ofLines f.plain) := by
  have hincludes : renderNode scope (.loop "include".toList (.ofName "includes") plainInclude []) =
      .ok (Text.ofLines (f.includes.flatMap IncludeFacts.plain)) :=
    renderNode_loop_ofLines (value_includes h) (fun i _ => renderNodes_plainInclude i)
  have hfailures : renderNode scope (.loop "failure".toList (.ofName "failures") plainFailure []) =
      .ok (Text.ofLines (f.failures.flatMap FailureFacts.plain)) :=
    renderNode_loop_ofLines (value_failures h) (fun i _ => renderNodes_plainFailure i)
  have hnodes : List.Forall₂ (fun n t => renderNode scope n = .ok t) plainNodes
      ["Scanned ".toList, Text.decimal f.filesScanned, " files under ".toList, f.root, "\n\n".toList,
        Text.ofLines (f.includes.flatMap IncludeFacts.plain), [],
        Text.ofLines (f.failures.flatMap FailureFacts.plain), []] := by
    -- with the members at hand every other node is evaluated
    obtain rfl := Json.object.inj h
    exact .cons rfl (.cons rfl (.cons rfl (.cons rfl (.cons rfl (.cons hincludes (.cons rfl (.cons hfailures
      (.cons rfl .nil))))))))
  rw [renderNodes_eq_ok hnodes]
  simp [ReportFacts.plain]

theorem renderNodes_markdownFailures (h : Json.object scope = f.json) :
    renderNodes scope markdownFailures =
      .ok (Text.ofLines (["## Failures".toList, []] ++ f.failures.flatMap FailureFacts.markdown)) := by
  have hfailures : renderNode scope (.loop "failure".toList (.ofName "failures") markdownFailure []) =
      .ok (Text.ofLines (f.failures.flatMap FailureFacts.markdown)) :=
    renderNode_loop_ofLines (value_failures h) (fun i _ => renderNodes_markdownFailure i)
  have hnodes : List.Forall₂ (fun n t => renderNode scope n = .ok t) markdownFailures
      ["## Failures\n\n".toList, Text.ofLines (f.failures.flatMap FailureFacts.markdown), []] :=
    .cons rfl (.cons hfailures (.cons rfl .nil))
  rw [renderNodes_eq_ok hnodes]
  simp

theorem renderNode_failures (h : Json.object scope = f.json) :
    renderNode scope (.branch (.ofName "failures") markdownFailures []) = .ok (Text.ofLines f.markdownFailures) := by
  rw [renderNode_branch (value_failures h), ReportFacts.markdownFailures]
  by_cases hnone : f.failures = []
  · rw [if_pos hnone, hnone, List.map_nil]
    rfl
  · have htrue : Template.isTrue (some (.array (f.failures.map FailureFacts.json))) = true := by
      simp [Template.isTrue, hnone]
    rw [if_neg hnone, if_pos htrue, renderNodes_markdownFailures h]

/-- **The nodes of the Markdown template say the lines of a Markdown report.** -/
theorem renderNodes_markdownNodes (h : Json.object scope = f.json) :
    renderNodes scope markdownNodes = .ok (Text.ofLines f.markdown) := by
  have hincludes : renderNode scope (.loop "include".toList (.ofName "includes") markdownInclude []) =
      .ok (Text.ofLines (f.includes.flatMap IncludeFacts.markdown)) :=
    renderNode_loop_ofLines (value_includes h) (fun i _ => renderNodes_markdownInclude i)
  have hnodes : List.Forall₂ (fun n t => renderNode scope n = .ok t) markdownNodes
      ["# Included Examples\n\nScanned ".toList, Text.decimal f.filesScanned,
        " files under `".toList, f.root, "`.\n\n".toList,
        Text.ofLines (f.includes.flatMap IncludeFacts.markdown), [],
        Text.ofLines f.markdownFailures, []] := by
    have hfailures := renderNode_failures h
    -- with the members at hand every other node is evaluated
    obtain rfl := Json.object.inj h
    exact .cons rfl (.cons rfl (.cons rfl (.cons rfl (.cons rfl (.cons hincludes (.cons rfl (.cons hfailures
      (.cons rfl .nil))))))))
  rw [renderNodes_eq_ok hnodes]
  simp [ReportFacts.markdown]

theorem render_of_builtInTemplate? (r : Report) (s : Storage) {options : ReportOptions} {template : Text}
    {nodes : List Node} (hformat : options.format ≠ .json)
    (htemplate : builtInTemplate? (options.template?.getD options.format.name) = some template)
    (hparse : Template.parse template = .ok nodes) {t : Text}
    (hrender : renderNodes (r.document options) nodes = .ok t) : r.render s options = .ok t := by
  have hname : options.format.templateName? = some options.format.name := by
    cases hcase : options.format with
    | json => exact absurd hcase hformat
    | markdown => rfl
    | plain => rfl
  simp only [Report.render, hname, renderTemplate, templateText, htemplate, bind, Except.bind, hparse, Except.mapError,
    Template.render, hrender]

/-- **A built-in template says the whole report, and every value as it stands.**  Rendered with the built-in template
of its format, or with one that is named, a report is the lines put together from its facts. -/
theorem render_builtIn (r : Report) (s : Storage) {options : ReportOptions} (hformat : options.format ≠ .json) :
    (options.template?.getD options.format.name = "markdown".toList →
      r.render s options = .ok (Text.ofLines (r.facts options).markdown)) ∧
    (options.template?.getD options.format.name = "plain".toList →
      r.render s options = .ok (Text.ofLines (r.facts options).plain)) := by
  constructor
  · intro hname
    have htemplate : builtInTemplate? (options.template?.getD options.format.name) = some markdownTemplate := by
      rw [hname]
      rfl
    exact render_of_builtInTemplate? r s hformat htemplate parse_markdownTemplate
      (renderNodes_markdownNodes (r.document_eq options))
  · intro hname
    have htemplate : builtInTemplate? (options.template?.getD options.format.name) = some plainTemplate := by
      rw [hname]
      rfl
    exact render_of_builtInTemplate? r s hformat htemplate parse_plainTemplate
      (renderNodes_plainNodes (r.document_eq options))

/-- A report with the markers of templates in what it says. -/
def bracesReport : Report where
  root := ⟨"{{ root }}".toList⟩
  filesScanned := 2
  includes := [⟨"<b>{% endfor %}".toList, ⟨3, "a.ts".toList⟩,
    ⟨⟨"a.ts".toList⟩, ⟨[1, 2], "{{ loop.index }}\n```".toList⟩⟩⟩]
  failures := [⟨"b.ts".toList, ⟨12, "{# x #}".toList⟩, "no {% if %}\n".toList⟩]

def bracesOptions (template? : Option Text) : ReportOptions where
  format := .markdown
  template? := template?
  heading := "{{ heading }}".toList
  fenceLanguage := true
  lineNumbers := false
  output? := none

theorem render_builtIn_bracesReport :
    (∀ template?, (bracesOptions template?).format ≠ .json) ∧
    bracesReport.render (Storage.empty []) (bracesOptions none) = .ok (Text.ofLines (List.map String.toList [
      "# Included Examples",
      "",
      "Scanned 2 files under `{{ root }}`.",
      "",
      "## <b>{% endfor %}:3",
      "_a.ts_",
      "\n\n### {{ heading }}\n```ts\n{{ loop.index }}\n```\n```",
      "",
      "## Failures",
      "",
      "- b.ts:12 `{# x #}`: no {% if %}\n"])) ∧
    bracesReport.render (Storage.empty []) (bracesOptions (some "plain".toList)) =
      .ok (Text.ofLines (List.map String.toList [
        "Scanned 2 files under {{ root }}",
        "",
        "-- <b>{% endfor %}:3 (a.ts)",
        "{{ loop.index }}\n```",
        "",
        "!! b.ts:12 {# x #}: no {% if %}\n"])) := by
  have hformat : ∀ template?, (bracesOptions template?).format ≠ .json := fun _ h => nomatch h
  refine ⟨hformat, ?_, ?_⟩
  · rw [(render_builtIn bracesReport (Storage.empty []) (hformat none)).1 rfl]
    decide +kernel
  · rw [(render_builtIn bracesReport (Storage.empty []) (hformat (some "plain".toList))).2 rfl]
    decide +kernel

end Report
end DocExcerpt
