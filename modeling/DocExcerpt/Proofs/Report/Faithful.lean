import DocExcerpt.Proofs.Json.Printing
import DocExcerpt.Report.Render
import Mathlib.Data.List.Basic
/-!
# What a JSON report says

The facts of a report (`Report.facts`) are all that its JSON form says, each as a member of its own, and the text of
that form is JSON and writes just them (`Report.render_writes_facts`), so reports that differ in a fact are rendered
differently.  One of these facts is a block for a documentation comment (`Example.pieces_block`).
-/
namespace DocExcerpt

structure IncludeFacts where
  source : Text
  line : Nat
  tag : Text
  file : Text
  /-- The extension of the file, whether or not a code fence shows it. -/
  language? : Option Text
  numbers : List Nat
  contents : Text
  block : Text
  deriving DecidableEq

structure FailureFacts where
  source : Text
  line : Nat
  tag : Text
  message : Text
  deriving DecidableEq

structure ReportFacts where
  root : Text
  filesScanned : Nat
  heading : Text
  includes : List IncludeFacts
  failures : List FailureFacts
  deriving DecidableEq

def Include.facts (i : Include) (options : ReportOptions) : IncludeFacts where
  source := i.source
  line := i.request.line
  tag := i.request.value
  file := i.content.path.text
  language? := i.content.path.extension?
  numbers := i.content.excerpt.numbers
  contents := if options.lineNumbers then i.content.excerpt.gutter else i.content.excerpt.text
  block := i.content.block options

def Failure.facts (f : Failure) : FailureFacts := ⟨f.source, f.request.line, f.request.value, f.message⟩

def Report.facts (r : Report) (options : ReportOptions) : ReportFacts where
  root := r.root.text
  filesScanned := r.filesScanned
  heading := options.heading
  includes := r.includes.map (·.facts options)
  failures := r.failures.map Failure.facts

def IncludeFacts.json (f : IncludeFacts) : Json :=
  .object [("source".toList, .string f.source), ("line".toList, .number f.line), ("tag".toList, .string f.tag),
    ("example".toList, .string f.file),
    ("language".toList, match f.language? with
      | none => .null
      | some language => .string language),
    ("lines".toList, .array (f.numbers.map Json.number)), ("contents".toList, .string f.contents),
    ("block".toList, .string f.block)]

def FailureFacts.json (f : FailureFacts) : Json :=
  .object [("source".toList, .string f.source), ("line".toList, .number f.line), ("tag".toList, .string f.tag),
    ("message".toList, .string f.message)]

def ReportFacts.json (f : ReportFacts) : Json :=
  .object [("root".toList, .string f.root), ("files_scanned".toList, .number f.filesScanned),
    ("heading".toList, .string f.heading), ("includes".toList, .array (f.includes.map IncludeFacts.json)),
    ("failures".toList, .array (f.failures.map FailureFacts.json))]

/-! ## Blocks -/

theorem pieces_fenced {fence : Text} (h : '\n' ∉ fence) (mark heading language text : Text) :
    Text.pieces '\n'
        ('\n' :: '\n' :: mark ++ heading ++ '\n' :: fence ++ language ++ ['\n'] ++ text ++ '\n' :: fence) =
      [[], []] ++ Text.pieces '\n' (mark ++ heading) ++ Text.pieces '\n' (fence ++ language) ++ Text.pieces '\n' text
        ++ [fence] := by
  have hblock : '\n' :: '\n' :: mark ++ heading ++ '\n' :: fence ++ language ++ ['\n'] ++ text ++ '\n' :: fence =
      '\n' :: '\n' :: (mark ++ heading ++ '\n' :: (fence ++ language ++ '\n' :: (text ++ '\n' :: fence))) := by simp
  rw [hblock, Text.pieces_cons_self, Text.pieces_cons_self, Text.pieces_append, Text.pieces_append, Text.pieces_append,
    Text.pieces_of_not_mem h]
  simp

theorem pieces_exampleBlock (heading : Text) (language? : Option Text) (text : Text) :
    Text.pieces '\n' (exampleBlock heading language? text) =
      [[], []] ++ Text.pieces '\n' ("### ".toList ++ heading) ++ Text.pieces '\n' ("```".toList ++ language?.getD [])
        ++ Text.pieces '\n' text ++ ["```".toList] :=
  pieces_fenced (by decide) "### ".toList heading (language?.getD []) text

/-- **The lines of a block**: two empty ones, the heading, the start of a code fence with the extension of the file if
the language is to be shown, the text of the example, numbered if wanted, and the end of the fence. -/
theorem Example.pieces_block (e : Example) (options : ReportOptions) :
    Text.pieces '\n' (e.block options) =
      [[], []] ++ Text.pieces '\n' ("### ".toList ++ options.heading)
        ++ Text.pieces '\n' ("```".toList ++ if options.fenceLanguage then e.path.extension?.getD [] else [])
        ++ Text.pieces '\n' (if options.lineNumbers then e.excerpt.gutter else e.excerpt.text)
        ++ ["```".toList] := by
  rw [Example.block, pieces_exampleBlock, Example.contents]
  cases options.fenceLanguage <;> rfl

/-! ## Facts are told apart -/

theorem IncludeFacts.json_injective {f g : IncludeFacts} (h : f.json = g.json) : f = g := by
  rcases f with ⟨source, line, tag, file, language?, numbers, contents, block⟩
  rcases g with ⟨source', line', tag', file', language?', numbers', contents', block'⟩
  simp only [json, Json.object.injEq, List.cons.injEq, Prod.mk.injEq, Json.string.injEq, Json.number.injEq,
    Json.array.injEq, true_and, and_true] at h
  obtain ⟨rfl, rfl, rfl, rfl, hlanguage, hnumbers, rfl, rfl⟩ := h
  obtain rfl := List.map_injective_iff.2 (fun _ _ => Json.number.inj) hnumbers
  cases language? <;> cases language?' <;> simp at hlanguage ⊢
  exact hlanguage

theorem FailureFacts.json_injective {f g : FailureFacts} (h : f.json = g.json) : f = g := by
  rcases f with ⟨source, line, tag, message⟩
  rcases g with ⟨source', line', tag', message'⟩
  simpa [json] using h

theorem ReportFacts.json_injective {f g : ReportFacts} (h : f.json = g.json) : f = g := by
  rcases f with ⟨root, filesScanned, heading, includes, failures⟩
  rcases g with ⟨root', filesScanned', heading', includes', failures'⟩
  simp only [json, Json.object.injEq, List.cons.injEq, Prod.mk.injEq, Json.string.injEq, Json.number.injEq,
    Json.array.injEq, true_and, and_true] at h
  obtain ⟨rfl, rfl, rfl, hincludes, hfailures⟩ := h
  obtain rfl := List.map_injective_iff.2 (fun _ _ => IncludeFacts.json_injective) hincludes
  obtain rfl := List.map_injective_iff.2 (fun _ _ => FailureFacts.json_injective) hfailures
  rfl

/-! ## The text of a report -/

theorem Include.document_eq (i : Include) (options : ReportOptions) : i.document options = (i.facts options).json := by
  simp only [Include.document, IncludeFacts.json, Include.facts, Json.member, Example.language?, Example.contents]
  cases i.content.path.extension? <;> rfl

theorem Report.document_eq (r : Report) (options : ReportOptions) :
    Json.object (r.document options) = (r.facts options).json := by
  have hincludes : r.includes.map (·.document options) = (r.includes.map (·.facts options)).map IncludeFacts.json := by
    rw [List.map_map]
    exact List.map_congr_left (fun i _ => i.document_eq options)
  have hfailures : r.failures.map Failure.document = (r.failures.map Failure.facts).map FailureFacts.json := by
    rw [List.map_map]
    rfl
  rw [Report.document, hincludes, hfailures]
  rfl

theorem Report.render_eq_ok_print (r : Report) (s : Storage) {options : ReportOptions}
    (h : options.format = .json) : r.render s options = .ok (Json.print (r.facts options).json) := by
  rw [← document_eq, Report.render, h]
  rfl

/-- **A JSON report is faithful.**  It is rendered whatever template is named; its text is JSON and writes the facts
of the report and nothing else; and a report with other facts has another text. -/
theorem Report.render_writes_facts (r : Report) (s : Storage) {options : ReportOptions}
    (h : options.format = .json) :
    ∃ t, r.render s options = .ok t ∧ (∀ v, Json.IsText t v ↔ v = (r.facts options).json) ∧
      ∀ (r' : Report) (s' : Storage) (options' : ReportOptions), options'.format = .json →
        r'.render s' options' = .ok t → r'.facts options' = r.facts options := by
  refine ⟨_, r.render_eq_ok_print s h, fun v => Json.isText_print_iff, fun r' s' options' h' hrender => ?_⟩
  rw [r'.render_eq_ok_print s' h'] at hrender
  exact ReportFacts.json_injective (Json.print_injective (Except.ok.inj hrender))

/-- A report with characters that a string has to escape, and a file without an extension. -/
def escapingReport : Report where
  root := ⟨"C:\\\"src\"".toList⟩
  filesScanned := 0xFFFFFFFFFFFFFFFF
  includes := [⟨"a\tb.rs".toList, ⟨3, "Makefile[1]".toList⟩,
    ⟨⟨"Makefile".toList⟩, ⟨[1], [Char.ofNat 0, Char.ofNat 0x1F, Char.ofNat 0x7F, Char.ofNat 0x1F600]⟩⟩⟩]
  failures := [⟨"c.rs".toList, ⟨0, []⟩, "one\r\ntwo".toList⟩]

def jsonOptions : ReportOptions where
  format := .json
  template? := some "nowhere".toList
  heading := "\"".toList
  fenceLanguage := true
  lineNumbers := true
  output? := none

theorem Report.render_escapingReport :
    jsonOptions.format = .json ∧ ∃ t, escapingReport.render (Storage.empty []) jsonOptions = .ok t ∧
      (∀ v, Json.IsText t v ↔ v = (escapingReport.facts jsonOptions).json) ∧
      ∀ (r' : Report) (s' : Storage) (options' : ReportOptions), options'.format = .json →
        r'.render s' options' = .ok t → r'.facts options' = escapingReport.facts jsonOptions :=
  ⟨rfl, Report.render_writes_facts escapingReport (Storage.empty []) rfl⟩

end DocExcerpt
