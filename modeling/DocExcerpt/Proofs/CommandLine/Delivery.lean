import DocExcerpt.CommandLine.Run
import DocExcerpt.Proofs.Storage.Writing
/-!
# What a scan delivers

A scan touches and prints nothing until its report is rendered (`Command.rendering`).  Then the text goes to the
output file, if there is one, and to the terminal, and only after that does the command fail for what the report
could not resolve (`Command.scan_delivers`).  The text is kept from the file by the storage alone, which refuses to make
the directory of the file or to write it (`Report.save_eq_error_iff`).
-/
namespace DocExcerpt

open Storage (AddsDirectories)

namespace Report

/-- **The storage that a file is written to**: its directory was made if it was missing. -/
inductive Prepares (s : Storage) (path : Path) : Storage → Prop where
  | asItIs : path.parent? = none → Prepares s path s
  | withDirectory {dir : Path} : path.parent? = some dir → (s.createDirectories dir).2 = none →
      Prepares s path (s.createDirectories dir).1

/-- **The storage refuses a file**, for its directory or for the file itself. -/
inductive Refuses (s : Storage) (path : Path) (t : Text) : RenderError → Prop where
  | directory {dir : Path} {cause : IoError} : path.parent? = some dir → (s.createDirectories dir).2 = some cause →
      Refuses s path t (.outputDirectory dir cause)
  | file {s₁ : Storage} {cause : IoError} : Prepares s path s₁ → s₁.write path (Utf8.encode t) = .error cause →
      Refuses s path t (.output path cause)

end Report

/-- **Nothing was done**: nothing is printed, and the file system is as it was. -/
structure Outcome.IsRefusal (o : Outcome) (s : Storage) (e : CommandError) : Prop where
  storage : o.storage = s
  printed : o.printed = []
  error : o.error? = some e

/-- **The output file could not be written**, as the storage refused it: nothing is printed, and no file is another one
than before. -/
structure Outcome.IsUnwritten (o : Outcome) (s : Storage) (path : Path) (t : Text) (e : RenderError) : Prop where
  refused : Report.Refuses s path t e
  storage : AddsDirectories s o.storage
  printed : o.printed = []
  error : o.error? = some (.render e)

/-- **The text of a report was delivered**: it is printed, it is what the output file holds, and every other file is
as before.  The command fails when the report has failures, and tells how many. -/
structure Outcome.Delivers (o : Outcome) (s : Storage) (output? : Option Path) (report : Report) (t : Text) :
    Prop where
  printed : o.printed = t
  output : ∀ path ∈ output?, o.storage.read path = .ok (Utf8.encode t)
  files : ∀ names bytes, (∀ path ∈ output?, o.storage.resolve path ≠ .ok names) →
    (o.storage.get? names = some (.file bytes) ↔ s.get? names = some (.file bytes))
  succeeds_iff : o.error? = none ↔ report.failures = []
  message : ∀ e ∈ o.error?,
    e.message = Text.decimal report.failures.length ++ " include(s) could not be resolved".toList

namespace Report

variable {s s' : Storage} {path : Path} {t : Text} {e : RenderError}

theorem Prepares.addsDirectories {s₁ : Storage} (h : Prepares s path s₁) : AddsDirectories s s₁ := by
  cases h with
  | asItIs => exact .refl s
  | withDirectory => exact Storage.addsDirectories_createDirectories s _

theorem save_of_write {s₁ : Storage} (h : Prepares s path s₁) (hwrite : s₁.write path (Utf8.encode t) = .ok s') :
    save s path t = (s', .ok ()) := by
  cases h with
  | asItIs hparent => simp only [save, hparent, hwrite]
  | withDirectory hparent hmade => simp only [save, hparent, hmade, Option.map_none, hwrite]

theorem save_of_write_error {s₁ : Storage} {cause : IoError} (h : Prepares s path s₁)
    (hwrite : s₁.write path (Utf8.encode t) = .error cause) : save s path t = (s₁, .error (.output path cause)) := by
  cases h with
  | asItIs hparent => simp only [save, hparent, hwrite]
  | withDirectory hparent hmade => simp only [save, hparent, hmade, Option.map_none, hwrite]

theorem save_of_createDirectories {dir : Path} {cause : IoError} (hparent : path.parent? = some dir)
    (hrefused : (s.createDirectories dir).2 = some cause) (t : Text) :
    save s path t = ((s.createDirectories dir).1, .error (.outputDirectory dir cause)) := by
  simp only [save, hparent, hrefused, Option.map_some]

theorem exists_prepares_or (s : Storage) (path : Path) :
    (∃ s₁, Prepares s path s₁) ∨
      ∃ dir cause, path.parent? = some dir ∧ (s.createDirectories dir).2 = some cause := by
  cases hparent : path.parent? with
  | none => exact Or.inl ⟨s, .asItIs hparent⟩
  | some dir =>
    cases hrefused : (s.createDirectories dir).2 with
    | none => exact Or.inl ⟨_, .withDirectory hparent hrefused⟩
    | some cause => exact Or.inr ⟨dir, cause, rfl, hrefused⟩

/-- **What saving comes to**: the file is written to a storage with its directory, or the storage refuses it. -/
theorem save_cases (s : Storage) (path : Path) (t : Text) :
    (∃ s₁ s', Prepares s path s₁ ∧ s₁.write path (Utf8.encode t) = .ok s' ∧ save s path t = (s', .ok ())) ∨
      ∃ s₁ e, AddsDirectories s s₁ ∧ Refuses s path t e ∧ save s path t = (s₁, .error e) := by
  rcases exists_prepares_or s path with ⟨s₁, h⟩ | ⟨dir, cause, hparent, hrefused⟩
  · cases hwrite : s₁.write path (Utf8.encode t) with
    | ok s' => exact Or.inl ⟨s₁, s', h, hwrite, save_of_write h hwrite⟩
    | error cause => exact Or.inr ⟨s₁, _, h.addsDirectories, .file h hwrite, save_of_write_error h hwrite⟩
  · exact Or.inr ⟨_, _, Storage.addsDirectories_createDirectories s dir, .directory hparent hrefused,
      save_of_createDirectories hparent hrefused t⟩

/-- **A text is saved** when the storage makes the directory of the file and writes the file. -/
theorem save_eq_ok_iff :
    save s path t = (s', .ok ()) ↔ ∃ s₁, Prepares s path s₁ ∧ s₁.write path (Utf8.encode t) = .ok s' := by
  constructor
  · intro h
    rcases save_cases s path t with ⟨s₁, s₂, hprepares, hwrite, hsave⟩ | ⟨s₁, e, -, -, hsave⟩
    · cases h.symm.trans hsave
      exact ⟨s₁, hprepares, hwrite⟩
    · cases h.symm.trans hsave
  · rintro ⟨s₁, hprepares, hwrite⟩
    exact save_of_write hprepares hwrite

/-- **A text is not saved** when the storage refuses the file. -/
theorem save_eq_error_iff : (save s path t).2 = .error e ↔ Refuses s path t e := by
  constructor
  · intro h
    rcases save_cases s path t with ⟨s₁, s₂, -, -, hsave⟩ | ⟨s₁, e', -, hrefuses, hsave⟩
    · rw [hsave] at h
      cases h
    · rw [hsave] at h
      cases h
      exact hrefuses
  · rintro (⟨hparent, hrefused⟩ | ⟨hprepares, hwrite⟩)
    · rw [save_of_createDirectories hparent hrefused]
    · rw [save_of_write_error hprepares hwrite]

theorem addsDirectories_of_save (h : save s path t = (s', .error e)) : AddsDirectories s s' := by
  rcases save_cases s path t with ⟨s₁, s₂, -, -, hsave⟩ | ⟨s₁, e', hadds, -, hsave⟩
  · cases h.symm.trans hsave
  · cases h.symm.trans hsave
    exact hadds

end Report

namespace Command

/-- The report of a scan and its text, by the stages that come before anything is touched: the configuration, the
format it names, the tree, and the rendering. -/
def rendering (s : Storage) (env : Environment) (root? : Option Path) (format? : Option ReportFormat)
    (template? : Option Text) (output? : Option Path) (lineNumbers : Bool) : Except CommandError (Report × Text) := do
  let root := root?.getD s.workingPath
  let config ← (Config.load s env root).mapError CommandError.config
  let options ← scanOptions config format? template? output? lineNumbers
  let report ← (Scan.run s config Scan.defaultMaxSize root).mapError CommandError.skip
  let t ← (report.render s options).mapError CommandError.render
  return (report, t)

variable (s : Storage) (env : Environment) (root? : Option Path) (format? : Option ReportFormat)
  (template? : Option Text) (output? : Option Path) (lineNumbers : Bool)

theorem rendering_eq :
    rendering s env root? format? template? output? lineNumbers =
      scanReport s env root? format? template? output? lineNumbers >>= fun (report, options) =>
        (report.render s options).mapError CommandError.render >>= fun t => .ok (report, t) := by
  simp only [rendering, scanReport, bind_assoc]
  rfl

variable {s env root? format? template? output? lineNumbers}

theorem output?_of_scanReport {report : Report} {options : ReportOptions}
    (h : scanReport s env root? format? template? output? lineNumbers = .ok (report, options)) :
    options.output? = output? := by
  obtain ⟨config, -, h⟩ := bind_eq_ok_iff.1 h
  obtain ⟨options', hoptions, h⟩ := bind_eq_ok_iff.1 h
  obtain ⟨report', -, h⟩ := bind_eq_ok_iff.1 h
  cases h
  obtain ⟨fromConfig, -, hoptions⟩ := bind_eq_ok_iff.1 hoptions
  cases hoptions
  rfl

/-- The error of a scan whose text was delivered. -/
def verdict (report : Report) : Option CommandError :=
  if report.isClean then none else some (.unresolved report.failures.length)

theorem verdict_eq_none_iff (report : Report) : verdict report = none ↔ report.failures = [] := by
  simp [verdict, Report.isClean]

theorem message_of_verdict {report : Report} :
    ∀ e ∈ verdict report,
      e.message = Text.decimal report.failures.length ++ " include(s) could not be resolved".toList := by
  intro e he
  unfold verdict at he
  split at he
  · cases he
  · cases he
    rfl

theorem delivers_of_save {s' : Storage} {path : Path} {t : Text} (h : Report.save s path t = (s', .ok ()))
    (report : Report) :
    Outcome.Delivers ⟨s', t, verdict report⟩ s (some path) report t := by
  obtain ⟨s₁, hprepares, hwrite⟩ := Report.save_eq_ok_iff.1 h
  have hwritten := Storage.written_of_write hwrite
  refine ⟨rfl, ?_, fun names bytes hnames => ?_, verdict_eq_none_iff report, message_of_verdict⟩
  · rintro _ ⟨⟩
    exact hwritten.read
  · rw [hwritten.get? names (hnames path rfl)]
    exact hprepares.addsDirectories.get?_eq_file_iff names bytes

/-- **A scan does nothing or delivers its report.**  When the configuration, its format, the tree or the rendering
fails, nothing is printed and nothing is touched; when only the output file cannot be written, nothing is printed.
Otherwise the text is delivered, and the command then fails exactly for the failures in the report. -/
theorem scan_delivers (s : Storage) (env : Environment) (root? : Option Path) (format? : Option ReportFormat)
    (template? : Option Text) (output? : Option Path) (lineNumbers : Bool) :
    let outcome := run s env (.scan root? format? template? output? lineNumbers)
    match rendering s env root? format? template? output? lineNumbers with
    | .error e => outcome.IsRefusal s e
    | .ok (report, t) =>
      match output?.map (fun path => (path, (Report.save s path t).2)) with
      | some (path, .error e) => outcome.IsUnwritten s path t e
      | _ => outcome.Delivers s output? report t := by
  rw [rendering_eq]
  cases hreport : scanReport s env root? format? template? output? lineNumbers with
  | error e =>
    simp only [run, hreport]
    exact ⟨rfl, rfl, rfl⟩
  | ok found =>
    obtain ⟨report, options⟩ := found
    have houtput := output?_of_scanReport hreport
    cases hrender : report.render s options with
    | error e =>
      simp only [run, hreport, Report.publish, hrender, bind, Except.bind, Except.mapError]
      exact ⟨rfl, rfl, rfl⟩
    | ok t =>
      simp only [run, hreport, Report.publish, hrender, houtput, bind, Except.bind, Except.mapError]
      cases output? with
      | none => exact ⟨rfl, by simp, fun _ _ _ => Iff.rfl, verdict_eq_none_iff report, message_of_verdict⟩
      | some path =>
        rcases hsave : Report.save s path t with ⟨s', result⟩
        cases result with
        | error e =>
          simp only [Option.map_some, hsave]
          have hrefused := Report.save_eq_error_iff.1 (congrArg Prod.snd hsave)
          exact ⟨hrefused, Report.addsDirectories_of_save hsave, rfl, rfl⟩
        | ok _ =>
          simp only [Option.map_some, hsave]
          exact delivers_of_save hsave report

/-- A source whose tag names no file. -/
def failingFiles : Storage where
  entries := [(["a.rs".toList], .file (Utf8.encode "/// @includeExample b.md".toList))]
  workingDirectory := []
  distinct := by decide

def failingReport : Report :=
  ⟨⟨['/']⟩, 1, [], [⟨"a.rs".toList, ⟨1, "b.md".toList⟩, "example file not found: b.md".toList⟩]⟩

def failingText : Text :=
  "Scanned 1 files under /\n\n!! a.rs:1 b.md: example file not found: b.md\n".toList

/-- The text is delivered to a file whose directory is made for it, and the failure is told after that. -/
theorem scan_delivers_toFile :
    (run failingFiles ⟨none, none, none⟩
        (.scan (some ⟨['/']⟩) (some .plain) none (some ⟨"out/report.txt".toList⟩) false)).Delivers failingFiles
      (some ⟨"out/report.txt".toList⟩) failingReport failingText := by
  have hrendering : (rendering failingFiles ⟨none, none, none⟩ (some ⟨['/']⟩) (some .plain) none
      (some ⟨"out/report.txt".toList⟩) false).toOption = some (failingReport, failingText) := by decide +kernel
  have hsave : (Report.save failingFiles ⟨"out/report.txt".toList⟩ failingText).2 = .ok () := by decide +kernel
  -- what is known of the files is in these two, so they need not be looked at again
  generalize failingFiles = s at hrendering hsave ⊢
  have h := scan_delivers s ⟨none, none, none⟩ (some ⟨['/']⟩) (some .plain) none (some ⟨"out/report.txt".toList⟩) false
  simp only [toOption_eq_some_iff.1 hrendering, Option.map_some, hsave] at h
  exact h

end Command
end DocExcerpt
