import DocExcerpt.CommandLine.Run
import DocExcerpt.Proofs.DocComment.TagPattern
import DocExcerpt.Proofs.Example.Sources
import DocExcerpt.Proofs.Scan.DefaultExample
/-!
# Showing what a scan includes

A scan of the working directory includes for a tag with a value what `show` prints for this value and the path of its
source (`Command.show_agrees_with_scan`).  The scan writes every path from the root and `show` need not, so a place
that is too deep for the scan can still be shown (`Command.show_outreaches_scan`).
-/
namespace DocExcerpt
namespace Command

open Scan (shown)
open Sources (pathBelow)

variable {s : Storage} {env : Environment} {config : Config} {report : Report} {options : ReportOptions}
  {format? : Option ReportFormat} {template? : Option Text} {output? : Option Path} {lineNumbers : Bool}
  {files : List (List Text)} {file : List Text} {content : Text} {r : Request}

/-- What a scan of the working directory takes from the configuration. -/
theorem run_of_scanReport (hconfig : Config.load s env s.workingPath = .ok config)
    (h : scanReport s env none format? template? output? lineNumbers = .ok (report, options)) :
    Scan.run s config Scan.defaultMaxSize s.workingPath = .ok report ∧
      ∃ fromConfig, ReportOptions.ofConfig config = .ok fromConfig ∧
        options.lineNumbers = (fromConfig.lineNumbers || lineNumbers) := by
  obtain ⟨config', hconfig', h⟩ := bind_eq_ok_iff.1 h
  obtain rfl := Except.ok.inj (hconfig.symm.trans (mapError_eq_ok_iff.1 hconfig'))
  obtain ⟨options', hoptions, h⟩ := bind_eq_ok_iff.1 h
  obtain ⟨report', hrun, h⟩ := bind_eq_ok_iff.1 h
  cases h
  obtain ⟨fromConfig, hfromConfig, hoptions⟩ := bind_eq_ok_iff.1 hoptions
  cases hoptions
  exact ⟨mapError_eq_ok_iff.1 hrun, fromConfig, mapError_eq_ok_iff.1 hfromConfig, rfl⟩

/-- What `show` prints, once the example is found. -/
theorem run_show_of_load {e : Example} {fromConfig : ReportOptions} {value : Text} {source? : Option Path}
    (hconfig : Config.load s env s.workingPath = .ok config) (hoptions : ReportOptions.ofConfig config = .ok fromConfig)
    (h : Example.load s s.workingPath config.defaults.exampleSuffix source? value = .ok e) :
    run s env (.show value source? lineNumbers false) =
      ⟨s, e.contents { fromConfig with lineNumbers := fromConfig.lineNumbers || lineNumbers } ++ ['\n'], none⟩ := by
  simp only [run, printExample, hconfig, h, hoptions, Except.mapError, bind, Except.bind]
  rfl

theorem pathBelow_workingPath (hs : s.HasNames) (hnames : ∀ name ∈ file, Path.IsName name) (hne : file ≠ []) :
    pathBelow s.workingPath file = Path.ofParts ['/'] (s.workingDirectory ++ file) := by
  rw [Scan.pathBelow_of_ne_nil hne, ← Path.ofParts_append_join ['/'] s.workingDirectory hne]
  exact Path.join_ofParts (Or.inr rfl) hs.workingDirectory (Path.isAbsolute_ofParts hnames)

/-- **A scan finds what `show` finds**, unless the path of the example is too long when it is written from the root. -/
theorem load_eq_ok_iff {e : Example} (hs : s.HasNames) (hresolve : s.resolve s.workingPath = .ok s.workingDirectory)
    (hnames : ∀ name ∈ file, Path.IsName name) (hne : file ≠ []) (hvalue : Text.trim r.value ≠ []) :
    Scan.load s config s.workingPath file r = .ok e ↔
      ∃ e', Example.load s s.workingPath config.defaults.exampleSuffix (some ⟨shown file⟩) r.value = .ok e' ∧
        (Utf8.encode (s.workingPath.join e'.path).text).length < Storage.maxPath ∧
          e = ⟨s.workingPath.join e'.path, e'.excerpt⟩ := by
  obtain ⟨dirs, name, rfl⟩ := (List.eq_nil_or_concat' file).resolve_left hne
  have hdirs : ∀ dir ∈ dirs, Path.IsName dir := fun dir hdir => hnames dir (List.mem_append_left _ hdir)
  have hhere : s.workingPath = Path.ofParts ['/'] s.workingDirectory := rfl
  rw [Scan.load, pathBelow_workingPath hs hnames hne, ← List.append_assoc]
  refine (Example.load_join_iff hhere hs.workingDirectory hresolve hdirs (hnames name (by simp)) hvalue).trans ?_
  refine exists_congr (fun e' => and_congr_right (fun hload => and_congr_left' ?_))
  exact Storage.checkPath_join_iff (Storage.checkPath_of_resolve hresolve)
    (Storage.checkPath_of_isFile (Example.isFile_path_of_load hload))

/-- **A scan includes what `show` prints.**  For a tag with a value in a file that the scan read, the scan has an
include exactly when `show` finds an example whose path is not too long when it is written from the root; both take the
same lines of it, and `show` prints the contents that the report has. -/
theorem show_agrees_with_scan (hs : s.HasNames) (hworking : s.get? s.workingDirectory = some .directory)
    (hconfig : Config.load s env s.workingPath = .ok config)
    (h : scanReport s env none format? template? output? lineNumbers = .ok (report, options))
    (hfiles : Sources.collect s config Scan.defaultMaxSize s.workingPath = .ok files) (hfile : file ∈ files)
    (hread : s.readText (pathBelow s.workingPath file) = .ok content)
    (hr : r ∈ DocComment.requests config.defaults.tag content) (hvalue : r.value ≠ []) :
    let found := Example.load s s.workingPath config.defaults.exampleSuffix (some ⟨shown file⟩) r.value
    ((∃ i ∈ report.includes, i.source = shown file ∧ i.request = r) ↔
        ∃ e, found = .ok e ∧ (Utf8.encode (s.workingPath.join e.path).text).length < Storage.maxPath) ∧
      ∀ i ∈ report.includes, i.source = shown file → i.request = r →
        (∃ e, found = .ok e ∧ e.excerpt = i.content.excerpt ∧ e.language? = i.content.language?) ∧
          run s env (.show r.value (some ⟨shown file⟩) lineNumbers false) =
            ⟨s, i.content.contents options ++ ['\n'], none⟩ := by
  intro found
  obtain ⟨hrun, fromConfig, hfromConfig, hlineNumbers⟩ := run_of_scanReport hconfig h
  have hresolve : s.resolve s.workingPath = .ok s.workingDirectory := by
    obtain ⟨dir, hdir⟩ := Sources.exists_resolve_of_mem_collect hfiles hfile
    rw [hdir, Storage.eq_of_resolve_ofParts hs.workingDirectory hdir]
  have hhere : s.isDirectory s.workingPath = true := by
    simp only [Storage.isDirectory, Storage.lookup, hresolve, hworking, bind, Except.bind]
    rfl
  have hfound : ∀ e, Scan.load s config s.workingPath file r = .ok e ↔ ∃ e', found = .ok e' ∧
      (Utf8.encode (s.workingPath.join e'.path).text).length < Storage.maxPath ∧
        e = ⟨s.workingPath.join e'.path, e'.excerpt⟩ := fun e =>
    load_eq_ok_iff hs hresolve (Sources.isName_of_collect hs hfiles file hfile) (Scan.ne_nil_of_readText hhere hread)
      (by rwa [DocComment.trim_value_of_mem_requests hr])
  have hincluded : ∀ e, ⟨shown file, r, e⟩ ∈ report.includes ↔ Scan.load s config s.workingPath file r = .ok e := by
    intro e
    rw [← (Scan.settles_of_run hs hrun hfiles hfile hread).included r hr, Scan.about, List.mem_filter]
    simp
  refine ⟨⟨?_, ?_⟩, ?_⟩
  · rintro ⟨⟨source, request, e⟩, hi, rfl, rfl⟩
    obtain ⟨e', he', hlength, -⟩ := (hfound e).1 ((hincluded e).1 hi)
    exact ⟨e', he', hlength⟩
  · rintro ⟨e', he', hlength⟩
    exact ⟨_, (hincluded _).2 ((hfound _).2 ⟨e', he', hlength, rfl⟩), rfl, rfl⟩
  · rintro ⟨source, request, e⟩ hi rfl rfl
    obtain ⟨e', he', -, rfl⟩ := (hfound e).1 ((hincluded e).1 hi)
    have hne : s.workingPath.text ≠ [] := List.cons_ne_nil _ _
    refine ⟨⟨e', he', rfl, (Example.language?_join hne (Example.isFile_path_of_load he')).symm⟩, ?_⟩
    rw [run_show_of_load hconfig hfromConfig he', Example.contents, Example.contents, hlineNumbers]

/-- A source whose example lies beside it and not in the working directory. -/
def besideSource : Storage where
  entries := [(["w".toList, "d".toList, "a.rs".toList], .file (Utf8.encode "/// @includeExample b.md[2]".toList)),
    (["w".toList, "d".toList, "b.md".toList], .file (Utf8.encode "x\ny".toList)),
    (["w".toList], .directory), (["w".toList, "d".toList], .directory)]
  workingDirectory := ["w".toList]
  distinct := by decide

theorem show_agrees_with_scan_besideSource :
    besideSource.HasNames ∧ besideSource.get? besideSource.workingDirectory = some .directory ∧
      ∃ report options, scanReport besideSource ⟨none, none, none⟩ none none none none true = .ok (report, options) ∧
        ∃ i ∈ report.includes, i.source = "d/a.rs".toList ∧ i.request = ⟨1, "b.md[2]".toList⟩ ∧
          i.content.excerpt = ⟨[2], ['y']⟩ ∧
            run besideSource ⟨none, none, none⟩ (.show "b.md[2]".toList (some ⟨"d/a.rs".toList⟩) true false) =
              ⟨besideSource, i.content.contents options ++ ['\n'], none⟩ := by
  have hs : besideSource.HasNames := ⟨by decide, by decide, by decide⟩
  obtain ⟨⟨report, options⟩, h⟩ :
      ∃ found, scanReport besideSource ⟨none, none, none⟩ none none none none true = .ok found := ⟨_, rfl⟩
  have hfiles : Sources.collect besideSource Config.builtIn Scan.defaultMaxSize besideSource.workingPath =
      .ok [["d".toList, "a.rs".toList]] := by decide +kernel
  have hread : besideSource.readText (pathBelow besideSource.workingPath ["d".toList, "a.rs".toList]) =
      .ok "/// @includeExample b.md[2]".toList := by decide +kernel
  have hr : ⟨1, "b.md[2]".toList⟩ ∈
      DocComment.requests Config.builtIn.defaults.tag "/// @includeExample b.md[2]".toList := by decide +kernel
  have hfound : Example.load besideSource besideSource.workingPath Config.builtIn.defaults.exampleSuffix
      (some ⟨"d/a.rs".toList⟩) "b.md[2]".toList = .ok ⟨⟨"d/b.md".toList⟩, ⟨[2], ['y']⟩⟩ := by decide +kernel
  obtain ⟨hincluded, hshown⟩ :=
    show_agrees_with_scan hs rfl rfl h hfiles (List.mem_singleton_self _) hread hr (by decide)
  obtain ⟨i, hi, hsource, hrequest⟩ := hincluded.2 ⟨_, hfound, by decide +kernel⟩
  obtain ⟨⟨e, he, hexcerpt, -⟩, hrun⟩ := hshown i hi hsource hrequest
  obtain rfl := Except.ok.inj (hfound.symm.trans he)
  exact ⟨hs, rfl, report, options, h, i, hi, hsource, hrequest, hexcerpt.symm, hrun⟩

/-- The names of a working directory whose path takes 4089 bytes. -/
def deepNames : List Text :=
  List.replicate 16 (List.replicate 63 (Char.ofNat 0x1D11E)) ++ [List.replicate 10 (Char.ofNat 0x1D11E)]

def deepFiles : Storage where
  entries := (List.range' 1 17).map (fun n => (deepNames.take n, .directory)) ++
    [(deepNames ++ ["f.rs".toList], .file (Utf8.encode "/// @includeExample shown.md".toList)),
      (deepNames ++ ["shown.md".toList], .file (Utf8.encode ['x']))]
  workingDirectory := deepNames
  distinct := by decide +kernel

/-- **What is shown and not included**: from the root the path of this example takes 4098 bytes. -/
theorem show_outreaches_scan :
    (∃ report, Scan.run deepFiles Config.builtIn Scan.defaultMaxSize deepFiles.workingPath = .ok report ∧
      report.includes = [] ∧ report.failures.map (·.request) = [⟨1, "shown.md".toList⟩]) ∧
    Example.load deepFiles deepFiles.workingPath Config.builtIn.defaults.exampleSuffix (some ⟨"f.rs".toList⟩)
      "shown.md".toList = .ok ⟨⟨"shown.md".toList⟩, ⟨[1], ['x']⟩⟩ := by
  have hrun : (Scan.run deepFiles Config.builtIn Scan.defaultMaxSize deepFiles.workingPath).toOption.map
      (fun report => (report.includes, report.failures.map (·.request))) = some ([], [⟨1, "shown.md".toList⟩]) := by
    decide +kernel
  obtain ⟨report, hreport, heq⟩ := Option.map_eq_some_iff.1 hrun
  obtain ⟨hincludes, hfailures⟩ := Prod.mk.inj heq
  exact ⟨⟨report, toOption_eq_some_iff.1 hreport, hincludes, hfailures⟩, by decide +kernel⟩

end Command
end DocExcerpt
