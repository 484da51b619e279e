import DocExcerpt.Proofs.DocComment.Requests
import DocExcerpt.Proofs.Fallible
import DocExcerpt.Proofs.Scan.Files
import DocExcerpt.Scan
import Mathlib.Data.List.Nodup
/-!
# What a report accounts for

A file that is scanned adds one failure when it cannot be read, and otherwise one include or one failure for each of
its tags (`Scan.accounts_routed`).  The findings of all files are told apart by their sources and follow the order
of files and lines, so a report accounts for every tag once and in order (`Scan.IsComplete`).
-/
namespace DocExcerpt
namespace Scan

def shown (file : List Text) : Text := Text.join ['/'] file

def load (s : Storage) (config : Config) (root : Path) (file : List Text) (r : Request) :
    Except ExampleError Example :=
  Example.load s root config.defaults.exampleSuffix (some (Sources.pathBelow root file)) r.value

/-- **Findings that settle some tags**: each tag once, among the includes with its example when that can be loaded,
among the failures with the reason when not. -/
structure Settles (source : Text) (load : Request → Except ExampleError Example) (requests : List Request)
    (found : Findings) : Prop where
  once : (found.includes.map (·.request) ++ found.failures.map (·.request)).Perm requests
  nodup : requests.Nodup
  included : ∀ r ∈ requests, ∀ e, ⟨source, r, e⟩ ∈ found.includes ↔ load r = .ok e
  failed : ∀ r ∈ requests, ∀ message,
    ⟨source, r, message⟩ ∈ found.failures ↔ ∃ e, load r = .error e ∧ e.message = message

/-- **Findings that account for a file**: one failure when it cannot be read as text, else its tags are settled. -/
def Accounts (s : Storage) (config : Config) (root : Path) (file : List Text) (found : Findings) : Prop :=
  match s.readText (Sources.pathBelow root file) with
  | .error e => found.includes = [] ∧ found.failures = [⟨shown file, ⟨0, []⟩, e.message⟩]
  | .ok content =>
    Settles (shown file) (load s config root file) (DocComment.requests config.defaults.tag content) found

def Succeeds (s : Storage) (config : Config) (root : Path) (file : List Text) : Prop :=
  ∃ content, s.readText (Sources.pathBelow root file) = .ok content ∧
    ∀ r ∈ DocComment.requests config.defaults.tag content, ∃ e, load s config root file r = .ok e

def about (report : Report) (source : Text) : Findings :=
  ⟨report.includes.filter (·.source = source), report.failures.filter (·.source = source)⟩

/-- **The order of a report**: by the components of the sources, and within a source by the lines. -/
def Precedes (source : Text) (r : Request) (source' : Text) (r' : Request) : Prop :=
  Path.Before (Path.components ⟨source⟩) (Path.components ⟨source'⟩) ∨ source = source' ∧ r.line < r'.line

/-- **A report that accounts for the files scanned.**  Each file is counted once; what the report holds for the path
of a file accounts for that file, and it holds nothing else; both lists are strictly in order; and it is clean when
every file is read and every tag names an example. -/
structure IsComplete (s : Storage) (config : Config) (root : Path) (files : List (List Text)) (report : Report) :
    Prop where
  nodup : files.Nodup
  filesScanned : report.filesScanned = files.length
  accounts : ∀ file ∈ files, Accounts s config root file (about report (shown file))
  source_include : ∀ i ∈ report.includes, ∃ file ∈ files, i.source = shown file
  source_failure : ∀ f ∈ report.failures, ∃ file ∈ files, f.source = shown file
  includes : report.includes.Pairwise (fun i j => Precedes i.source i.request j.source j.request)
  failures : report.failures.Pairwise (fun f g => Precedes f.source f.request g.source g.request)
  isClean_iff : report.isClean = true ↔ ∀ file ∈ files, Succeeds s config root file

variable {s : Storage} {config : Config} {maxSize : Nat} {root : Path} {file : List Text}

/-! ## The outcomes of a file -/

/-- What a file comes to, tag by tag: one failure when it cannot be read. -/
def outcomes (s : Storage) (config : Config) (root : Path) (file : List Text) : List (Failure ⊕ Include) :=
  match s.readText (Sources.pathBelow root file) with
  | .error e => [.inl ⟨shown file, ⟨0, []⟩, e.message⟩]
  | .ok content =>
    (DocComment.requests config.defaults.tag content).map
      (resolveRequest s config root (Sources.pathBelow root file) (shown file))

def routed (found : List (Failure ⊕ Include)) : Findings :=
  ⟨found.filterMap Sum.getRight?, found.filterMap Sum.getLeft?⟩

def sourceOf : Failure ⊕ Include → Text := Sum.elim Failure.source Include.source

def requestOf : Failure ⊕ Include → Request := Sum.elim Failure.request Include.request

theorem scanFile_eq (s : Storage) (config : Config) (root : Path) (file : List Text) :
    scanFile s config root file = routed (outcomes s config root file) := by
  cases hread : s.readText (Sources.pathBelow root file) <;> simp only [scanFile, outcomes, hread] <;> rfl

theorem resolveRequest_eq (s : Storage) (config : Config) (root : Path) (file : List Text) (r : Request) :
    resolveRequest s config root (Sources.pathBelow root file) (shown file) r =
      match load s config root file r with
      | .ok e => .inr ⟨shown file, r, e⟩
      | .error e => .inl ⟨shown file, r, e.message⟩ := rfl

theorem resolveRequest_eq_inr_iff {r : Request} {i : Include} :
    resolveRequest s config root (Sources.pathBelow root file) (shown file) r = .inr i ↔
      i.source = shown file ∧ i.request = r ∧ load s config root file r = .ok i.content := by
  rw [resolveRequest_eq]
  rcases i with ⟨source, request, content⟩
  cases load s config root file r <;> simp [eq_comm]

theorem resolveRequest_eq_inl_iff {r : Request} {f : Failure} :
    resolveRequest s config root (Sources.pathBelow root file) (shown file) r = .inl f ↔
      f.source = shown file ∧ f.request = r ∧ ∃ e, load s config root file r = .error e ∧ e.message = f.message := by
  rw [resolveRequest_eq]
  rcases f with ⟨source, request, message⟩
  cases load s config root file r <;> simp [eq_comm]

theorem sourceOf_resolveRequest (r : Request) :
    sourceOf (resolveRequest s config root (Sources.pathBelow root file) (shown file) r) = shown file := by
  rw [resolveRequest_eq]
  cases load s config root file r <;> rfl

theorem requestOf_resolveRequest (r : Request) :
    requestOf (resolveRequest s config root (Sources.pathBelow root file) (shown file) r) = r := by
  rw [resolveRequest_eq]
  cases load s config root file r <;> rfl

theorem sourceOf_of_mem_outcomes {o : Failure ⊕ Include} (h : o ∈ outcomes s config root file) :
    sourceOf o = shown file := by
  unfold outcomes at h
  split at h
  · rw [List.mem_singleton.1 h]
    rfl
  · obtain ⟨r, -, rfl⟩ := List.mem_map.1 h
    exact sourceOf_resolveRequest r

theorem pairwise_line_outcomes (s : Storage) (config : Config) (root : Path) (file : List Text) :
    (outcomes s config root file).Pairwise (fun o o' => (requestOf o).line < (requestOf o').line) := by
  unfold outcomes
  split
  · exact List.pairwise_singleton _ _
  · rw [List.pairwise_map]
    refine (DocComment.pairwise_line_requests _ _).imp (fun {r r'} hlt => ?_)
    rwa [requestOf_resolveRequest, requestOf_resolveRequest]

/-- The two lists hold the requests of all outcomes, each once. -/
theorem perm_routed (found : List (Failure ⊕ Include)) :
    ((routed found).includes.map (·.request) ++ (routed found).failures.map (·.request)).Perm
      (found.map requestOf) := by
  induction found with
  | nil => exact List.Perm.refl _
  | cons o found ih =>
    cases o with
    | inr i => exact ih.cons i.request
    | inl f => exact List.perm_middle.trans (ih.cons f.request)

theorem settles_routed {requests : List Request} (h : requests.Nodup) :
    Settles (shown file) (load s config root file) requests
      (routed (requests.map (resolveRequest s config root (Sources.pathBelow root file) (shown file)))) where
  once := by
    have hrequests : (requests.map (resolveRequest s config root (Sources.pathBelow root file) (shown file))).map
        requestOf = requests := by
      rw [List.map_map]
      exact (List.map_congr_left (fun r _ => requestOf_resolveRequest r)).trans (List.map_id requests)
    have hperm := perm_routed
      (requests.map (resolveRequest s config root (Sources.pathBelow root file) (shown file)))
    rwa [hrequests] at hperm
  nodup := h
  included r hr e := by
    simp only [routed, List.mem_filterMap, List.mem_map, Sum.getRight?_eq_some_iff]
    constructor
    · rintro ⟨_, ⟨r', -, rfl⟩, heq⟩
      obtain ⟨-, rfl, hload⟩ := resolveRequest_eq_inr_iff.1 heq
      exact hload
    · intro hload
      exact ⟨_, ⟨r, hr, rfl⟩, resolveRequest_eq_inr_iff.2 ⟨rfl, rfl, hload⟩⟩
  failed r hr message := by
    simp only [routed, List.mem_filterMap, List.mem_map, Sum.getLeft?_eq_some_iff]
    constructor
    · rintro ⟨_, ⟨r', -, rfl⟩, heq⟩
      obtain ⟨-, rfl, hload⟩ := resolveRequest_eq_inl_iff.1 heq
      exact hload
    · intro hload
      exact ⟨_, ⟨r, hr, rfl⟩, resolveRequest_eq_inl_iff.2 ⟨rfl, rfl, hload⟩⟩

/-- **What a file comes to accounts for it.** -/
theorem accounts_routed (s : Storage) (config : Config) (root : Path) (file : List Text) :
    Accounts s config root file (routed (outcomes s config root file)) := by
  unfold Accounts outcomes
  cases s.readText (Sources.pathBelow root file) with
  | error e => exact ⟨rfl, rfl⟩
  | ok content => exact settles_routed (DocComment.nodup_requests _ _)

theorem failures_eq_nil_iff :
    (routed (outcomes s config root file)).failures = [] ↔ Succeeds s config root file := by
  unfold Succeeds outcomes routed
  cases s.readText (Sources.pathBelow root file) with
  | error e => simp
  | ok content =>
    simp only [List.filterMap_eq_nil_iff, List.forall_mem_map, Except.ok.injEq, exists_eq_left', resolveRequest_eq]
    refine forall₂_congr (fun r _ => ?_)
    cases load s config root file r <;> simp

/-! ## The outcomes of all files -/

/-- **Files collected from a file system are shown differently.** -/
theorem nodup_map_shown {files : List (List Text)} (hname : ∀ file ∈ files, ∀ name ∈ file, Path.IsName name)
    (h : files.Nodup) : (files.map shown).Nodup := by
  refine List.Nodup.map_on (fun file hfile file' hfile' heq => ?_) h
  rw [← Path.components_join (hname file hfile), ← Path.components_join (hname file' hfile')]
  exact congrArg (fun text => Path.components ⟨text⟩) heq

theorem filter_flatMap_outcomes {files : List (List Text)} (hnodup : (files.map shown).Nodup) (hfile : file ∈ files) :
    (files.flatMap (outcomes s config root)).filter (sourceOf · = shown file) = outcomes s config root file := by
  induction files with
  | nil => exact absurd hfile List.not_mem_nil
  | cons first files ih =>
    rw [List.map_cons, List.nodup_cons] at hnodup
    rw [List.flatMap_cons, List.filter_append]
    by_cases heq : file = first
    · subst heq
      have hself : (outcomes s config root file).filter (sourceOf · = shown file) = outcomes s config root file :=
        List.filter_eq_self.2 (fun o ho => by simp [sourceOf_of_mem_outcomes ho])
      have hrest : (files.flatMap (outcomes s config root)).filter (sourceOf · = shown file) = [] := by
        refine List.filter_eq_nil_iff.2 (fun o ho => ?_)
        obtain ⟨file', hfile', ho⟩ := List.mem_flatMap.1 ho
        rw [sourceOf_of_mem_outcomes ho, decide_eq_true_eq]
        exact fun heq => hnodup.1 (heq ▸ List.mem_map_of_mem hfile')
      rw [hself, hrest, List.append_nil]
    · have hfile := (List.mem_cons.1 hfile).resolve_left heq
      have hfirst : (outcomes s config root first).filter (sourceOf · = shown file) = [] := by
        refine List.filter_eq_nil_iff.2 (fun o ho => ?_)
        rw [sourceOf_of_mem_outcomes ho, decide_eq_true_eq]
        exact fun heq => hnodup.1 (heq ▸ List.mem_map_of_mem hfile)
      rw [hfirst, List.nil_append, ih hnodup.2 hfile]

/-- **The outcomes of files in order are in order.** -/
theorem pairwise_flatMap_outcomes (s : Storage) (config : Config) (root : Path) {files : List (List Text)}
    (hname : ∀ file ∈ files, ∀ name ∈ file, Path.IsName name) (hfiles : files.Pairwise Path.Before) :
    (files.flatMap (outcomes s config root)).Pairwise
      (fun o o' => Precedes (sourceOf o) (requestOf o) (sourceOf o') (requestOf o')) := by
  rw [List.pairwise_flatMap]
  refine ⟨fun file _ => ?_, hfiles.imp_of_mem (fun {file file'} hfile hfile' hbefore o ho o' ho' => Or.inl ?_)⟩
  · refine (pairwise_line_outcomes s config root file).imp_of_mem (fun {o o'} ho ho' hlt => Or.inr ⟨?_, hlt⟩)
    rw [sourceOf_of_mem_outcomes ho, sourceOf_of_mem_outcomes ho']
  · rw [sourceOf_of_mem_outcomes ho, sourceOf_of_mem_outcomes ho', shown, shown,
      Path.components_join (hname file hfile), Path.components_join (hname file' hfile')]
    exact hbefore

def reportOf (root : Path) (filesScanned : Nat) (found : List (Failure ⊕ Include)) : Report :=
  ⟨root, filesScanned, (routed found).includes, (routed found).failures⟩

theorem run_eq_ok_iff {report : Report} :
    run s config maxSize root = .ok report ↔ ∃ files, Sources.collect s config maxSize root = .ok files ∧
      reportOf root files.length (files.flatMap (outcomes s config root)) = report := by
  rw [run, bind_eq_ok_iff]
  simp only [List.flatMap_map, scanFile_eq, reportOf, routed, List.filterMap_flatMap, pure, Except.pure,
    Except.ok.injEq]

theorem about_reportOf (filesScanned : Nat) (found : List (Failure ⊕ Include)) (source : Text) :
    about (reportOf root filesScanned found) source = routed (found.filter (sourceOf · = source)) := by
  have hincludes : ∀ o : Failure ⊕ Include,
      o.getRight?.filter (·.source = source) = if sourceOf o = source then o.getRight? else none := by
    rintro (f | i)
    · exact (ite_self none).symm
    · by_cases h : i.source = source <;> simp [sourceOf, Option.filter, h]
  have hfailures : ∀ o : Failure ⊕ Include,
      o.getLeft?.filter (·.source = source) = if sourceOf o = source then o.getLeft? else none := by
    rintro (f | i)
    · by_cases h : f.source = source <;> simp [sourceOf, Option.filter, h]
    · exact (ite_self none).symm
  simp only [about, reportOf, routed, List.filter_filterMap, List.filterMap_filter, hincludes, hfailures,
    decide_eq_true_eq]

theorem accounts_reportOf {files : List (List Text)} (hshown : (files.map shown).Nodup) (hfile : file ∈ files) :
    Accounts s config root file
      (about (reportOf root files.length (files.flatMap (outcomes s config root))) (shown file)) := by
  rw [about_reportOf, filter_flatMap_outcomes hshown hfile]
  exact accounts_routed s config root file

/-- The tags of a file that was read are settled by what the report holds for it. -/
theorem settles_of_run (hs : s.HasNames) {report : Report} {files : List (List Text)} {content : Text}
    (h : run s config maxSize root = .ok report) (hfiles : Sources.collect s config maxSize root = .ok files)
    (hfile : file ∈ files) (hread : s.readText (Sources.pathBelow root file) = .ok content) :
    Settles (shown file) (load s config root file) (DocComment.requests config.defaults.tag content)
      (about report (shown file)) := by
  obtain ⟨files', hfiles', rfl⟩ := run_eq_ok_iff.1 h
  obtain rfl := Except.ok.inj (hfiles.symm.trans hfiles')
  have hshown := nodup_map_shown (Sources.isName_of_collect hs hfiles) (Sources.nodup_of_collect hfiles)
  have haccounts : Accounts s config root file (about _ (shown file)) := accounts_reportOf hshown hfile
  rwa [Accounts, hread] at haccounts

/-- **The report of a scan accounts for the files it collects**, in any file system. -/
theorem report_accounts (hs : s.HasNames) {report : Report} (h : run s config maxSize root = .ok report) :
    ∃ files, Sources.collect s config maxSize root = .ok files ∧ IsComplete s config root files report := by
  obtain ⟨files, hfiles, rfl⟩ := run_eq_ok_iff.1 h
  have hname := Sources.isName_of_collect hs hfiles
  have hshown := nodup_map_shown hname (Sources.nodup_of_collect hfiles)
  have hsource : ∀ o ∈ files.flatMap (outcomes s config root), ∃ file ∈ files, sourceOf o = shown file := by
    intro o ho
    obtain ⟨file, hfile, ho⟩ := List.mem_flatMap.1 ho
    exact ⟨file, hfile, sourceOf_of_mem_outcomes ho⟩
  have horder := pairwise_flatMap_outcomes s config root hname (Sources.pairwise_before_of_collect hfiles)
  refine ⟨files, hfiles, Sources.nodup_of_collect hfiles, rfl, fun file hfile => accounts_reportOf hshown hfile,
    fun i hi => ?_, fun f hf => ?_, ?_, ?_, ?_⟩
  · obtain ⟨o, ho, hi⟩ := List.mem_filterMap.1 hi
    obtain rfl := Sum.getRight?_eq_some_iff.1 hi
    exact hsource _ ho
  · obtain ⟨o, ho, hf⟩ := List.mem_filterMap.1 hf
    obtain rfl := Sum.getLeft?_eq_some_iff.1 hf
    exact hsource _ ho
  · refine List.pairwise_filterMap.2 (horder.imp (fun {o o'} hprecedes i hi j hj => ?_))
    obtain rfl := Sum.getRight?_eq_some_iff.1 hi
    obtain rfl := Sum.getRight?_eq_some_iff.1 hj
    exact hprecedes
  · refine List.pairwise_filterMap.2 (horder.imp (fun {o o'} hprecedes f hf g hg => ?_))
    obtain rfl := Sum.getLeft?_eq_some_iff.1 hf
    obtain rfl := Sum.getLeft?_eq_some_iff.1 hg
    exact hprecedes
  · simp only [Report.isClean, reportOf, routed, List.isEmpty_iff, List.filterMap_flatMap, List.flatMap_eq_nil_iff]
    exact forall₂_congr (fun file _ => failures_eq_nil_iff)

/-- A source file with a tag that names an example and one that names none, and one that is no text. -/
def mixedFiles : Storage where
  entries := [(["b.rs".toList], .file [255]),
    (["a.rs".toList], .file "//! @includeExample c.md\n/// @includeExample d.md".toUTF8.toList),
    (["c.md".toList], .file "x".toUTF8.toList)]
  workingDirectory := []
  distinct := by decide

theorem hasNames_mixedFiles : mixedFiles.HasNames := ⟨by decide, by decide, by decide⟩

theorem report_accounts_mixedFiles :
    mixedFiles.HasNames ∧ ∃ report, run mixedFiles Config.builtIn defaultMaxSize ⟨".".toList⟩ = .ok report ∧
      ∃ files, Sources.collect mixedFiles Config.builtIn defaultMaxSize ⟨".".toList⟩ = .ok files ∧
        IsComplete mixedFiles Config.builtIn ⟨".".toList⟩ files report := by
  have h : ∃ report, run mixedFiles Config.builtIn defaultMaxSize ⟨".".toList⟩ = .ok report := ⟨_, rfl⟩
  obtain ⟨report, h⟩ := h
  exact ⟨hasNames_mixedFiles, report, h, report_accounts hasNames_mixedFiles h⟩

end Scan
end DocExcerpt
