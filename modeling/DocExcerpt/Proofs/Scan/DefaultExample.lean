import DocExcerpt.Proofs.Path.Parents
import DocExcerpt.Proofs.Scan.Accounting
import DocExcerpt.Proofs.Storage.Following
/-!
# Tags without a value

A tag without a value names the file beside its source that has the suffix in its name (`Scan.siblingPath`).  The path
of that file starts with the path of the root already, and is then looked for from the root and from the directory of
the source (`Scan.soughtPaths`): below a relative root these are other places than the path itself
(`Scan.run_tells_sibling`).
-/
namespace DocExcerpt
namespace Scan

open Sources (pathBelow)

/-- The name with the suffix between its stem and its extension. -/
def siblingName (suffix name : Text) : Text :=
  match Path.splitName name with
  | (stem, some extension) => stem ++ '.' :: suffix ++ '.' :: extension
  | (stem, none) => stem ++ '.' :: suffix

def directory (root : Path) (file : List Text) : Path := (pathBelow root file).parent?.getD ⟨[]⟩

/-- **The default example of a file**, in the directory of the file. -/
def siblingPath (suffix : Text) (root : Path) (file : List Text) : Path :=
  (directory root file).join ⟨siblingName suffix (file.getLast?.getD [])⟩

/-- The paths at which the default example is looked for, the preferred one first. -/
def soughtPaths (suffix : Text) (root : Path) (file : List Text) : List Path :=
  [root.join (siblingPath suffix root file), (directory root file).join (siblingPath suffix root file)]

def text? (s : Storage) (p : Path) : Option Text := (s.readText p).toOption

def firstText? (s : Storage) (paths : List Path) : Option Text := (paths.find? s.isFile).bind (text? s)

/-- **What a report tells for a tag**: a text, when it has an include of the tag, only with this text, and no failure;
nothing, when it has a failure and no include. -/
def Tells (report : Report) (source : Text) (r : Request) : Option Text → Prop
  | some t =>
    (∃ i ∈ report.includes, i.source = source ∧ i.request = r) ∧
      (∀ i ∈ report.includes, i.source = source → i.request = r → i.content.excerpt.text = t) ∧
        ∀ f ∈ report.failures, f.source = source → f.request ≠ r
  | none =>
    (∃ f ∈ report.failures, f.source = source ∧ f.request = r) ∧
      ∀ i ∈ report.includes, i.source = source → i.request ≠ r

variable {s : Storage} {config : Config} {maxSize : Nat} {root : Path} {file : List Text} {report : Report}
  {source : Text} {r : Request}

theorem Tells.unique {told told' : Option Text} (h : Tells report source r told) (h' : Tells report source r told') :
    told = told' := by
  cases told with
  | none =>
    cases told' with
    | none => rfl
    | some t =>
      obtain ⟨i, hi, hsource, hrequest⟩ := h'.1
      exact absurd hrequest (h.2 i hi hsource)
  | some t =>
    obtain ⟨i, hi, hsource, hrequest⟩ := h.1
    cases told' with
    | none => exact absurd hrequest (h'.2 i hi hsource)
    | some t' => rw [← h.2.1 i hi hsource hrequest, h'.2.1 i hi hsource hrequest]

theorem tells_of_settles {load : Request → Except ExampleError Example} {requests : List Request}
    (h : Settles source load requests (about report source)) (hr : r ∈ requests) :
    Tells report source r ((load r).toOption.map (·.excerpt.text)) := by
  have hinclude : ∀ i ∈ report.includes, i.source = source → i.request = r → load r = .ok i.content := by
    rintro ⟨source, request, content⟩ hi rfl rfl
    exact (h.included request hr content).1 (List.mem_filter.2 ⟨hi, by simp⟩)
  have hfailure : ∀ f ∈ report.failures, f.source = source → f.request = r → ∃ e, load r = .error e := by
    rintro ⟨source, request, message⟩ hf rfl rfl
    obtain ⟨e, he, -⟩ := (h.failed request hr message).1 (List.mem_filter.2 ⟨hf, by simp⟩)
    exact ⟨e, he⟩
  cases hload : load r with
  | ok e =>
    refine ⟨⟨⟨source, r, e⟩, (List.mem_filter.1 ((h.included r hr e).2 hload)).1, rfl, rfl⟩, ?_, ?_⟩
    · intro i hi hsource hrequest
      have heq := hinclude i hi hsource hrequest
      rw [hload] at heq
      exact congrArg (·.excerpt.text) (Except.ok.inj heq).symm
    · intro f hf hsource hrequest
      obtain ⟨e', he'⟩ := hfailure f hf hsource hrequest
      rw [hload] at he'
      cases he'
  | error e =>
    refine ⟨⟨⟨source, r, e.message⟩, (List.mem_filter.1 ((h.failed r hr e.message).2 ⟨e, hload, rfl⟩)).1, rfl, rfl⟩, ?_⟩
    intro i hi hsource hrequest
    have heq := hinclude i hi hsource hrequest
    rw [hload] at heq
    cases heq

/-! ## The path of the default example -/

theorem pathBelow_of_ne_nil (hfile : file ≠ []) : pathBelow root file = root.join ⟨Text.join ['/'] file⟩ := by
  cases file with
  | nil => exact absurd rfl hfile
  | cons name names => rfl

theorem exists_pathBelow_eq (hroot : root.text ≠ []) (hfile : file ≠ []) (hnames : ∀ name ∈ file, Path.IsName name) :
    ∃ front name, Path.IsName name ∧ file.getLast? = some name ∧ pathBelow root file = ⟨front ++ '/' :: name⟩ := by
  obtain ⟨front, htext, -⟩ := Path.exists_text_join hroot (Path.isAbsolute_join_names hnames)
  obtain ⟨name, hlast⟩ := Option.ne_none_iff_exists'.1 (mt List.getLast?_eq_none_iff.1 hfile)
  obtain ⟨dirs, rfl⟩ := List.getLast?_eq_some_iff.1 hlast
  obtain ⟨front', hfront'⟩ := Text.exists_cons_join_eq '/' dirs name
  refine ⟨front ++ front', name, hnames name (by simp), hlast, ?_⟩
  rw [pathBelow_of_ne_nil hfile, List.append_assoc, ← hfront']
  exact congrArg Path.mk htext

theorem isAbsolute_pathBelow (hroot : root.text ≠ []) (hnames : ∀ name ∈ file, Path.IsName name) :
    (pathBelow root file).isAbsolute = root.isAbsolute := by
  by_cases hfile : file = []
  · rw [hfile]
    rfl
  · rw [pathBelow_of_ne_nil hfile, Path.isAbsolute_join hroot, Path.isAbsolute_join_names hnames, Bool.or_false]

theorem parent?_pathBelow (hroot : root.text ≠ []) (hfile : file ≠ []) (hnames : ∀ name ∈ file, Path.IsName name) :
    (pathBelow root file).parent? = some (directory root file) := by
  obtain ⟨front, name, hname, -, hpath⟩ := exists_pathBelow_eq hroot hfile hnames
  obtain ⟨dir, hdir, -⟩ := Path.exists_parent?_append front hname
  rw [directory, hpath, hdir]
  rfl

theorem defaultPath_eq_withFileName {source : Path} {name : Text} (hname : source.fileName? = some name)
    (suffix : Text) : Example.defaultPath suffix source = source.withFileName (siblingName suffix name) := by
  rw [Example.defaultPath]
  simp only [Path.stem?, Path.extension?, hname, Option.map_some, Option.bind_some, Option.getD_some, siblingName]
  rcases Path.splitName name with ⟨stem, _ | extension⟩ <;> rfl

/-- **The default example has the path** that the scanner makes for it. -/
theorem defaultPath_eq (hroot : root.text ≠ []) (hfile : file ≠ []) (hnames : ∀ name ∈ file, Path.IsName name)
    (suffix : Text) : Example.defaultPath suffix (pathBelow root file) = siblingPath suffix root file := by
  obtain ⟨front, name, hname, hlast, hpath⟩ := exists_pathBelow_eq hroot hfile hnames
  have hfileName : (pathBelow root file).fileName? = some name := by rw [hpath, Path.fileName?_append front hname]
  rw [defaultPath_eq_withFileName hfileName, Path.withFileName, hfileName, parent?_pathBelow hroot hfile hnames,
    siblingPath, hlast, Option.getD_some]

theorem isAbsolute_siblingPath (hroot : root.isAbsolute = true) (hfile : file ≠ [])
    (hnames : ∀ name ∈ file, Path.IsName name) (suffix : Text) : (siblingPath suffix root file).isAbsolute = true := by
  have hne := Path.text_ne_nil_of_isAbsolute hroot
  obtain ⟨front, name, hname, -, hpath⟩ := exists_pathBelow_eq hne hfile hnames
  obtain ⟨dir, hdir, hdirabsolute⟩ := Path.exists_parent?_append front hname
  have hdirectory : (directory root file).isAbsolute = true := by
    rw [directory, hpath, hdir]
    exact hdirabsolute (by rw [← hpath, isAbsolute_pathBelow hne hnames, hroot])
  rw [siblingPath, Path.isAbsolute_join (Path.text_ne_nil_of_isAbsolute hdirectory), hdirectory, Bool.true_or]

/-! ## What is found for a tag without a value -/

theorem readText_of_text? {p : Path} {t : Text} (h : text? s p = some t) : s.readText p = .ok t := by
  rw [text?] at h
  cases hread : s.readText p with
  | error e => simp [hread, Except.toOption] at h
  | ok content => simpa [hread, Except.toOption] using h

theorem firstText?_cons_of_text? {p : Path} {paths : List Path} {t : Text} (h : text? s p = some t) :
    firstText? s (p :: paths) = some t := by
  rw [firstText?, List.find?_cons_of_pos (Storage.isFile_of_readText (readText_of_text? h))]
  exact h

theorem firstText?_pair (s : Storage) (p : Path) : firstText? s [p, p] = text? s p := by
  cases h : text? s p with
  | some t => exact firstText?_cons_of_text? h
  | none =>
    by_cases hfile : s.isFile p
    · rw [firstText?, List.find?_cons_of_pos hfile]
      exact h
    · simp [firstText?, hfile]

theorem load_of_value_eq_nil (hroot : root.text ≠ []) (hfile : file ≠ []) (hnames : ∀ name ∈ file, Path.IsName name)
    (hr : r.value = []) :
    (load s config root file r).toOption.map (·.excerpt.text) =
      firstText? s (soughtPaths config.defaults.exampleSuffix root file) := by
  have htag : ∀ path, Tag.parse [] (some path) = .ok ⟨path, none⟩ := fun _ => rfl
  have hcandidates : Example.candidates root (some (pathBelow root file))
      (siblingPath config.defaults.exampleSuffix root file) = soughtPaths config.defaults.exampleSuffix root file := by
    rw [Example.candidates, Option.bind_some, parent?_pathBelow hroot hfile hnames]
    rfl
  rw [load, Example.load, hr, Option.map_some, defaultPath_eq hroot hfile hnames, htag]
  simp only [Except.mapError, Example.locate, hcandidates, firstText?, bind, Except.bind]
  cases (soughtPaths config.defaults.exampleSuffix root file).find? s.isFile with
  | none => rfl
  | some path =>
    simp only [Option.bind_some, text?]
    cases s.readText path with
    | error e => rfl
    | ok content => rfl

/-- From the working directory a path leads where it leads by itself. -/
theorem text?_join_of_workingDirectory {p : Path} {t : Text} (hroot : s.resolve root = .ok s.workingDirectory)
    (hcheck : Storage.checkPath (root.join p) = .ok ()) (h : text? s p = some t) : text? s (root.join p) = some t := by
  cases hp : p.isAbsolute with
  | true => rwa [Path.join_of_isAbsolute hp]
  | false =>
    obtain ⟨bytes, hlookup⟩ := Storage.lookup_of_isFile (Storage.isFile_of_readText (readText_of_text? h))
    rw [← h]
    refine Storage.toOption_readText_of_resolve ?_
    rw [Storage.resolve_join hroot hp hcheck, Storage.resolve_eq_follow (Storage.checkPath_of_lookup hlookup),
      Storage.origin, if_neg (by simp [hp])]

/-- A directory is read by no path, so a file that was read below one has names. -/
theorem ne_nil_of_readText {content : Text} (hroot : s.isDirectory root = true)
    (hread : s.readText (pathBelow root file) = .ok content) : file ≠ [] := by
  rintro rfl
  obtain ⟨bytes, hlookup⟩ := Storage.lookup_of_isFile (Storage.isFile_of_readText hread)
  have heq := (Storage.lookup_of_isDirectory hroot).symm.trans hlookup
  cases heq

/-- **What a report tells for a tag without a value** is the text found where the path of the default example leads
from the root and from the directory of the source.  This is the text of the default example below a root written as
an absolute path, and below the working directory when there is such a text; the report tells it exactly when it is
what is found. -/
theorem run_tells_sibling {files : List (List Text)} {content : Text} (hs : s.HasNames)
    (hroot : s.isDirectory root = true) (h : run s config maxSize root = .ok report)
    (hfiles : Sources.collect s config maxSize root = .ok files) (hfile : file ∈ files)
    (hread : s.readText (pathBelow root file) = .ok content)
    (hr : r ∈ DocComment.requests config.defaults.tag content) (hvalue : r.value = []) :
    let sibling := siblingPath config.defaults.exampleSuffix root file
    (∀ told, Tells report (shown file) r told ↔
        told = firstText? s (soughtPaths config.defaults.exampleSuffix root file)) ∧
      (root.isAbsolute = true → Tells report (shown file) r (text? s sibling)) ∧
      (s.resolve root = .ok s.workingDirectory → Storage.checkPath (root.join sibling) = .ok () →
        (text? s sibling).isSome = true → Tells report (shown file) r (text? s sibling)) := by
  intro sibling
  have hne := ne_nil_of_readText hroot hread
  have hnames := Sources.isName_of_collect hs hfiles file hfile
  have hrootne := Storage.text_ne_nil_of_checkPath (Storage.checkPath_of_lookup (Storage.lookup_of_isDirectory hroot))
  have htells : Tells report (shown file) r
      (firstText? s (soughtPaths config.defaults.exampleSuffix root file)) := by
    obtain ⟨files', hfiles', rfl⟩ := run_eq_ok_iff.1 h
    obtain rfl := Except.ok.inj (hfiles.symm.trans hfiles')
    have hshown := nodup_map_shown (Sources.isName_of_collect hs hfiles) (Sources.nodup_of_collect hfiles)
    have haccounts : Accounts s config root file (about _ (shown file)) := accounts_reportOf hshown hfile
    rw [Accounts, hread] at haccounts
    rw [← load_of_value_eq_nil hrootne hne hnames hvalue]
    exact tells_of_settles haccounts hr
  refine ⟨fun told => ⟨fun htold => htold.unique htells, fun heq => heq ▸ htells⟩, fun habsolute => ?_, ?_⟩
  · have hsibling := isAbsolute_siblingPath habsolute hne hnames config.defaults.exampleSuffix
    rwa [soughtPaths, Path.join_of_isAbsolute hsibling, Path.join_of_isAbsolute hsibling, firstText?_pair] at htells
  · intro hworking hcheck hsome
    obtain ⟨t, ht⟩ := Option.isSome_iff_exists.1 hsome
    rw [soughtPaths, firstText?_cons_of_text? (text?_join_of_workingDirectory hworking hcheck ht)] at htells
    rwa [ht]

def taggedFile : Text := "/// @includeExample".toList

/-- A project below the working directory: a file with a tag without a value, and the example beside it. -/
def projectFiles : Storage where
  entries := [(["w".toList, "proj".toList, "a.ts".toList], .file (Utf8.encode taggedFile)),
    (["w".toList, "proj".toList, "a.example.ts".toList], .file (Utf8.encode ['x'])),
    (["w".toList], .directory), (["w".toList, "proj".toList], .directory)]
  workingDirectory := ["w".toList]
  distinct := by decide

/-- The example is not found when the project is scanned by its relative path, and is found by its absolute path and
from the working directory. -/
theorem run_tells_sibling_projectFiles :
    projectFiles.HasNames ∧
    (∃ report, run projectFiles Config.builtIn defaultMaxSize ⟨"proj".toList⟩ = .ok report ∧
      text? projectFiles (siblingPath "example".toList ⟨"proj".toList⟩ ["a.ts".toList]) = some ['x'] ∧
      Tells report "a.ts".toList ⟨1, []⟩ none) ∧
    (∃ report, run projectFiles Config.builtIn defaultMaxSize ⟨"/w/proj".toList⟩ = .ok report ∧
      Tells report "a.ts".toList ⟨1, []⟩ (some ['x'])) ∧
    ∃ report, run projectFiles Config.builtIn defaultMaxSize ⟨".".toList⟩ = .ok report ∧
      Tells report "proj/a.ts".toList ⟨1, []⟩ (some ['x']) := by
  have hs : projectFiles.HasNames := ⟨by decide, by decide, by decide⟩
  have hrequests : (⟨1, []⟩ : Request) ∈ DocComment.requests Config.builtIn.defaults.tag taggedFile := by
    decide +kernel
  refine ⟨hs, ?_, ?_, ?_⟩
  · obtain ⟨report, h⟩ : ∃ report, run projectFiles Config.builtIn defaultMaxSize ⟨"proj".toList⟩ = .ok report :=
      ⟨_, rfl⟩
    obtain ⟨files, hfiles, -⟩ := run_eq_ok_iff.1 h
    have hdir : projectFiles.resolve ⟨"proj".toList⟩ = .ok ["w".toList, "proj".toList] := rfl
    have hfile : ["a.ts".toList] ∈ files := (Sources.mem_collect_iff hfiles rfl (by decide) hdir rfl).2
      ⟨_, List.mem_cons_self, by decide +kernel, by decide +kernel⟩
    have htells := run_tells_sibling hs (by decide) h hfiles hfile (by decide +kernel) hrequests rfl
    exact ⟨report, h, by decide +kernel, (htells.1 none).2 (by decide +kernel)⟩
  · obtain ⟨report, h⟩ : ∃ report, run projectFiles Config.builtIn defaultMaxSize ⟨"/w/proj".toList⟩ = .ok report :=
      ⟨_, rfl⟩
    obtain ⟨files, hfiles, -⟩ := run_eq_ok_iff.1 h
    have hdir : projectFiles.resolve ⟨"/w/proj".toList⟩ = .ok ["w".toList, "proj".toList] := rfl
    have hfile : ["a.ts".toList] ∈ files := (Sources.mem_collect_iff hfiles rfl (by decide) hdir rfl).2
      ⟨_, List.mem_cons_self, by decide +kernel, by decide +kernel⟩
    have hsibling : text? projectFiles (siblingPath "example".toList ⟨"/w/proj".toList⟩ ["a.ts".toList]) =
        some ['x'] := by decide +kernel
    have htells := run_tells_sibling hs (by decide) h hfiles hfile (by decide +kernel) hrequests rfl
    exact ⟨report, h, hsibling ▸ htells.2.1 rfl⟩
  · obtain ⟨report, h⟩ : ∃ report, run projectFiles Config.builtIn defaultMaxSize ⟨".".toList⟩ = .ok report :=
      ⟨_, rfl⟩
    obtain ⟨files, hfiles, -⟩ := run_eq_ok_iff.1 h
    have hdir : projectFiles.resolve ⟨".".toList⟩ = .ok ["w".toList] := rfl
    have hfile : ["proj".toList, "a.ts".toList] ∈ files :=
      (Sources.mem_collect_iff hfiles rfl (by decide) hdir rfl).2
        ⟨_, List.mem_cons_self, by decide +kernel, by decide +kernel⟩
    have hsibling : text? projectFiles
        (siblingPath "example".toList ⟨".".toList⟩ ["proj".toList, "a.ts".toList]) = some ['x'] := by decide +kernel
    have htells := run_tells_sibling hs (by decide) h hfiles hfile (by decide +kernel) hrequests rfl
    exact ⟨report, h, hsibling ▸ htells.2.2 hdir (by decide +kernel) (Option.isSome_iff_exists.2 ⟨_, hsibling⟩)⟩

end Scan
end DocExcerpt
