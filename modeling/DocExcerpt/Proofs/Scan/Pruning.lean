import DocExcerpt.Proofs.Ignore.Global
import DocExcerpt.Proofs.Ignore.Level
import DocExcerpt.Proofs.Ignore.Skipped
import DocExcerpt.Proofs.Scan.DefaultExample
import DocExcerpt.Proofs.Scan.Files
import DocExcerpt.Proofs.Storage.Working
import DocExcerpt.Proofs.Text.Utf8
/-!
# The files that a walk keeps

A walk passes over single files and whole directories.  In a tree without rules of its own (`Sources.IsPlainTree`) it
collects just the files that qualify by themselves (`Sources.Qualifies`): they are sources, no glob matches them or a
directory on the way to them, and no literal path to skip runs through their names (`Sources.collect_qualifies`).  This
fails for a root that stands for standard input, in a repository where rules for every repository hold, and where a path
from the root is too long to be opened (`Sources.not_collectsQualified`).
-/
namespace DocExcerpt
namespace Sources

/-- **A tree without rules of its own**: neither in it nor above it is a file with ignore rules, and of its files only
those that list paths to skip are hidden. -/
structure IsPlainTree (s : Storage) (dir : List Text) : Prop where
  /-- The root of the storage has no entry of its own. -/
  named : ∀ e ∈ s.entries, e.1 ≠ []
  noRules : ∀ d, d <+: dir ∨ dir <+: d → IgnoreLevel.HasNoRules s d
  shown : ∀ file bytes, s.get? (dir ++ file) = some (.file bytes) → ∀ name ∈ file, Text.startsWith ['.'] name = true →
    name = Skip.ignoreFileName ∧ name ∉ file.dropLast

/-- **No rules for every repository hold in a tree**: there are none, or no directory in it or above it is a
repository. -/
def IsFreeOfGlobalRules (s : Storage) (dir : List Text) : Prop :=
  GlobalRules.IsAbsent s ∨ ∀ d, d <+: dir ∨ dir <+: d → IgnoreLevel.IsNoRepository s d

/-- **A root below which the settings alone decide**: it leads to the directory `dir` of a plain tree, and what is to be
skipped there is set by valid globs and literal paths, of which `listed` are those in the ignore file of the root. -/
structure IsPlainRoot (s : Storage) (config : Config) (root : Path) (dir listed : List Text) : Prop where
  hasNames : s.HasNames
  resolves : s.resolve root = .ok dir
  isDirectory : s.get? dir = some .directory
  tree : IsPlainTree s dir
  lists : Skip.Lists s dir listed
  literals : ∀ raw ∈ config.ignore.paths ++ listed, ∃ names, Skip.IsLiteral raw names
  globs : ∀ t ∈ config.ignore.globs, ∃ glob, Glob.parse true t = .ok glob

/-- **A file to collect**, told by its names from the root and its bytes alone. -/
structure Qualifies (config : Config) (maxSize : Nat) (listed file : List Text) (bytes : List UInt8) : Prop where
  extension : ∃ stem extension wanted, file.getLast? = some (stem ++ '.' :: extension) ∧ stem ≠ [] ∧
    '.' ∉ extension ∧ wanted ∈ config.scan.extensions ∧ Text.asciiLower extension = Text.asciiLower wanted
  size : bytes.length ≤ maxSize
  isText : 0 ∉ bytes.take 1024
  globs : ∀ t ∈ config.ignore.globs, ∀ glob, Glob.parse true t = .ok glob → ∀ way, way ≠ [] → way <+: file →
    glob.matches (Text.join ['/'] way) = false
  literals : ∀ raw ∈ config.ignore.paths ++ listed, ∀ names, Skip.IsLiteral raw names → ¬names <:+: file

/-- **The files that qualify are collected**, each once and in order, and no others. -/
def CollectsQualified (s : Storage) (config : Config) (maxSize : Nat) (root : Path) (dir listed : List Text) : Prop :=
  ∃ files, collect s config maxSize root = .ok files ∧ files.Pairwise Path.Before ∧
    ∀ file, file ∈ files ↔
      ∃ bytes, s.get? (dir ++ file) = some (.file bytes) ∧ Qualifies config maxSize listed file bytes

variable {s : Storage} {config : Config} {maxSize : Nat} {root : Path} {dir listed file way : List Text}
  {bytes : List UInt8} {f : Filter} {skipped : List Glob}

/-! ## Opening what is on the way -/

theorem opens_iff {p : Path} : opens p = true ↔ Storage.checkPath p = .ok () := by
  rw [opens]
  cases Storage.checkPath p <;> simp [Except.toBool]

theorem mem_waysDown_iff : way ∈ waysDown file ↔ way ≠ [] ∧ way <+: file := by
  simp only [waysDown, List.mem_map, List.mem_range'_1]
  constructor
  · rintro ⟨n, ⟨hpos, hlt⟩, rfl⟩
    refine ⟨fun hnil => ?_, List.take_prefix n file⟩
    have hlength := congrArg List.length hnil
    rw [List.length_take, List.length_nil] at hlength
    omega
  · rintro ⟨hne, hway⟩
    have hpos := List.length_pos_iff.2 hne
    have hle := hway.length_le
    exact ⟨way.length, by omega, (List.prefix_iff_eq_take.1 hway).symm⟩

theorem isPrefix_text_pathBelow (root : Path) (hnames : ∀ name ∈ file, Path.IsName name) (hway : way <+: file)
    (hne : way ≠ []) : (pathBelow root way).text <+: (pathBelow root file).text := by
  obtain ⟨rest, rfl⟩ := hway
  have hjoin : Text.join ['/'] way <+: Text.join ['/'] (way ++ rest) := by
    by_cases hrest : rest = []
    · exact ⟨[], by rw [hrest, List.append_nil, List.append_nil]⟩
    · exact ⟨_, (Text.join_append '/' hne hrest).symm⟩
  rw [Scan.pathBelow_of_ne_nil hne, Scan.pathBelow_of_ne_nil (List.append_ne_nil_of_left_ne_nil hne rest)]
  have hwaynames : ∀ name ∈ way, Path.IsName name := fun name hname => hnames name (List.mem_append_left rest hname)
  exact Path.isPrefix_text_join (Path.isAbsolute_join_names hwaynames) (Path.isAbsolute_join_names hnames) hjoin

/-- The directories on the way to a file have shorter paths. -/
theorem opens_of_prefix (hnames : ∀ name ∈ file, Path.IsName name) (hway : way <+: file) (hne : way ≠ [])
    (h : opens (pathBelow root file) = true) : opens (pathBelow root way) = true := by
  rw [opens_iff, Storage.checkPath_eq_ok_iff] at h ⊢
  obtain ⟨hnul, -, hlength⟩ := h
  have hstart := isPrefix_text_pathBelow root hnames hway hne
  refine ⟨fun hmem => hnul (hstart.subset hmem), ?_, ?_⟩
  · rw [Scan.pathBelow_of_ne_nil hne]
    exact Path.text_join_ne_nil (Text.join_ne_nil '/' hne (fun name hname => (hnames name (hway.subset hname)).1))
  · obtain ⟨rest, hrest⟩ := hstart
    rw [← hrest, Utf8.encode_append, List.length_append] at hlength
    omega

/-! ## Visiting what is shown -/

theorem visits_iff {isDirectory : Bool} (hrules : f.decide? root dir way isDirectory = none)
    (hshown : Text.startsWith ['.'] (way.getLast?.getD []) = false) :
    f.visits root dir way isDirectory = true ↔ Skip.covers f.skipped (Text.join ['/'] way) = false := by
  simp [Filter.visits, hrules, hshown]

theorem IsPlainTree.decide?_eq_none (h : IsPlainTree s dir) (hglobal : IsFreeOfGlobalRules s dir) (way : List Text)
    {showHidden : Bool} (isDirectory : Bool) :
    Filter.decide? ⟨IgnoreLevel.all s, .ofStorage s, skipped, showHidden⟩ root dir way isDirectory = none := by
  have hinside : ∀ d, d <+: dir ++ way → d <+: dir ∨ dir <+: d :=
    fun d hd => List.prefix_or_prefix_of_prefix hd (List.prefix_append dir way)
  rw [Filter.decide?, IgnoreLevel.decide?_eq_none (fun d hd => h.noRules d (hinside d hd))]
  rcases hglobal with habsent | hnone
  · simp [GlobalRules.decide?_eq_none habsent]
  · simp [IgnoreLevel.inRepository_eq_false (fun d hd => hnone d (hinside d hd))]

/-- **A walk comes to a file that is not hidden** unless it passes over the file or a directory on the way to it. -/
theorem IsPlainTree.reaches_iff (h : IsPlainTree s dir) (hglobal : IsFreeOfGlobalRules s dir)
    (hnames : ∀ name ∈ file, Path.IsName name) (hopens : opens (pathBelow root file) = true)
    (hshown : ∀ name ∈ file, Text.startsWith ['.'] name = false) {showHidden : Bool} :
    Filter.reaches ⟨IgnoreLevel.all s, .ofStorage s, skipped, showHidden⟩ root dir file = true ↔
      ∀ way, way ≠ [] → way <+: file → Skip.covers skipped (Text.join ['/'] way) = false := by
  simp only [Filter.reaches, List.all_eq_true, mem_waysDown_iff, and_imp]
  refine forall_congr' (fun way => forall_congr' (fun hne => forall_congr' (fun hway => ?_)))
  obtain ⟨dirs, name, rfl⟩ := (List.eq_nil_or_concat' way).resolve_left hne
  have hlast : Text.startsWith ['.'] ((dirs ++ [name]).getLast?.getD []) = false := by
    rw [List.getLast?_concat]
    exact hshown name (hway.subset (by simp))
  rw [Bool.and_eq_true, visits_iff (h.decide?_eq_none hglobal _ _) hlast, opens_of_prefix hnames hway hne hopens,
    Bool.or_true]
  exact and_iff_left rfl

/-! ## Sources -/

/-- A file has the extension of its last name. -/
theorem hasExtension_pathBelow_iff {extensions : List Text} (hroot : root.text ≠ []) (hfile : file ≠ [])
    (hnames : ∀ name ∈ file, Path.IsName name) :
    hasExtension extensions (pathBelow root file) = true ↔
      ∃ stem extension wanted, file.getLast? = some (stem ++ '.' :: extension) ∧ stem ≠ [] ∧ '.' ∉ extension ∧
        wanted ∈ extensions ∧ Text.asciiLower extension = Text.asciiLower wanted := by
  obtain ⟨front, name, hname, hlast, hpath⟩ := Scan.exists_pathBelow_eq hroot hfile hnames
  have hextension : (pathBelow root file).extension? = (Path.splitName name).2 := by
    rw [Path.extension?, hpath, Path.fileName?_append front hname, Option.bind_some]
  rw [hasExtension, hextension, hlast]
  constructor
  · intro h
    split at h
    · next extension hsplit =>
      obtain ⟨stem, ⟨rfl, hstem, hdot⟩⟩ := Path.splitName_snd_eq_some_iff.1 hsplit
      obtain ⟨wanted, hwanted, hsame⟩ := List.any_eq_true.1 h
      exact ⟨stem, extension, wanted, rfl, hstem, hdot, hwanted, by simpa [Text.sameIgnoringCase] using hsame⟩
    · cases h
  · rintro ⟨stem, extension, wanted, hsome, hstem, hdot, hwanted, hsame⟩
    rw [Path.splitName_snd_eq_some_iff.2 ⟨stem, .extended (Option.some.inj hsome) hstem hdot⟩]
    exact List.any_eq_true.2 ⟨wanted, hwanted, by simp [Text.sameIgnoringCase, hsame]⟩

theorem isSource_iff {extensions : List Text} {p : Path} :
    isSource extensions maxSize p bytes = true ↔
      hasExtension extensions p = true ∧ bytes.length ≤ maxSize ∧ 0 ∉ bytes.take 1024 := by
  simp [isSource, Storage.looksBinary, Storage.sniffed, and_assoc]

/-- A file that lists paths to skip has no extension, so no source is hidden. -/
theorem IsPlainTree.startsWith_eq_false (h : IsPlainTree s dir) (hget : s.get? (dir ++ file) = some (.file bytes))
    {stem extension name : Text} (hlast : file.getLast? = some (stem ++ '.' :: extension)) (hstem : stem ≠ [])
    (hname : name ∈ file) : Text.startsWith ['.'] name = false := by
  rw [Bool.eq_false_iff]
  intro hdot
  obtain ⟨rfl, hlisting⟩ := h.shown file bytes hget name hname hdot
  obtain ⟨dirs, rfl⟩ := List.getLast?_eq_some_iff.1 hlast
  rw [List.dropLast_concat] at hlisting
  obtain ⟨c, cs, rfl⟩ := List.exists_cons_of_ne_nil hstem
  have heq := List.mem_singleton.1 ((List.mem_append.1 hname).resolve_left hlisting)
  have htail : "excerptignore".toList = cs ++ '.' :: extension := congrArg List.tail heq
  have hmem : '.' ∈ "excerptignore".toList := by simp [htail]
  revert hmem
  decide

theorem IsPlainTree.mem_entries_iff (h : IsPlainTree s dir) {names : List Text} :
    (names, Entry.file bytes) ∈ s.entries ↔ s.get? names = some (.file bytes) := by
  by_cases hne : names = []
  · rw [hne]
    exact iff_of_false (fun hmem => h.named _ hmem rfl) (fun hget => by cases hget)
  · exact (Storage.get?_eq_some_iff hne).symm

theorem isPlainTree_of_forall
    (hentries : ∀ e ∈ s.entries, e.1 ≠ [] ∧ ∀ names ∈ IgnoreLevel.ruleFiles, e.1.getLast? ≠ names.getLast?)
    (hshown : ∀ f ∈ s.filesBelow dir, ∀ name ∈ f.1, Text.startsWith ['.'] name = true →
      name = Skip.ignoreFileName ∧ name ∉ f.1.dropLast) : IsPlainTree s dir where
  named := fun e he => (hentries e he).1
  noRules := fun d _ => IgnoreLevel.hasNoRules_of_getLast? (fun e he => (hentries e he).2) d
  shown := fun _ _ hget => hshown _ (Storage.mem_filesBelow_of_get? hget)

/-- A project with a source that qualifies, beside a file and two directories that are to be skipped.  It is in no
repository, so the rules for every repository of the user do not hold there. -/
def prunedFiles : Storage where
  entries := [(["w".toList], .directory), (["w".toList, "proj".toList], .directory),
    (["w".toList, "proj".toList, ".excerptignore".toList], .file (Utf8.encode "# old\nlegacy\n".toList)),
    (["w".toList, "proj".toList, "src".toList], .directory),
    (["w".toList, "proj".toList, "src".toList, "a.TS".toList], .file (Utf8.encode ['x'])),
    (["w".toList, "proj".toList, "src".toList, "a.d.ts".toList], .file (Utf8.encode ['x'])),
    (["w".toList, "proj".toList, "src".toList, "gen".toList], .directory),
    (["w".toList, "proj".toList, "src".toList, "gen".toList, "out".toList], .directory),
    (["w".toList, "proj".toList, "src".toList, "gen".toList, "out".toList, "b.ts".toList], .file (Utf8.encode ['x'])),
    (["w".toList, "proj".toList, "legacy".toList], .directory),
    (["w".toList, "proj".toList, "legacy".toList, "c.ts".toList], .file (Utf8.encode ['x'])),
    (["u".toList], .directory), (["u".toList, "git".toList], .directory),
    (["u".toList, "git".toList, "ignore".toList], .file (Utf8.encode "*.TS".toList))]
  workingDirectory := ["w".toList]
  distinct := by decide
  home := ⟨none, some ⟨"/u".toList⟩⟩

def prunedConfig : Config := { Config.builtIn with ignore := ⟨[" /gen/out/ ".toList], ["*.d.ts".toList]⟩ }

theorem isPlainRoot_prunedFiles :
    IsPlainRoot prunedFiles prunedConfig ⟨"proj".toList⟩ ["w".toList, "proj".toList] ["legacy".toList] where
  hasNames := ⟨by decide, by decide, by decide⟩
  resolves := rfl
  isDirectory := rfl
  tree := isPlainTree_of_forall (by decide) (by decide)
  lists := Or.inr ⟨_, "# old\nlegacy\n".toList, rfl, by decide +kernel, by decide +kernel⟩
  literals := List.forall_mem_cons.2
    ⟨⟨["gen".toList, "out".toList], by decide, by decide, by decide, [' '], ['/'], ['/'], [' '],
        rfl, by decide, by decide, by simp, by simp, rfl⟩,
      List.forall_mem_singleton.2
        ⟨["legacy".toList], by decide, by decide, by decide, [], [], [], [],
          rfl, by decide, by decide, by simp, by simp, rfl⟩⟩
  globs := List.forall_mem_singleton.2 ⟨_, rfl⟩

theorem isFreeOfGlobalRules_prunedFiles : IsFreeOfGlobalRules prunedFiles ["w".toList, "proj".toList] :=
  Or.inr (fun d _ => IgnoreLevel.isNoRepository_of_getLast? (by decide) d)

def bareConfig : Config := { Config.builtIn with ignore := ⟨[], []⟩ }

/-- A directory whose name is a dash. -/
def dashFiles : Storage where
  entries := [([['-']], .directory), ([['-'], "a.ts".toList], .file (Utf8.encode ['x']))]
  workingDirectory := []
  distinct := by decide

/-- A project in a repository, of a user who has every file with its extension left out of all repositories. -/
def repositoryFiles : Storage where
  entries := [([".git".toList], .directory), (["proj".toList], .directory),
    (["proj".toList, "a.ts".toList], .file (Utf8.encode ['x'])), (["u".toList], .directory),
    (["u".toList, "git".toList], .directory),
    (["u".toList, "git".toList, "ignore".toList], .file (Utf8.encode "*.ts".toList))]
  workingDirectory := []
  distinct := by decide
  home := ⟨none, some ⟨"/u".toList⟩⟩

/-- A directory whose ignore file lists its only source. -/
def listingFiles : Storage where
  entries := [(["a.ts".toList], .file (Utf8.encode ['x'])), ([Skip.ignoreFileName], .file (Utf8.encode "a.ts".toList))]
  workingDirectory := []
  distinct := by decide

/-- A path to the working directory that takes 4085 bytes. -/
def longPath : Path := ⟨(List.replicate 2042 ['.', '/']).flatten ++ ['.']⟩

/-- Where nothing is set to be skipped, a plain tree without an ignore file in its root is all there is to ask for. -/
theorem isPlainRoot_bareConfig (hnames : s.HasNames) (hroot : s.resolve root = .ok dir)
    (hdirectory : s.get? dir = some .directory) (htree : IsPlainTree s dir) (hlists : Skip.Lists s dir []) :
    IsPlainRoot s bareConfig root dir [] where
  hasNames := hnames
  resolves := hroot
  isDirectory := hdirectory
  tree := htree
  lists := hlists
  literals := fun _ hraw => absurd hraw List.not_mem_nil
  globs := fun _ ht => absurd ht List.not_mem_nil

theorem isPlainRoot_dashFiles : IsPlainRoot dashFiles bareConfig ⟨['-']⟩ [['-']] [] :=
  isPlainRoot_bareConfig ⟨by decide, by decide, by decide⟩ rfl rfl (isPlainTree_of_forall (by decide) (by decide))
    (Or.inl ⟨rfl, rfl⟩)

theorem isPlainRoot_repositoryFiles :
    IsPlainRoot repositoryFiles bareConfig ⟨"proj".toList⟩ ["proj".toList] [] :=
  isPlainRoot_bareConfig ⟨by decide, by decide, by decide⟩ rfl rfl (isPlainTree_of_forall (by decide) (by decide))
    (Or.inl ⟨rfl, rfl⟩)

theorem qualifies_bareConfig : Qualifies bareConfig 1000 [] ["a.ts".toList] (Utf8.encode ['x']) where
  extension := ⟨['a'], "ts".toList, "ts".toList, rfl, by decide, by decide, by decide, rfl⟩
  size := by decide
  isText := by decide
  globs := fun _ ht => absurd ht List.not_mem_nil
  literals := fun _ hraw => absurd hraw List.not_mem_nil

/-- Nothing is collected where a file qualifies. -/
theorem not_collectsQualified_of_nil (hnone : collect s bareConfig 1000 root = .ok [])
    (hget : s.get? (dir ++ ["a.ts".toList]) = some (.file (Utf8.encode ['x']))) :
    ¬CollectsQualified s bareConfig 1000 root dir [] := by
  rintro ⟨files, hfiles, -, hmem⟩
  obtain rfl := Except.ok.inj (hnone.symm.trans hfiles)
  exact absurd ((hmem ["a.ts".toList]).2 ⟨_, hget, qualifies_bareConfig⟩) List.not_mem_nil

theorem isLiteral_listed : Skip.IsLiteral "a.ts".toList ["a.ts".toList] :=
  ⟨by decide, by decide, by decide, [], [], [], [], rfl, by decide, by decide, by simp, by simp, rfl⟩

theorem isPlainRoot_listingFiles : IsPlainRoot listingFiles bareConfig longPath [] ["a.ts".toList] where
  hasNames := ⟨by decide, by decide, by decide⟩
  resolves := by decide +kernel
  isDirectory := rfl
  tree := isPlainTree_of_forall (by decide) (by decide)
  lists := Or.inr ⟨_, "a.ts".toList, rfl, by decide +kernel, by decide +kernel⟩
  literals := List.forall_mem_singleton.2 ⟨_, isLiteral_listed⟩
  globs := fun _ ht => absurd ht List.not_mem_nil

end Sources
end DocExcerpt
