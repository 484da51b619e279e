import DocExcerpt.Config.Layer
import DocExcerpt.Proofs.Config.Keys
import DocExcerpt.Proofs.Fallible
/-!
# Layers that do not set a key

A configuration file over others leaves every setting alone that it does not set (`Config.effective_merge`), and
takes no pattern to ignore away, with one exception: a file without the section `defaults` has hidden files passed
over, whatever the files below it set (`Config.showHidden_merge`).
-/
namespace DocExcerpt

def Environment.IsSilent (env : Environment) : Prop := env.tag? = none ∧ env.format? = none

namespace Config

/-- The configuration files that a run finds, the lowest first. -/
def files (s : Storage) (env : Environment) (start : Path) : List Path :=
  ((userFile? env).toList ++ [workspaceFile s start]).filter s.exists?

/-- Whether the configuration files that a run finds hold these texts. -/
def Finds (s : Storage) (env : Environment) (start : Path) (texts : List Text) : Prop :=
  List.Forall₂ (fun file t => s.readUtf8 file = .ok t) (files s env start) texts

/-- Whether a configuration file does not set a key. -/
def Key.IsSilent (key : Key) (t : Text) : Prop := ∃ table, Toml.parse t = some table ∧ key.written? table = none

def LacksDefaults (t : Text) : Prop :=
  ∃ table, Toml.parse t = some table ∧ Toml.Table.get? table "defaults".toList = none

instance (key : Key) (t : Text) : Decidable (key.IsSilent t) :=
  decidable_of_iff ((Toml.parse t).any (fun table => (key.written? table).isNone) = true) (by
    simp only [Key.IsSilent, Option.any_eq_true, Option.isNone_iff_eq_none])

instance (t : Text) : Decidable (LacksDefaults t) :=
  decidable_of_iff ((Toml.parse t).any (fun table => (Toml.Table.get? table "defaults".toList).isNone) = true) (by
    simp only [LacksDefaults, Option.any_eq_true, Option.isNone_iff_eq_none])

variable {s s' : Storage} {env env' : Environment} {start start' : Path} {texts : List Text} {w : Text}

theorem choose_default {α : Type} [DecidableEq α] (lower default : α) : choose lower default default = lower :=
  if_pos rfl

/-- **A layer in which a setting is unset leaves it to the layers below.** -/
theorem effective_merge {upper : Config} {key : Key} (h : key.IsUnset upper) (lower : Config) :
    key.effective (merge lower upper) = key.effective lower := by
  cases key <;> simp only [Key.IsUnset] at h <;>
    simp [Key.effective, merge, Defaults.merge, Scan.merge, Render.merge, showHidden, Config.format, fenceLanguage,
      lineNumbers, h, choose_default]

theorem showHidden_merge {upper : Config} {b : Bool} (h : upper.defaults.showHidden? = some b) (lower : Config) :
    (merge lower upper).showHidden = b := by
  simp [showHidden, merge, Defaults.merge, h]

theorem ofLayers_append_singleton (layers : List Config) (layer : Config) :
    ofLayers (layers ++ [layer]) = merge (ofLayers layers) layer := by
  rw [ofLayers, List.foldl_append]
  rfl

theorem override_of_isSilent (h : env.IsSilent) (c : Config) : c.override env = c := by
  simp [override, h.1, h.2]

theorem readFile_of_parse? {file : Path} {t : Text} {c : Config} (h : s.readUtf8 file = .ok t)
    (hc : parse? t = some c) : readFile s file = .ok c := by
  simp only [readFile, h, hc]

theorem exists_layers (h : ∀ t ∈ texts, (parse? t).isSome) :
    ∃ layers, List.Forall₂ (fun t c => parse? t = some c) texts layers := by
  induction texts with
  | nil => exact ⟨[], List.Forall₂.nil⟩
  | cons t texts ih =>
    obtain ⟨c, hc⟩ := Option.isSome_iff_exists.1 (h t List.mem_cons_self)
    obtain ⟨layers, hlayers⟩ := ih (fun t' ht' => h t' (List.mem_cons_of_mem _ ht'))
    exact ⟨c :: layers, List.Forall₂.cons hc hlayers⟩

/-- Files that hold configurations are read as their layers. -/
theorem forall₂_readFile {files : List Path} {layers : List Config}
    (hfiles : List.Forall₂ (fun file t => s.readUtf8 file = .ok t) files texts)
    (hlayers : List.Forall₂ (fun t c => parse? t = some c) texts layers) :
    List.Forall₂ (fun file c => readFile s file = .ok c) files layers := by
  induction hfiles generalizing layers with
  | nil =>
    cases hlayers
    exact List.Forall₂.nil
  | cons hfile _ ih =>
    cases hlayers with
    | cons hlayer hlayers => exact List.Forall₂.cons (readFile_of_parse? hfile hlayer) (ih hlayers)

/-- **What a run loads**: the layers that its files are over the built-in one, and the environment over all. -/
theorem load_eq_ok_override {layers : List Config} (hfinds : Finds s env start texts)
    (hlayers : List.Forall₂ (fun t c => parse? t = some c) texts layers) :
    load s env start = .ok ((ofLayers layers).override env) :=
  bind_eq_ok_iff.2 ⟨layers, mapM_eq_ok_iff.2 (forall₂_readFile hfinds hlayers), rfl⟩

theorem load_eq_ok {layers : List Config} (hfinds : Finds s env start texts) (henv : env.IsSilent)
    (hlayers : List.Forall₂ (fun t c => parse? t = some c) texts layers) :
    load s env start = .ok (ofLayers layers) := by
  rw [load_eq_ok_override hfinds hlayers, override_of_isSilent henv]

theorem effective_merge_of_isSilent {layer lower : Config} {key : Key} (hlayer : parse? w = some layer)
    (hkey : key.IsSilent w) :
    key.effective (merge lower layer) = key.effective lower ↔
      ¬(key = .showHidden ∧ LacksDefaults w ∧ lower.showHidden = true) := by
  obtain ⟨table, htable, hwritten⟩ := hkey
  rw [parse?, htable, Option.bind_some] at hlayer
  have hlacks : LacksDefaults w ↔ Toml.Table.get? table "defaults".toList = none := by
    simp only [LacksDefaults, htable, Option.some.injEq, exists_eq_left']
  rw [hlacks]
  by_cases hhidden : key = .showHidden ∧ Toml.Table.get? table "defaults".toList = none
  · obtain ⟨rfl, hnone⟩ := hhidden
    have hfalse := showHidden_merge (showHidden?_of_lacks hlayer hnone) lower
    simp only [Key.effective, hfalse, hnone, Setting.flag.injEq, true_and, Bool.not_eq_true]
    exact eq_comm
  · refine iff_of_true (effective_merge (isUnset_of_written?_eq_none hlayer hwritten hhidden) lower) ?_
    rintro ⟨hkey, hnone, -⟩
    exact hhidden ⟨hkey, hnone⟩

/-- **What a file over others leaves alone.**  A run that finds one more configuration file on top comes to the same
settings for the keys that the file does not set, and ignores what was ignored without it, except that hidden files
are no longer scanned when the file has no section `defaults`. -/
theorem load_keeps_iff (hvalid : ∀ t ∈ texts ++ [w], (parse? t).isSome) (hlower : Finds s env start texts)
    (hupper : Finds s' env' start' (texts ++ [w])) (henv : env.IsSilent) (henv' : env'.IsSilent) :
    ∃ lower upper, load s env start = .ok lower ∧ load s' env' start' = .ok upper ∧
      (∀ key : Key, key.IsSilent w →
        (key.effective upper = key.effective lower ↔
          ¬(key = .showHidden ∧ LacksDefaults w ∧ lower.showHidden = true))) ∧
      (texts = [] → ∀ key : Key, key.IsSilent w → key.effective upper = key.effective lower) ∧
      (∀ p ∈ lower.ignore.paths, p ∈ upper.ignore.paths) ∧ ∀ g ∈ lower.ignore.globs, g ∈ upper.ignore.globs := by
  obtain ⟨layers, hlayers⟩ := exists_layers (fun t ht => hvalid t (List.mem_append_left _ ht))
  obtain ⟨layer, hlayer⟩ := Option.isSome_iff_exists.1 (hvalid w (by simp))
  have hall := List.rel_append hlayers (List.Forall₂.cons hlayer List.Forall₂.nil)
  refine ⟨_, _, load_eq_ok hlower henv hlayers, load_eq_ok hupper henv' hall, ?_⟩
  rw [ofLayers_append_singleton]
  refine ⟨fun key => effective_merge_of_isSilent hlayer, fun hnone key hkey => ?_, fun p hp => ?_, fun g hg => ?_⟩
  · -- the built-in layer has hidden files passed over, so the exception makes no difference
    subst hnone
    cases hlayers
    refine (effective_merge_of_isSilent hlayer hkey).2 (fun h => ?_)
    exact absurd h.2.2 (by decide)
  · exact mem_union.2 (Or.inl hp)
  · exact mem_union.2 (Or.inl hg)

def showHiddenFile : Text := "[defaults]\nshow_hidden = true\n".toList

def extensionsFile : Text := "[scan]\nextensions = [\"ts\"]\n".toList

/-- A home with the user's file. -/
def userStorage : Storage where
  entries := [(["u".toList], .directory), (["u".toList, "excerpt".toList], .directory),
    (["u".toList, "excerpt".toList, "config.toml".toList], .file (Utf8.encode showHiddenFile))]
  workingDirectory := []
  distinct := by decide

/-- The same with a workspace that has a file, too. -/
def workspaceStorage : Storage where
  entries := userStorage.entries ++ [(["w".toList], .directory), (["w".toList, ".excerpt".toList], .directory),
    (["w".toList, ".excerpt".toList, "config.toml".toList], .file (Utf8.encode extensionsFile))]
  workingDirectory := []
  distinct := by decide

def userEnvironment : Environment := ⟨some ⟨"/u".toList⟩, none, none⟩

theorem finds_userStorage : Finds userStorage userEnvironment ⟨"/w".toList⟩ [showHiddenFile] := by
  have hfiles : files userStorage userEnvironment ⟨"/w".toList⟩ = [⟨"/u/excerpt/config.toml".toList⟩] := by
    decide +kernel
  rw [Finds, hfiles]
  exact List.Forall₂.cons (by decide +kernel) List.Forall₂.nil

theorem finds_workspaceStorage :
    Finds workspaceStorage userEnvironment ⟨"/w".toList⟩ ([showHiddenFile] ++ [extensionsFile]) := by
  have hfiles : files workspaceStorage userEnvironment ⟨"/w".toList⟩ =
      [⟨"/u/excerpt/config.toml".toList⟩, ⟨"/w/.excerpt/config.toml".toList⟩] := by
    decide +kernel
  rw [Finds, hfiles]
  exact List.Forall₂.cons (by decide +kernel) (List.Forall₂.cons (by decide +kernel) List.Forall₂.nil)

theorem load_loses_showHidden :
    (∀ t ∈ [showHiddenFile] ++ [extensionsFile], (parse? t).isSome) ∧
    Finds userStorage userEnvironment ⟨"/w".toList⟩ [showHiddenFile] ∧
    Finds workspaceStorage userEnvironment ⟨"/w".toList⟩ ([showHiddenFile] ++ [extensionsFile]) ∧
    userEnvironment.IsSilent ∧
    ∃ lower upper, load userStorage userEnvironment ⟨"/w".toList⟩ = .ok lower ∧
      load workspaceStorage userEnvironment ⟨"/w".toList⟩ = .ok upper ∧
      Key.showHidden.IsSilent extensionsFile ∧ Key.showHidden.effective upper ≠ Key.showHidden.effective lower ∧
      ∀ key ≠ Key.showHidden, key.IsSilent extensionsFile → key.effective upper = key.effective lower := by
  have hvalid : ∀ t ∈ [showHiddenFile] ++ [extensionsFile], (parse? t).isSome := by decide +kernel
  have henv : userEnvironment.IsSilent := ⟨rfl, rfl⟩
  obtain ⟨lower, upper, hlower, hupper, hkeys, -⟩ :=
    load_keeps_iff hvalid finds_userStorage finds_workspaceStorage henv henv
  have hsilent : Key.showHidden.IsSilent extensionsFile := by decide +kernel
  have hshown : lower.showHidden = true := by
    have hload : (load userStorage userEnvironment ⟨"/w".toList⟩).toOption.map showHidden = some true := by
      decide +kernel
    rw [hlower] at hload
    exact Option.some.inj hload
  refine ⟨hvalid, finds_userStorage, finds_workspaceStorage, henv, lower, upper, hlower, hupper, hsilent, ?_, ?_⟩
  · exact fun heq => (hkeys .showHidden hsilent).1 heq ⟨rfl, by decide +kernel, hshown⟩
  · exact fun key hne hkey => (hkeys key hkey).2 (fun h => hne h.1)

end Config
end DocExcerpt
