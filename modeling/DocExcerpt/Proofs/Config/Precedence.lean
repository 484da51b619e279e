import DocExcerpt.Proofs.Config.Layers
import Mathlib.Data.List.Induction
/-!
# Layers that set a key

A configuration file over others decides the settings that it sets, with one exception: a text or list of extensions
that is set to its default counts as not set, and so gives way to another value below (`Config.load_takes_iff`).
-/
namespace DocExcerpt

/-- Whether the environment decides a setting, over all files. -/
def Environment.Decides (env : Environment) : Config.Key → Prop
  | .tag => env.tag? ≠ none
  | .format => env.format? ≠ none
  | _ => False

namespace Config

open Toml (Value)

namespace Key

/-- The setting that a value in a document stands for. -/
def read? : Key → Value → Option Setting
  | .tag | .exampleSuffix | .heading | .format => fun v => (text? v).map Setting.text
  | .template => fun v => (text? v).map (fun t => .choice (some t))
  | .extensions => fun v => (texts? v).map Setting.texts
  | .showHidden | .fenceLanguage | .lineNumbers => fun v => (bool? v).map Setting.flag

/-- What a configuration file sets a key to, if it does. -/
def set? (key : Key) (t : Text) : Option Setting :=
  (Toml.parse t).bind (fun table => (key.written? table).bind key.read?)

/-- What a layer holds of a setting, if it tells one from none. -/
def held? (c : Config) : Key → Option Setting
  | .tag => some (.text c.defaults.tag)
  | .exampleSuffix => some (.text c.defaults.exampleSuffix)
  | .heading => some (.text c.defaults.heading)
  | .showHidden => c.defaults.showHidden?.map Setting.flag
  | .extensions => some (.texts c.scan.extensions)
  | .format => c.render.format?.map Setting.text
  | .template => c.render.template?.map (fun t => .choice (some t))
  | .fenceLanguage => c.render.fenceLanguage?.map Setting.flag
  | .lineNumbers => c.render.lineNumbers?.map Setting.flag

/-- The value that stands for an unset key in a layer, for the keys that have no sign of their own for that. -/
def standIn? : Key → Option Setting
  | .tag => some (.text defaultTag)
  | .exampleSuffix => some (.text defaultSuffix)
  | .heading => some (.text defaultHeading)
  | .extensions => some (.texts defaultExtensions)
  | .showHidden | .format | .template | .fenceLanguage | .lineNumbers => none

end Key

variable {s : Storage} {env : Environment} {start : Path} {texts : List Text} {w : Text} {key : Key} {v : Setting}

/-! ## What one file sets -/

theorem exists_of_readSection {α : Type} {read : Value → Option α} {absent a : α} {v? : Option Value}
    {written? : Value → Option Value} {raw : Value} (h : readSection read absent v? = some a)
    (hraw : v?.bind written? = some raw) : ∃ v, written? v = some raw ∧ read v = some a := by
  rcases readSection_eq_some_iff.1 h with ⟨rfl, -⟩ | ⟨v, rfl, -, hread⟩
  · cases hraw
  · exact ⟨v, hraw, hread⟩

theorem read_of_orDefault {α : Type} {read : Value → Option α} {default a : α} {v? : Option Value} {raw : Value}
    (h : orDefault read default v? = some a) (hv : v? = some raw) : read raw = some a := by
  rwa [hv] at h

theorem read_of_orUnset {α : Type} {read : Value → Option α} {a? : Option α} {v? : Option Value} {raw : Value}
    (h : orUnset read v? = some a?) (hv : v? = some raw) : read raw = a? := by
  rw [hv] at h
  obtain ⟨a, ha, rfl⟩ := Option.map_eq_some_iff.1 h
  exact ha

theorem held?_of_written? {t : Toml.Table} {c : Config} (h : ofTable? t = some c) {raw : Value}
    (hraw : key.written? t = some raw) : key.held? c = key.read? raw := by
  obtain ⟨hdefaults, hscan, -, hrender⟩ := ofTable?_eq_some_iff.1 h
  cases key with
  | tag =>
    obtain ⟨v, hv, hread⟩ := exists_of_readSection hdefaults hraw
    simp [Key.held?, Key.read?, read_of_orDefault (Defaults.ofValue?_eq_some_iff.1 hread).1 hv]
  | exampleSuffix =>
    obtain ⟨v, hv, hread⟩ := exists_of_readSection hdefaults hraw
    simp [Key.held?, Key.read?, read_of_orDefault (Defaults.ofValue?_eq_some_iff.1 hread).2.1 hv]
  | heading =>
    obtain ⟨v, hv, hread⟩ := exists_of_readSection hdefaults hraw
    simp [Key.held?, Key.read?, read_of_orDefault (Defaults.ofValue?_eq_some_iff.1 hread).2.2.1 hv]
  | showHidden =>
    obtain ⟨v, hv, hread⟩ := exists_of_readSection hdefaults hraw
    simp [Key.held?, Key.read?, read_of_orUnset (Defaults.ofValue?_eq_some_iff.1 hread).2.2.2 hv]
  | extensions =>
    obtain ⟨v, hv, hread⟩ := exists_of_readSection hscan hraw
    simp [Key.held?, Key.read?, read_of_orDefault (Scan.ofValue?_eq_some_iff.1 hread) hv]
  | format =>
    obtain ⟨v, hv, hread⟩ := exists_of_readSection hrender hraw
    simp [Key.held?, Key.read?, read_of_orUnset (Render.ofValue?_eq_some_iff.1 hread).1 hv]
  | template =>
    obtain ⟨v, hv, hread⟩ := exists_of_readSection hrender hraw
    simp [Key.held?, Key.read?, read_of_orUnset (Render.ofValue?_eq_some_iff.1 hread).2.1 hv]
  | fenceLanguage =>
    obtain ⟨v, hv, hread⟩ := exists_of_readSection hrender hraw
    simp [Key.held?, Key.read?, read_of_orUnset (Render.ofValue?_eq_some_iff.1 hread).2.2.1 hv]
  | lineNumbers =>
    obtain ⟨v, hv, hread⟩ := exists_of_readSection hrender hraw
    simp [Key.held?, Key.read?, read_of_orUnset (Render.ofValue?_eq_some_iff.1 hread).2.2.2 hv]

theorem held?_of_set? {c : Config} (hc : parse? w = some c) (h : key.set? w = some v) : key.held? c = some v := by
  obtain ⟨table, htable, h⟩ := Option.bind_eq_some_iff.1 h
  obtain ⟨raw, hraw, hv⟩ := Option.bind_eq_some_iff.1 h
  rw [parse?, htable, Option.bind_some] at hc
  rw [held?_of_written? hc hraw, hv]

/-- A file that does not set a key, and has no sign of its own for that, holds what stands for it. -/
theorem held?_of_set?_eq_none {c : Config} (hc : parse? w = some c) (hv : key.standIn? = some v)
    (h : key.set? w = none) : key.held? c = some v := by
  obtain ⟨table, htable, hc⟩ := Option.bind_eq_some_iff.1 hc
  rw [Key.set?, htable, Option.bind_some] at h
  cases hwritten : key.written? table with
  | some raw =>
    -- a value that is there can be read, since the file holds a configuration
    have hheld := held?_of_written? hc hwritten
    rw [hwritten, Option.bind_some] at h
    rw [h] at hheld
    cases key <;> simp [Key.standIn?, Key.held?] at hv hheld
  | none =>
    have hunset := isUnset_of_written?_eq_none hc hwritten (by rintro ⟨rfl, -⟩; cases hv)
    cases key <;> simp only [Key.standIn?, Key.IsUnset, reduceCtorEq, Option.some.injEq] at hv hunset <;>
      rw [Key.held?, hunset, hv]

/-! ## What a layer adds to the layers below -/

theorem isUnset_of_standIn? {c : Config} (hstand : key.standIn? = some v) (h : key.held? c = some v) :
    key.IsUnset c := by
  rw [← hstand] at h
  cases key <;> simp only [Key.standIn?, Key.held?, Option.some.injEq, reduceCtorEq] at hstand h <;>
    simpa [Key.IsUnset] using h

/-- **A layer decides the setting that it holds**, unless the value stands for one that is not set. -/
theorem effective_merge_of_held? {upper : Config} (h : key.held? upper = some v) (lower : Config) :
    key.effective (merge lower upper) = if key.standIn? = some v then key.effective lower else v := by
  split
  · next hstand => exact effective_merge (isUnset_of_standIn? hstand h) lower
  · next hstand =>
    cases key <;>
      simp only [Key.standIn?, Key.held?, Option.some.injEq, Option.map_eq_some_iff, reduceCtorEq] at hstand h
    case showHidden | format | template | fenceLanguage | lineNumbers =>
      obtain ⟨a, ha, rfl⟩ := h
      simp [Key.effective, merge, Defaults.merge, Render.merge, showHidden, Config.format, fenceLanguage,
        lineNumbers, ha]
    case tag | exampleSuffix | heading | extensions =>
      subst h
      simp only [Setting.text.injEq, Setting.texts.injEq] at hstand
      simp [Key.effective, merge, Defaults.merge, Scan.merge, choose, Ne.symm hstand]

theorem exists_held? (hstand : key.standIn? = some v) (c : Config) : ∃ u, key.held? c = some u := by
  cases key <;> first | exact ⟨_, rfl⟩ | cases hstand

theorem effective_merge_eq_iff (hstand : key.standIn? = some v) (lower upper : Config) :
    key.effective (merge lower upper) = v ↔ key.effective lower = v ∧ key.held? upper = some v := by
  obtain ⟨u, hu⟩ := exists_held? hstand upper
  rw [effective_merge_of_held? hu, hu, hstand]
  by_cases huv : u = v
  · simp [huv]
  · simp [huv, Ne.symm huv]

/-- **Layers come to the value that stands for an unset key** when none of them holds another one. -/
theorem effective_ofLayers_eq_iff (hstand : key.standIn? = some v) (layers : List Config) :
    key.effective (ofLayers layers) = v ↔ ∀ layer ∈ layers, key.held? layer = some v := by
  induction layers using List.reverseRecOn with
  | nil =>
    have hbuiltIn : key.effective builtIn = v := by
      cases key <;> simp only [Key.standIn?, Option.some.injEq, reduceCtorEq] at hstand <;> exact hstand
    simp [ofLayers, hbuiltIn]
  | append_singleton layers layer ih =>
    rw [ofLayers_append_singleton, effective_merge_eq_iff hstand, ih]
    simp [or_imp, forall_and]

theorem held?_eq_standIn_iff {c : Config} (hc : parse? w = some c) (hstand : key.standIn? = some v) :
    key.held? c = some v ↔ ¬∃ u, key.set? w = some u ∧ u ≠ v := by
  cases hset : key.set? w with
  | none => simp [held?_of_set?_eq_none hc hstand hset]
  | some u => simp [held?_of_set? hc hset]

theorem forall_held?_iff {layers : List Config} (hstand : key.standIn? = some v)
    (hlayers : List.Forall₂ (fun t c => parse? t = some c) texts layers) :
    (∀ layer ∈ layers, key.held? layer = some v) ↔ ¬∃ t ∈ texts, ∃ u, key.set? t = some u ∧ u ≠ v := by
  induction hlayers with
  | nil => simp
  | cons hlayer _ ih => simp only [List.forall_mem_cons, ih, held?_eq_standIn_iff hlayer hstand,
      List.exists_mem_cons_iff, not_or]

/-! ## What a run comes to -/

theorem effective_override (h : ¬env.Decides key) (c : Config) : key.effective (c.override env) = key.effective c := by
  cases key <;> simp only [Environment.Decides, not_not] at h <;>
    simp [Key.effective, override, showHidden, Config.format, fenceLanguage, lineNumbers, h]

/-- **What a file over others decides.**  A run whose uppermost configuration file sets a key, and whose environment
leaves the key alone, comes to the value in that file, unless this is the value that stands for an unset key and a
file below sets the key to another one. -/
theorem load_takes_iff (hvalid : ∀ t ∈ texts ++ [w], (parse? t).isSome) (hfinds : Finds s env start (texts ++ [w]))
    (henv : ¬env.Decides key) (hset : key.set? w = some v) :
    ∃ c, load s env start = .ok c ∧
      (key.effective c = v ↔ ¬(key.standIn? = some v ∧ ∃ t ∈ texts, ∃ u, key.set? t = some u ∧ u ≠ v)) := by
  obtain ⟨layers, hlayers⟩ := exists_layers (fun t ht => hvalid t (List.mem_append_left _ ht))
  obtain ⟨layer, hlayer⟩ := Option.isSome_iff_exists.1 (hvalid w (by simp))
  have hall := List.rel_append hlayers (List.Forall₂.cons hlayer List.Forall₂.nil)
  refine ⟨_, load_eq_ok_override hfinds hall, ?_⟩
  rw [effective_override henv, ofLayers_append_singleton, effective_merge_of_held? (held?_of_set? hlayer hset)]
  by_cases hstand : key.standIn? = some v
  · rw [if_pos hstand, effective_ofLayers_eq_iff hstand, forall_held?_iff hstand hlayers]
    simp [hstand]
  · rw [if_neg hstand]
    simp [hstand]

def usageFile : Text := "[defaults]\nheading = \"Usage\"\n".toList

def exampleFile : Text := "[defaults]\nheading = \"Example\"\n".toList

/-- A home with the user's file and a workspace with a file that takes the heading back. -/
def headingStorage : Storage where
  entries := [(["u".toList], .directory), (["u".toList, "excerpt".toList], .directory),
    (["u".toList, "excerpt".toList, "config.toml".toList], .file (Utf8.encode usageFile)),
    (["w".toList], .directory), (["w".toList, ".excerpt".toList], .directory),
    (["w".toList, ".excerpt".toList, "config.toml".toList], .file (Utf8.encode exampleFile))]
  workingDirectory := []
  distinct := by decide

theorem load_loses_heading :
    (∀ t ∈ [usageFile] ++ [exampleFile], (parse? t).isSome) ∧
    Finds headingStorage userEnvironment ⟨"/w".toList⟩ ([usageFile] ++ [exampleFile]) ∧
    ¬userEnvironment.Decides .heading ∧ Key.heading.set? exampleFile = some (.text "Example".toList) ∧
    ∃ c, load headingStorage userEnvironment ⟨"/w".toList⟩ = .ok c ∧
      Key.heading.effective c ≠ .text "Example".toList := by
  have hvalid : ∀ t ∈ [usageFile] ++ [exampleFile], (parse? t).isSome := by decide +kernel
  have hfiles : files headingStorage userEnvironment ⟨"/w".toList⟩ =
      [⟨"/u/excerpt/config.toml".toList⟩, ⟨"/w/.excerpt/config.toml".toList⟩] := by
    decide +kernel
  have hfinds : Finds headingStorage userEnvironment ⟨"/w".toList⟩ ([usageFile] ++ [exampleFile]) := by
    rw [Finds, hfiles]
    exact List.Forall₂.cons (by decide +kernel) (List.Forall₂.cons (by decide +kernel) List.Forall₂.nil)
  have hset : Key.heading.set? exampleFile = some (.text "Example".toList) := by decide +kernel
  have henv : ¬userEnvironment.Decides .heading := not_false
  obtain ⟨c, hc, hiff⟩ := load_takes_iff hvalid hfinds henv hset
  refine ⟨hvalid, hfinds, henv, hset, c, hc, fun heq => hiff.1 heq ⟨rfl, usageFile, by simp, ?_⟩⟩
  exact ⟨.text "Usage".toList, by decide +kernel, by decide⟩

end Config
end DocExcerpt
