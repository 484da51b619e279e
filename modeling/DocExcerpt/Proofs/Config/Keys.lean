import DocExcerpt.Config.Decode
/-!
# Keys of a configuration

The settings by name: where each stands in a document, and what it comes to in a configuration.  A document without
a key leaves the setting unset (`Config.isUnset_of_written?_eq_none`), with one exception: without the section
`defaults`, hidden files are set to be passed over (`Config.showHidden?_of_lacks`).
-/
namespace DocExcerpt
namespace Config

open Toml (Value)

/-- A setting that an upper layer may leave to the lower ones. -/
inductive Key where
  | tag
  | exampleSuffix
  | heading
  | showHidden
  | extensions
  | format
  | template
  | fenceLanguage
  | lineNumbers
  deriving DecidableEq

/-- What a setting comes to. -/
inductive Setting where
  | text (t : Text)
  | choice (t? : Option Text)
  | texts (ts : List Text)
  | flag (b : Bool)
  deriving DecidableEq

namespace Key

def place : Key → String
  | .tag | .exampleSuffix | .heading | .showHidden => "defaults"
  | .extensions => "scan"
  | .format | .template | .fenceLanguage | .lineNumbers => "render"

/-- The name of a setting in its section, and its place when the section is an array. -/
def entry : Key → String × Nat
  | .tag => ("tag", 0)
  | .exampleSuffix => ("example_suffix", 1)
  | .heading => ("heading", 2)
  | .showHidden => ("show_hidden", 3)
  | .extensions => ("extensions", 0)
  | .format => ("format", 0)
  | .template => ("template", 1)
  | .fenceLanguage => ("fence_language", 2)
  | .lineNumbers => ("line_numbers", 3)

/-- What a document sets a key to, if its section is there and the key in it. -/
def written? (key : Key) (t : Toml.Table) : Option Value :=
  (Toml.Table.get? t key.place.toList).bind (fun v => setting? v key.entry.1 key.entry.2)

def effective (c : Config) : Key → Setting
  | .tag => .text c.defaults.tag
  | .exampleSuffix => .text c.defaults.exampleSuffix
  | .heading => .text c.defaults.heading
  | .showHidden => .flag c.showHidden
  | .extensions => .texts c.scan.extensions
  | .format => .text c.format
  | .template => .choice c.render.template?
  | .fenceLanguage => .flag c.fenceLanguage
  | .lineNumbers => .flag c.lineNumbers

/-- Whether a layer holds of a setting what one holds that does not set it. -/
def IsUnset (c : Config) : Key → Prop
  | .tag => c.defaults.tag = defaultTag
  | .exampleSuffix => c.defaults.exampleSuffix = defaultSuffix
  | .heading => c.defaults.heading = defaultHeading
  | .showHidden => c.defaults.showHidden? = none
  | .extensions => c.scan.extensions = defaultExtensions
  | .format => c.render.format? = none
  | .template => c.render.template? = none
  | .fenceLanguage => c.render.fenceLanguage? = none
  | .lineNumbers => c.render.lineNumbers? = none

end Key

theorem readSection_eq_some_iff {α : Type} {read : Value → Option α} {absent a : α} {v? : Option Value} :
    readSection read absent v? = some a ↔
      v? = none ∧ a = absent ∨ ∃ v, v? = some v ∧ isSection v = true ∧ read v = some a := by
  cases v? with
  | none =>
    simp only [readSection, Option.some.injEq, true_and, reduceCtorEq, false_and, exists_false, or_false]
    exact eq_comm
  | some v =>
    rw [readSection]
    split
    · next hv => simp [hv]
    · next hv => simp [hv]

theorem ofTable?_eq_some_iff {t : Toml.Table} {c : Config} :
    ofTable? t = some c ↔
      readSection Defaults.ofValue? Defaults.absent (Toml.Table.get? t "defaults".toList) = some c.defaults ∧
      readSection Scan.ofValue? Scan.absent (Toml.Table.get? t "scan".toList) = some c.scan ∧
      readSection Ignore.ofValue? Ignore.absent (Toml.Table.get? t "ignore".toList) = some c.ignore ∧
      readSection Render.ofValue? Render.absent (Toml.Table.get? t "render".toList) = some c.render := by
  constructor
  · intro h
    simp only [ofTable?, bind, Option.bind_eq_some_iff, pure, Option.some.injEq] at h
    obtain ⟨defaults, hdefaults, scan, hscan, ignore, hignore, render, hrender, rfl⟩ := h
    exact ⟨hdefaults, hscan, hignore, hrender⟩
  · rintro ⟨hdefaults, hscan, hignore, hrender⟩
    simp only [ofTable?, hdefaults, hscan, hignore, hrender, bind, Option.bind_some, pure]

theorem Defaults.ofValue?_eq_some_iff {v : Value} {d : Defaults} :
    Defaults.ofValue? v = some d ↔
      orDefault text? defaultTag (setting? v "tag" 0) = some d.tag ∧
      orDefault text? defaultSuffix (setting? v "example_suffix" 1) = some d.exampleSuffix ∧
      orDefault text? defaultHeading (setting? v "heading" 2) = some d.heading ∧
      orUnset bool? (setting? v "show_hidden" 3) = some d.showHidden? := by
  constructor
  · intro h
    simp only [Defaults.ofValue?, bind, Option.bind_eq_some_iff, pure, Option.some.injEq] at h
    obtain ⟨tag, htag, suffix, hsuffix, heading, hheading, showHidden?, hshow, rfl⟩ := h
    exact ⟨htag, hsuffix, hheading, hshow⟩
  · rintro ⟨htag, hsuffix, hheading, hshow⟩
    simp [Defaults.ofValue?, htag, hsuffix, hheading, hshow]

theorem Scan.ofValue?_eq_some_iff {v : Value} {c : Config.Scan} :
    Scan.ofValue? v = some c ↔
      orDefault texts? defaultExtensions (setting? v "extensions" 0) = some c.extensions := by
  rcases c with ⟨extensions⟩
  simp [Scan.ofValue?, Option.bind_eq_some_iff]

theorem Render.ofValue?_eq_some_iff {v : Value} {r : Render} :
    Render.ofValue? v = some r ↔
      orUnset text? (setting? v "format" 0) = some r.format? ∧
      orUnset text? (setting? v "template" 1) = some r.template? ∧
      orUnset bool? (setting? v "fence_language" 2) = some r.fenceLanguage? ∧
      orUnset bool? (setting? v "line_numbers" 3) = some r.lineNumbers? := by
  constructor
  · intro h
    simp only [Render.ofValue?, bind, Option.bind_eq_some_iff, pure, Option.some.injEq] at h
    obtain ⟨format?, hformat, template?, htemplate, fence?, hfence, numbers?, hnumbers, rfl⟩ := h
    exact ⟨hformat, htemplate, hfence, hnumbers⟩
  · rintro ⟨hformat, htemplate, hfence, hnumbers⟩
    simp [Render.ofValue?, hformat, htemplate, hfence, hnumbers]

theorem eq_of_orDefault {α : Type} {read : Value → Option α} {default a : α} {v? : Option Value}
    (h : orDefault read default v? = some a) (hv : v? = none) : a = default := by
  rw [hv] at h
  exact (Option.some.inj h).symm

theorem eq_none_of_orUnset {α : Type} {read : Value → Option α} {a? : Option α} {v? : Option Value}
    (h : orUnset read v? = some a?) (hv : v? = none) : a? = none := by
  rw [hv] at h
  exact (Option.some.inj h).symm

/-- A setting is at its default when its section is absent, and when the section is there without it. -/
theorem eq_default_of_readSection {α β : Type} {read : Value → Option α} {absent a : α} {v? : Option Value}
    {field : α → β} {default : β} {written? : Value → Option Value} (h : readSection read absent v? = some a)
    (habsent : field absent = default) (hnone : v?.bind written? = none)
    (hread : ∀ v, read v = some a → written? v = none → field a = default) : field a = default := by
  rcases readSection_eq_some_iff.1 h with ⟨-, rfl⟩ | ⟨v, hv, -, hv'⟩
  · exact habsent
  · exact hread v hv' (Option.bind_eq_none_iff.1 hnone v hv)

/-- **A document without a key leaves the setting unset**, unless it is about hidden files and there is no section
`defaults` either. -/
theorem isUnset_of_written?_eq_none {t : Toml.Table} {c : Config} (h : ofTable? t = some c) {key : Key}
    (hkey : key.written? t = none) (hhidden : ¬(key = .showHidden ∧ Toml.Table.get? t "defaults".toList = none)) :
    key.IsUnset c := by
  obtain ⟨hdefaults, hscan, -, hrender⟩ := ofTable?_eq_some_iff.1 h
  cases key with
  | tag =>
    exact eq_default_of_readSection hdefaults rfl hkey
      (fun v hv => eq_of_orDefault (Defaults.ofValue?_eq_some_iff.1 hv).1)
  | exampleSuffix =>
    exact eq_default_of_readSection hdefaults rfl hkey
      (fun v hv => eq_of_orDefault (Defaults.ofValue?_eq_some_iff.1 hv).2.1)
  | heading =>
    exact eq_default_of_readSection hdefaults rfl hkey
      (fun v hv => eq_of_orDefault (Defaults.ofValue?_eq_some_iff.1 hv).2.2.1)
  | showHidden =>
    rcases readSection_eq_some_iff.1 hdefaults with ⟨hnone, -⟩ | ⟨v, hv, -, hread⟩
    · exact absurd ⟨rfl, hnone⟩ hhidden
    · exact eq_none_of_orUnset (Defaults.ofValue?_eq_some_iff.1 hread).2.2.2 (Option.bind_eq_none_iff.1 hkey v hv)
  | extensions =>
    exact eq_default_of_readSection hscan rfl hkey
      (fun v hv => eq_of_orDefault (Scan.ofValue?_eq_some_iff.1 hv))
  | format =>
    exact eq_default_of_readSection hrender rfl hkey
      (fun v hv => eq_none_of_orUnset (Render.ofValue?_eq_some_iff.1 hv).1)
  | template =>
    exact eq_default_of_readSection hrender rfl hkey
      (fun v hv => eq_none_of_orUnset (Render.ofValue?_eq_some_iff.1 hv).2.1)
  | fenceLanguage =>
    exact eq_default_of_readSection hrender rfl hkey
      (fun v hv => eq_none_of_orUnset (Render.ofValue?_eq_some_iff.1 hv).2.2.1)
  | lineNumbers =>
    exact eq_default_of_readSection hrender rfl hkey
      (fun v hv => eq_none_of_orUnset (Render.ofValue?_eq_some_iff.1 hv).2.2.2)

theorem showHidden?_of_lacks {t : Toml.Table} {c : Config} (h : ofTable? t = some c)
    (hlacks : Toml.Table.get? t "defaults".toList = none) : c.defaults.showHidden? = some false := by
  have hdefaults := (ofTable?_eq_some_iff.1 h).1
  rw [hlacks] at hdefaults
  rw [← Option.some.inj hdefaults]
  rfl

end Config
end DocExcerpt
