import DocExcerpt.Proofs.Config.Layers
import Mathlib.Data.List.Sort
/-!
# Laws of merging

Layers may be merged in any grouping, and a layer that is merged in once more changes nothing (`Config.merge_assoc`,
`Config.merge_merge_self`).  A setting that can be left unset obeys these laws by the rule that the upper value wins,
one with a stand-in for unset values by `Config.choose`, and the lists of patterns to ignore by being determined by
their members (`Config.union_eq_of_mem_iff`).
-/
namespace DocExcerpt

theorem Text.lt_of_le_of_ne {s t : Text} (hle : Text.le s t = true) (hne : s ≠ t) : s < t := by
  rw [Text.le, decide_eq_true_eq, List.not_lt, List.le_iff_lt_or_eq] at hle
  exact hle.resolve_right hne

namespace Config

section Choice

variable {α : Type} [DecidableEq α]

theorem choose_of_ne {upper default : α} (h : upper ≠ default) (lower : α) : choose lower upper default = upper :=
  if_neg h

theorem choose_assoc (lower middle upper default : α) :
    choose (choose lower middle default) upper default = choose lower (choose middle upper default) default := by
  by_cases h : upper = default
  · rw [h, choose_default, choose_default]
  · rw [choose_of_ne h, choose_of_ne h, choose_of_ne h]

theorem choose_choose_self (lower upper default : α) :
    choose (choose lower upper default) upper default = choose lower upper default := by
  by_cases h : upper = default
  · rw [h, choose_default]
  · rw [choose_of_ne h, choose_of_ne h]

end Choice

/-- The members of two lists come strictly in order. -/
theorem ascending_union (lower upper : List Text) : (union lower upper).Pairwise (· < ·) :=
  (pairwise_union lower upper).imp (fun h => Text.lt_of_le_of_ne h.1 h.2)

/-- A list in strict order is the union of the two lists that have its members. -/
theorem union_eq_of_mem_iff {lower upper ts : List Text} (hts : ts.Pairwise (· < ·))
    (h : ∀ t, t ∈ lower ∨ t ∈ upper ↔ t ∈ ts) : union lower upper = ts :=
  (ascending_union lower upper).eq_of_mem_iff hts (fun t => mem_union.trans (h t))

theorem union_assoc (lower middle upper : List Text) :
    union (union lower middle) upper = union lower (union middle upper) :=
  union_eq_of_mem_iff (ascending_union _ _) (fun t => by rw [mem_union, mem_union, mem_union, or_assoc])

theorem union_union_self (lower upper : List Text) : union (union lower upper) upper = union lower upper :=
  union_eq_of_mem_iff (ascending_union _ _) (fun t => by rw [mem_union, or_assoc, or_self])

/-- **Layers may be merged in any grouping.** -/
theorem merge_assoc (a b c : Config) : merge (merge a b) c = merge a (merge b c) := by
  simp only [merge, Defaults.merge, Scan.merge, Ignore.merge, Render.merge, choose_assoc, union_assoc,
    Option.orElse_eq_orElse, Option.orElse_eq_or, Option.or_assoc]

/-- **A layer that is merged in once more changes nothing.** -/
theorem merge_merge_self (a b : Config) : merge (merge a b) b = merge a b := by
  simp only [merge, Defaults.merge, Scan.merge, Ignore.merge, Render.merge, choose_choose_self, union_union_self,
    Option.orElse_eq_orElse, Option.orElse_eq_or, ← Option.or_assoc, Option.or_self]

/-- **A chain of layers ignores what one of its layers ignores.** -/
theorem mem_foldl_merge (patterns : Config → List Text)
    (hmerge : ∀ a b, patterns (merge a b) = union (patterns a) (patterns b)) (base : Config) (layers : List Config)
    (t : Text) : t ∈ patterns (layers.foldl merge base) ↔ ∃ layer ∈ base :: layers, t ∈ patterns layer := by
  induction layers generalizing base with
  | nil => simp only [List.foldl_nil, List.mem_singleton, exists_eq_left]
  | cons layer layers ih =>
    rw [List.foldl_cons, ih]
    simp only [List.mem_cons, exists_eq_or_imp, hmerge, mem_union, or_assoc]

/-- **Merging keeps the layers.**  It may be done in any grouping and a layer comes in once only; the patterns to
ignore are strictly in order and those of both layers, and along a chain none is lost. -/
theorem merge_keeps_layers (a b c : Config) (layers : List Config) :
    merge (merge a b) c = merge a (merge b c) ∧ merge (merge a b) b = merge a b ∧
      (merge a b).ignore.paths.Pairwise (· < ·) ∧ (merge a b).ignore.globs.Pairwise (· < ·) ∧
      (∀ p, p ∈ (merge a b).ignore.paths ↔ p ∈ a.ignore.paths ∨ p ∈ b.ignore.paths) ∧
      (∀ g, g ∈ (merge a b).ignore.globs ↔ g ∈ a.ignore.globs ∨ g ∈ b.ignore.globs) ∧
      (∀ p, p ∈ (layers.foldl merge a).ignore.paths ↔ ∃ layer ∈ a :: layers, p ∈ layer.ignore.paths) ∧
      ∀ g, g ∈ (layers.foldl merge a).ignore.globs ↔ ∃ layer ∈ a :: layers, g ∈ layer.ignore.globs := by
  refine ⟨merge_assoc a b c, merge_merge_self a b, ascending_union _ _, ascending_union _ _, ?_, ?_, ?_, ?_⟩
  · exact fun _ => mem_union
  · exact fun _ => mem_union
  · exact mem_foldl_merge (·.ignore.paths) (fun _ _ => rfl) a layers
  · exact mem_foldl_merge (·.ignore.globs) (fun _ _ => rfl) a layers

end Config
end DocExcerpt
