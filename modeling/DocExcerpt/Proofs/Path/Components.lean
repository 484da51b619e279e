import DocExcerpt.Path
import DocExcerpt.Proofs.Text.Pieces
/-!
# Components of a path

Names put together with slashes are the components of the path they make (`Path.components_join`), and paths are
ordered by the first component in which they differ (`Path.Before`), which is a strict order that sorting respects
(`Path.pairwise_before_mergeSort`).
-/
namespace DocExcerpt

/-- A name that an entry of a directory can have: it is no way of writing a directory, and has no slash in it. -/
def Path.IsName (name : Text) : Prop := name ≠ [] ∧ name ≠ ['.'] ∧ name ≠ ['.', '.'] ∧ '/' ∉ name

instance : DecidablePred Path.IsName := fun name =>
  inferInstanceAs (Decidable (name ≠ [] ∧ name ≠ ['.'] ∧ name ≠ ['.', '.'] ∧ '/' ∉ name))

namespace Path

theorem IsName.slash_not_mem {name : Text} (h : IsName name) : '/' ∉ name := h.2.2.2

theorem isVoid_of_isName {name : Text} (h : IsName name) : isVoid name = false := by
  simp [isVoid, h.1, h.2.1]

/-- A path whose first part names something starts from nowhere. -/
theorem anchor_join_of_isVoid {part : Text} (hvoid : isVoid part = false) (hslash : '/' ∉ part) (parts : List Text) :
    anchor ⟨Text.join ['/'] (part :: parts)⟩ = [] := by
  simp only [isVoid, Bool.or_eq_false_iff, List.isEmpty_eq_false_iff, beq_eq_false_iff_ne] at hvoid
  obtain ⟨hne, hdot⟩ := hvoid
  have htext : ∃ rest, Text.join ['/'] (part :: parts) = part ++ rest ∧ (rest = [] ∨ ∃ t, rest = '/' :: t) := by
    cases parts with
    | nil => exact ⟨[], by rw [List.append_nil, Text.join_singleton], Or.inl rfl⟩
    | cons next parts => exact ⟨_, by rw [Text.join_cons_cons, List.append_assoc]; rfl, Or.inr ⟨_, rfl⟩⟩
  obtain ⟨rest, htext, hrest⟩ := htext
  rw [htext]
  obtain ⟨c, cs, rfl⟩ := List.exists_cons_of_ne_nil hne
  unfold anchor
  split
  · next heq => exact absurd ((List.cons.inj heq).1 ▸ List.mem_cons_self) hslash
  · next heq =>
    obtain ⟨rfl, htail⟩ := List.cons.inj heq
    exact absurd (by rw [(List.append_eq_nil_iff.1 htail).1]) hdot
  · next heq =>
    obtain ⟨rfl, htail⟩ := List.cons.inj heq
    cases cs with
    | nil => exact absurd rfl hdot
    | cons d ds => exact absurd ((List.cons.inj htail).1 ▸ by simp) hslash
  · rfl

theorem anchor_join {name : Text} {names : List Text} (h : IsName name) :
    anchor ⟨Text.join ['/'] (name :: names)⟩ = [] :=
  anchor_join_of_isVoid (isVoid_of_isName h) h.slash_not_mem names

/-- **Names put together with slashes are the components of the path they make.** -/
theorem components_join {names : List Text} (h : ∀ name ∈ names, IsName name) :
    components ⟨Text.join ['/'] names⟩ = names := by
  cases names with
  | nil => rfl
  | cons name names =>
    have hvoid : ∀ part ∈ name :: names, (!isVoid part) = true := by
      intro part hpart
      rw [isVoid_of_isName (h part hpart), Bool.not_false]
    rw [components, parts, anchor_join (h name List.mem_cons_self), List.length_nil, List.drop_zero,
      Text.pieces_join (fun part hpart => (h part hpart).slash_not_mem), List.filter_eq_self.2 hvoid]

/-- **Component by component**: at the first difference the texts decide, and a path comes before those that go
on after its last component. -/
def Before : List Text → List Text → Prop
  | _, [] => False
  | [], _ :: _ => True
  | a :: as, b :: bs => (Text.le a b = true ∧ a ≠ b) ∨ (a = b ∧ Before as bs)

theorem componentsLe_cons_cons (a b : Text) (p q : List Text) :
    componentsLe (a :: p) (b :: q) = if a = b then componentsLe p q else Text.le a b := rfl

theorem componentsLe_trans : ∀ p q r : List Text,
    componentsLe p q = true → componentsLe q r = true → componentsLe p r = true
  | [], _, _, _, _ => by simp [componentsLe]
  | _ :: _, [], _, h, _ => by simp [componentsLe] at h
  | _ :: _, _ :: _, [], _, h => by simp [componentsLe] at h
  | a :: p, b :: q, c :: r, h₁, h₂ => by
    rw [componentsLe_cons_cons] at h₁ h₂ ⊢
    by_cases hab : a = b
    · subst hab
      rw [if_pos rfl] at h₁
      by_cases hac : a = c
      · rw [if_pos hac] at h₂ ⊢
        exact componentsLe_trans p q r h₁ h₂
      · rwa [if_neg hac] at h₂ ⊢
    · rw [if_neg hab] at h₁
      by_cases hbc : b = c
      · subst hbc
        rwa [if_neg hab]
      · rw [if_neg hbc] at h₂
        by_cases hac : a = c
        · subst hac
          exact absurd (Text.le_antisymm h₁ h₂) hab
        · rw [if_neg hac]
          exact Text.le_trans h₁ h₂

theorem componentsLe_total : ∀ p q : List Text, (componentsLe p q || componentsLe q p) = true
  | [], _ => by simp [componentsLe]
  | _ :: _, [] => by simp [componentsLe]
  | a :: p, b :: q => by
    simp only [componentsLe]
    by_cases hab : a = b
    · simpa [hab] using componentsLe_total p q
    · simpa [hab, Ne.symm hab] using Text.le_total a b

theorem before_of_componentsLe : ∀ {p q : List Text}, componentsLe p q = true → p ≠ q → Before p q
  | [], [], _, hne => hne rfl
  | [], _ :: _, _, _ => trivial
  | _ :: _, [], h, _ => by simp [componentsLe] at h
  | a :: p, b :: q, h, hne => by
    simp only [componentsLe] at h
    split at h
    · next hab =>
      subst hab
      exact Or.inr ⟨rfl, before_of_componentsLe h (fun heq => hne (congrArg _ heq))⟩
    · next hab => exact Or.inl ⟨h, hab⟩

theorem not_before_self : ∀ p : List Text, ¬Before p p
  | [] => id
  | _ :: p => fun h => h.elim (fun h => h.2 rfl) (fun h => not_before_self p h.2)

/-- **Sorting puts different paths strictly one before the other.** -/
theorem pairwise_before_mergeSort {paths : List (List Text)} (h : paths.Nodup) :
    (paths.mergeSort componentsLe).Pairwise Before := by
  have hle := List.pairwise_mergeSort componentsLe_trans componentsLe_total paths
  have hne := (List.mergeSort_perm paths componentsLe).nodup_iff.2 h
  exact (hle.and hne).imp (fun h => before_of_componentsLe h.1 h.2)

end Path
end DocExcerpt
