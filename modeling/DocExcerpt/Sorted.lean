/-!
# Sorted lists without repeats

`sortedSet` is the canonical list of the members of a list: in order, each once (`mem_sortedSet`,
`pairwise_sortedSet`).
-/
namespace DocExcerpt

/-- A list without the elements that repeat their right neighbour. -/
def dropRepeats {α : Type} [DecidableEq α] (l : List α) : List α :=
  l.foldr (fun a rest => if rest.head? = some a then rest else a :: rest) []

theorem dropRepeats_cons {α : Type} [DecidableEq α] (a : α) (l : List α) :
    dropRepeats (a :: l) = if (dropRepeats l).head? = some a then dropRepeats l else a :: dropRepeats l := rfl

theorem mem_dropRepeats {α : Type} [DecidableEq α] {a : α} {l : List α} : a ∈ dropRepeats l ↔ a ∈ l := by
  induction l generalizing a with
  | nil => simp [dropRepeats]
  | cons b l ih =>
    rw [dropRepeats_cons]
    split
    · next h =>
      have hb : b ∈ l := ih.1 (List.mem_of_mem_head? h)
      rw [ih, List.mem_cons]
      exact ⟨Or.inr, fun hab => hab.elim (fun heq => heq ▸ hb) id⟩
    · simp [ih]

/-- The members of a list in order, each once. -/
def sortedSet {α : Type} [DecidableEq α] (le : α → α → Bool) (l : List α) : List α :=
  dropRepeats (l.mergeSort le)

theorem mem_sortedSet {α : Type} [DecidableEq α] {le : α → α → Bool} {a : α} {l : List α} :
    a ∈ sortedSet le l ↔ a ∈ l := by
  rw [sortedSet, mem_dropRepeats, List.mem_mergeSort]

/-- In a linear order the members come strictly one after the other. -/
theorem pairwise_sortedSet {α : Type} [DecidableEq α] (le : α → α → Bool)
    (trans : ∀ a b c, le a b = true → le b c = true → le a c = true)
    (total : ∀ a b, (le a b || le b a) = true)
    (antisymm : ∀ a b, le a b = true → le b a = true → a = b) (l : List α) :
    (sortedSet le l).Pairwise (fun a b => le a b = true ∧ a ≠ b) := by
  have hs := List.pairwise_mergeSort trans total l
  rw [sortedSet]
  generalize l.mergeSort le = m at hs
  induction m with
  | nil => exact List.Pairwise.nil
  | cons a m ih =>
    obtain ⟨ha, hm⟩ := List.pairwise_cons.1 hs
    have ih := ih hm
    rw [dropRepeats_cons]
    split
    · exact ih
    · next hne =>
      refine List.pairwise_cons.2 ⟨fun b hb => ⟨ha b (mem_dropRepeats.1 hb), ?_⟩, ih⟩
      rintro rfl
      cases hd : dropRepeats m with
      | nil => simp [hd] at hb
      | cons c rest =>
        rw [hd] at hb hne ih
        have hc : c ≠ a := by simpa using hne
        have hac := ha c (mem_dropRepeats.1 (hd ▸ List.mem_cons_self))
        rcases List.mem_cons.1 hb with h | h
        · exact hc h.symm
        · exact hc (antisymm c a ((List.pairwise_cons.1 ih).1 a h).1 hac)

end DocExcerpt
