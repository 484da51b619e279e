import DocExcerpt.Text.Basic
/-!
# The first occurrence of a word

A text is cut at the first occurrence of a word (`Text.cutAt?_eq_some_iff`), and cannot be cut when the word does not
occur in it (`Text.cutAt?_eq_none_iff`).
-/
namespace DocExcerpt
namespace Text

/-- **The first occurrence of a word in a text**, with what stands before and after it. -/
structure IsFirst (word t before after : Text) : Prop where
  eq : t = before ++ word ++ after
  le : ∀ before' after', t = before' ++ word ++ after' → before.length ≤ before'.length

variable {word t before after : Text}

theorem IsFirst.unique {before' after' : Text} (h : IsFirst word t before after)
    (h' : IsFirst word t before' after') : before = before' ∧ after = after' := by
  have hlength := Nat.le_antisymm (h.le _ _ h'.eq) (h'.le _ _ h.eq)
  have heq := h.eq.symm.trans h'.eq
  rw [List.append_assoc, List.append_assoc] at heq
  obtain ⟨hbefore, hafter⟩ := List.append_inj heq hlength
  exact ⟨hbefore, List.append_cancel_left hafter⟩

theorem isFirst_nil (word after : Text) : IsFirst word (word ++ after) [] after := ⟨rfl, fun _ _ _ => Nat.zero_le _⟩

theorem isFirst_cons_iff {c : Char} (h : after? word (c :: t) = none) :
    IsFirst word (c :: t) before after ↔ ∃ front, before = c :: front ∧ IsFirst word t front after := by
  have hno : ∀ rest, c :: t ≠ word ++ rest := by
    intro rest heq
    rw [after?_eq_some_iff.2 heq] at h
    cases h
  constructor
  · rintro ⟨heq, hle⟩
    cases before with
    | nil => exact absurd heq (hno after)
    | cons d front =>
      obtain ⟨rfl, rfl⟩ := List.cons.inj heq
      refine ⟨front, rfl, rfl, fun before' after' heq' => ?_⟩
      exact Nat.le_of_succ_le_succ (hle (c :: before') after' (by rw [heq']; rfl))
  · rintro ⟨front, rfl, heq, hle⟩
    refine ⟨congrArg (c :: ·) heq, fun before' after' heq' => ?_⟩
    cases before' with
    | nil => exact absurd heq' (hno after')
    | cons d before' => exact Nat.succ_le_succ (hle before' after' (List.cons.inj heq').2)

theorem cutAt?_of_after?_eq_some {rest : Text} (h : after? word t = some rest) : cutAt? word t = some ([], rest) := by
  unfold cutAt? cutAtFrom?
  rw [h]
  rfl

theorem cutAtFrom?_eq (word passed t : Text) :
    cutAtFrom? word passed t = (cutAt? word t).map (fun cut => (passed.reverse ++ cut.1, cut.2)) := by
  induction t generalizing passed with
  | nil =>
    unfold cutAt? cutAtFrom?
    cases after? word [] <;> simp
  | cons c t ih =>
    unfold cutAt? cutAtFrom?
    cases after? word (c :: t) with
    | some rest => simp
    | none =>
      simp only [ih, Option.map_map]
      congr 1
      funext cut
      simp

theorem cutAt?_cons {c : Char} (h : after? word (c :: t) = none) :
    cutAt? word (c :: t) = (cutAt? word t).map (fun cut => (c :: cut.1, cut.2)) := by
  rw [cutAt?]
  unfold cutAtFrom?
  rw [h]
  exact cutAtFrom?_eq word [c] t

theorem cutAt?_nil_of_after?_eq_none (h : after? word [] = none) : cutAt? word [] = none := by
  unfold cutAt? cutAtFrom?
  rw [h]

theorem cutAt?_eq_some_iff_of_after? {rest : Text} (h : after? word t = some rest) :
    cutAt? word t = some (before, after) ↔ IsFirst word t before after := by
  rw [cutAt?_of_after?_eq_some h, after?_eq_some_iff.1 h]
  constructor
  · rintro ⟨⟩
    exact isFirst_nil word after
  · intro hfirst
    obtain ⟨rfl, rfl⟩ := hfirst.unique (isFirst_nil word rest)
    rfl

/-- **A text is cut at the first occurrence of the word.** -/
theorem cutAt?_eq_some_iff : cutAt? word t = some (before, after) ↔ IsFirst word t before after := by
  induction t generalizing before with
  | nil =>
    cases hafter : after? word [] with
    | some rest => exact cutAt?_eq_some_iff_of_after? hafter
    | none =>
      rw [cutAt?_nil_of_after?_eq_none hafter]
      refine ⟨fun h => (nomatch h), fun h => ?_⟩
      obtain ⟨-, rfl, -⟩ : before = [] ∧ word = [] ∧ after = [] := by simpa using h.eq
      cases hafter
  | cons c t ih =>
    cases hafter : after? word (c :: t) with
    | some rest => exact cutAt?_eq_some_iff_of_after? hafter
    | none =>
      simp only [cutAt?_cons hafter, isFirst_cons_iff hafter, Option.map_eq_some_iff, Prod.mk.injEq, Prod.exists, ← ih]
      constructor
      · rintro ⟨front, rest, hcut, rfl, rfl⟩
        exact ⟨front, rfl, hcut⟩
      · rintro ⟨front, rfl, hcut⟩
        exact ⟨front, after, hcut, rfl, rfl⟩

theorem isSome_cutAt?_append (front word rest : Text) : (cutAt? word (front ++ word ++ rest)).isSome = true := by
  induction front with
  | nil => rw [List.nil_append, cutAt?_of_after?_eq_some (after?_eq_some_iff.2 rfl), Option.isSome_some]
  | cons c front ih =>
    rw [List.cons_append, List.cons_append]
    cases hafter : after? word (c :: (front ++ word ++ rest)) with
    | some after => rw [cutAt?_of_after?_eq_some hafter, Option.isSome_some]
    | none => rw [cutAt?_cons hafter, Option.isSome_map, ih]

/-- **A text is not cut exactly when the word does not occur in it.** -/
theorem cutAt?_eq_none_iff : cutAt? word t = none ↔ ¬word <:+: t := by
  constructor
  · rintro hcut ⟨front, rest, rfl⟩
    rw [← Option.not_isSome_iff_eq_none] at hcut
    exact hcut (isSome_cutAt?_append front word rest)
  · intro h
    refine Option.eq_none_iff_forall_not_mem.2 (fun cut hcut => h ?_)
    exact ⟨cut.1, cut.2, (cutAt?_eq_some_iff.1 hcut).eq.symm⟩

end Text
end DocExcerpt
