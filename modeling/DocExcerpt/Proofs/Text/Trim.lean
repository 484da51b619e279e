import Mathlib.Data.List.TakeWhile
import DocExcerpt.Proofs.Text.Pieces
import DocExcerpt.Text.Blank
/-!
# Trimming

Trimming takes the blanks around a text off and nothing else: blanks put around a text do not change what trimming
gives (`trim_append`), a second trimming does nothing (`trim_trim`), and the trimmed pieces of a text are those of
the trimmed text (`map_trim_pieces_trim`).
-/
namespace DocExcerpt
namespace Text

def IsBlankText (t : Text) : Prop := ∀ c ∈ t, isBlank c = true

instance : DecidablePred IsBlankText := fun t => List.decidableBAll (isBlank · = true) t

theorem isBlankText_nil : IsBlankText [] := fun _ hc => absurd hc List.not_mem_nil

theorem IsBlankText.reverse {t : Text} (h : IsBlankText t) : IsBlankText t.reverse :=
  fun c hc => h c (List.mem_reverse.1 hc)

theorem trimStart_cons (c : Char) (t : Text) : trimStart (c :: t) = if isBlank c then trimStart t else c :: t := by
  rw [trimStart, List.dropWhile_cons, ← trimStart]

theorem trimEnd_cons (c : Char) (t : Text) :
    trimEnd (c :: t) = if trimEnd t = [] ∧ isBlank c then [] else c :: trimEnd t := by
  simp only [trimEnd, List.reverse_cons, List.dropWhile_append, List.isEmpty_iff, List.reverse_eq_nil_iff]
  by_cases ht : t.reverse.dropWhile isBlank = []
  · by_cases hc : isBlank c = true <;> simp [ht, hc]
  · simp [ht]

theorem trimStart_append {left t : Text} (h : IsBlankText left) : trimStart (left ++ t) = trimStart t :=
  List.dropWhile_append_of_pos h

theorem trimEnd_append {t right : Text} (h : IsBlankText right) : trimEnd (t ++ right) = trimEnd t := by
  rw [trimEnd, List.reverse_append, List.dropWhile_append_of_pos h.reverse, trimEnd]

theorem exists_eq_append_trimStart (t : Text) : ∃ left, IsBlankText left ∧ t = left ++ trimStart t :=
  ⟨t.takeWhile isBlank, fun _ hc => List.mem_takeWhile_imp hc, List.takeWhile_append_dropWhile.symm⟩

theorem exists_eq_trimEnd_append (t : Text) : ∃ right, IsBlankText right ∧ t = trimEnd t ++ right := by
  obtain ⟨left, hleft, ht⟩ := exists_eq_append_trimStart t.reverse
  refine ⟨left.reverse, hleft.reverse, ?_⟩
  have h := congrArg List.reverse ht
  rwa [List.reverse_reverse, List.reverse_append] at h

theorem trimStart_trimEnd (t : Text) : trimStart (trimEnd t) = trimEnd (trimStart t) := by
  induction t with
  | nil => rfl
  | cons c t ih =>
    rw [trimEnd_cons, trimStart_cons]
    by_cases hc : isBlank c = true
    · by_cases ht : trimEnd t = []
      · rw [ht] at ih
        simpa [ht, hc] using ih
      · simpa [ht, hc, trimStart_cons] using ih
    · simp [hc, trimStart_cons, trimEnd_cons]

theorem trim_eq_trimStart_trimEnd (t : Text) : trim t = trimStart (trimEnd t) := (trimStart_trimEnd t).symm

theorem trimStart_trimStart (t : Text) : trimStart (trimStart t) = trimStart t := by
  obtain ⟨left, hleft, ht⟩ := exists_eq_append_trimStart t
  conv => rhs; rw [ht, trimStart_append hleft]

theorem trimEnd_trimEnd (t : Text) : trimEnd (trimEnd t) = trimEnd t := by
  obtain ⟨right, hright, ht⟩ := exists_eq_trimEnd_append t
  conv => rhs; rw [ht, trimEnd_append hright]

/-- **A trimmed text is not changed by trimming.** -/
theorem trim_trim (t : Text) : trim (trim t) = trim t := by
  rw [trim, trim, trimStart_trimEnd, trimStart_trimStart, trimEnd_trimEnd]

/-- **Blanks around a text are no part of what trimming gives.** -/
theorem trim_append {left t right : Text} (hl : IsBlankText left) (hr : IsBlankText right) :
    trim (left ++ t ++ right) = trim t := by
  rw [trim_eq_trimStart_trimEnd, trimEnd_append hr, ← trim_eq_trimStart_trimEnd, trim, trimStart_append hl, trim]

theorem exists_eq_append_trim (t : Text) :
    ∃ left right, IsBlankText left ∧ IsBlankText right ∧ t = left ++ trim t ++ right := by
  obtain ⟨left, hleft, hl⟩ := exists_eq_append_trimStart t
  obtain ⟨right, hright, hr⟩ := exists_eq_trimEnd_append (trimStart t)
  exact ⟨left, right, hleft, hright, by rw [trim, List.append_assoc, ← hr, ← hl]⟩

theorem trim_eq_self {t : Text} (h : ∀ c ∈ t, isBlank c = false) : trim t = t := by
  have hno : ∀ {u : Text}, (∀ c ∈ u, isBlank c = false) → u.dropWhile isBlank = u := by
    intro u hu
    cases u with
    | nil => rfl
    | cons c u => rw [List.dropWhile_cons, if_neg (by simp [hu c List.mem_cons_self])]
  rw [trim, trimStart, hno h, trimEnd, hno (fun c hc => h c (List.mem_reverse.1 hc)), List.reverse_reverse]

theorem trim_eq_nil_iff {t : Text} : trim t = [] ↔ IsBlankText t := by
  constructor
  · intro h
    obtain ⟨left, right, hl, hr, ht⟩ := exists_eq_append_trim t
    rw [h, List.append_nil] at ht
    rw [ht]
    exact fun c hc => (List.mem_append.1 hc).elim (hl c) (hr c)
  · intro h
    have htrim := trim_append isBlankText_nil h (t := [])
    rwa [List.nil_append, List.nil_append] at htrim

/-- Around a character that is no blank, the two sides are trimmed at their outer ends. -/
theorem trim_append_cons {c : Char} (hc : isBlank c = false) (left right : Text) :
    trim (left ++ c :: right) = trimStart left ++ c :: trimEnd right := by
  have hright : ∀ u, trimEnd (u ++ c :: right) = u ++ c :: trimEnd right := by
    intro u
    induction u with
    | nil => simp [trimEnd_cons, hc]
    | cons d u ih => simp [trimEnd_cons, ih]
  have hleft : trimStart (left ++ c :: trimEnd right) = trimStart left ++ c :: trimEnd right := by
    induction left with
    | nil => simp [hc, trimStart]
    | cons d left ih =>
      rw [List.cons_append, trimStart_cons, trimStart_cons]
      split <;> simp [ih]
  rw [trim_eq_trimStart_trimEnd, hright, hleft]

/-! ## The ends of a trimmed text -/

theorem isBlank_head?_trimStart (t : Text) : ∀ c ∈ (trimStart t).head?, isBlank c = false := by
  intro c hc
  have h := List.head?_dropWhile_not isBlank t
  rw [trimStart, Option.mem_def] at hc
  rwa [hc] at h

theorem isBlank_getLast?_trimEnd (t : Text) : ∀ c ∈ (trimEnd t).getLast?, isBlank c = false := by
  intro c hc
  rw [trimEnd, List.getLast?_reverse] at hc
  exact isBlank_head?_trimStart t.reverse c hc

theorem isBlank_head?_trim (t : Text) : ∀ c ∈ (trim t).head?, isBlank c = false := by
  rw [trim_eq_trimStart_trimEnd]
  exact isBlank_head?_trimStart _

theorem trimStart_eq_self {t : Text} (h : ∀ c ∈ t.head?, isBlank c = false) : trimStart t = t := by
  cases t with
  | nil => rfl
  | cons c t => rw [trimStart_cons, if_neg (by simp [h c rfl])]

theorem trimEnd_eq_self {t : Text} (h : ∀ c ∈ t.getLast?, isBlank c = false) : trimEnd t = t := by
  rw [← List.head?_reverse] at h
  have hreverse := trimStart_eq_self h
  rw [trimStart] at hreverse
  rw [trimEnd, hreverse, List.reverse_reverse]

/-! ## The pieces of a trimmed text -/

theorem IsBlankText.not_mem {t : Text} (h : IsBlankText t) {sep : Char} (hsep : isBlank sep = false) : sep ∉ t := by
  intro hmem
  rw [h sep hmem] at hsep
  cases hsep

theorem mem_trim_iff {c : Char} (hc : isBlank c = false) {t : Text} : c ∈ trim t ↔ c ∈ t := by
  obtain ⟨left, right, hleft, hright, ht⟩ := exists_eq_append_trim t
  constructor
  · intro h
    rw [ht]
    exact List.mem_append_left _ (List.mem_append_right _ h)
  · intro h
    rw [ht, List.mem_append, List.mem_append] at h
    exact (h.resolve_right (hright.not_mem hc)).resolve_left (hleft.not_mem hc)

theorem map_trimStart_pieces_append {sep : Char} (hsep : isBlank sep = false) {left : Text} (h : IsBlankText left)
    (t : Text) : (pieces sep (left ++ t)).map trimStart = (pieces sep t).map trimStart := by
  induction left with
  | nil => rfl
  | cons c left ih =>
    have hc : isBlank c = true := h c List.mem_cons_self
    have hne : c ≠ sep := fun heq => by rw [heq, hsep] at hc; cases hc
    obtain ⟨p, ps, hp⟩ := List.exists_cons_of_ne_nil (pieces_ne_nil sep (left ++ t))
    rw [List.cons_append, pieces_cons_of_ne hne hp, ← ih (fun d hd => h d (List.mem_cons_of_mem _ hd)), hp]
    simp [trimStart_cons, hc]

theorem map_trimEnd_pieces_append {sep : Char} (hsep : isBlank sep = false) {right : Text} (h : IsBlankText right)
    (t : Text) : (pieces sep (t ++ right)).map trimEnd = (pieces sep t).map trimEnd := by
  induction t with
  | nil =>
    have hnil := trimEnd_append (t := []) h
    rw [List.nil_append, pieces_of_not_mem (h.not_mem hsep), pieces_of_not_mem List.not_mem_nil]
    simpa using hnil
  | cons c t ih =>
    by_cases hc : c = sep
    · subst hc
      rw [List.cons_append, pieces_cons_self, pieces_cons_self, List.map_cons, List.map_cons, ih]
    · obtain ⟨p, ps, hp⟩ := List.exists_cons_of_ne_nil (pieces_ne_nil sep t)
      obtain ⟨q, qs, hq⟩ := List.exists_cons_of_ne_nil (pieces_ne_nil sep (t ++ right))
      rw [hp, hq, List.map_cons, List.map_cons, List.cons.injEq] at ih
      rw [List.cons_append, pieces_cons_of_ne hc hp, pieces_cons_of_ne hc hq, List.map_cons, List.map_cons,
        trimEnd_cons, trimEnd_cons, ih.1, ih.2]

/-- **The trimmed pieces of a text are those of the trimmed text.** -/
theorem map_trim_pieces_trim {sep : Char} (hsep : isBlank sep = false) (t : Text) :
    (pieces sep (trim t)).map trim = (pieces sep t).map trim := by
  have hstart : ∀ l : List Text, l.map trim = (l.map trimStart).map trimEnd := fun l => by
    rw [List.map_map]; rfl
  have hend : ∀ l : List Text, l.map trim = (l.map trimEnd).map trimStart := fun l => by
    rw [List.map_map]; exact List.map_congr_left (fun u _ => trim_eq_trimStart_trimEnd u)
  obtain ⟨left, right, hl, hr, ht⟩ := exists_eq_append_trim t
  calc (pieces sep (trim t)).map trim
      = ((pieces sep (trim t)).map trimStart).map trimEnd := hstart _
    _ = (pieces sep (left ++ trim t)).map trim := by rw [← map_trimStart_pieces_append hsep hl, ← hstart]
    _ = ((pieces sep (left ++ trim t)).map trimEnd).map trimStart := hend _
    _ = (pieces sep (left ++ trim t ++ right)).map trim := by rw [← map_trimEnd_pieces_append hsep hr, ← hend]
    _ = (pieces sep t).map trim := by rw [← ht]

end Text
end DocExcerpt
