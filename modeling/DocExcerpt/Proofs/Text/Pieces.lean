import DocExcerpt.Text.Basic
/-!
# Pieces between separators

Cutting a text at a separator and joining texts with it undo each other: a text is its pieces joined
(`Text.join_pieces`), and texts without the separator are the pieces of what they are joined to
(`Text.pieces_join`).
-/
namespace DocExcerpt
namespace Text

theorem join_singleton (sep t : Text) : join sep [t] = t := List.intercalate_singleton

theorem join_cons_cons (sep t u : Text) (ts : List Text) : join sep (t :: u :: ts) = t ++ sep ++ join sep (u :: ts) :=
  List.intercalate_cons_cons

theorem pieces_of_not_mem {sep : Char} {t : Text} (h : sep ∉ t) : pieces sep t = [t] := by
  induction t with
  | nil => rfl
  | cons c t ih =>
    rw [List.mem_cons, not_or] at h
    exact pieces_cons_of_ne (Ne.symm h.1) (ih h.2)

/-- The last of the texts joined comes after a separator. -/
theorem join_concat (sep : Char) {ts : List Text} (hts : ts ≠ []) (t : Text) :
    join [sep] (ts ++ [t]) = join [sep] ts ++ sep :: t := by
  induction ts with
  | nil => exact absurd rfl hts
  | cons u ts ih =>
    cases ts with
    | nil =>
      rw [List.singleton_append, join_cons_cons, join_singleton, join_singleton, List.append_assoc]
      rfl
    | cons v ts =>
      have h := ih (List.cons_ne_nil v ts)
      rw [List.cons_append] at h
      rw [List.cons_append, List.cons_append, join_cons_cons, join_cons_cons, h, List.append_assoc, List.append_assoc,
        List.append_assoc]

theorem exists_cons_join_eq (sep : Char) (ts : List Text) (t : Text) :
    ∃ front, sep :: join [sep] (ts ++ [t]) = front ++ sep :: t := by
  by_cases hts : ts = []
  · rw [hts]
    exact ⟨[], congrArg (sep :: ·) (join_singleton [sep] t)⟩
  · exact ⟨sep :: join [sep] ts, by rw [join_concat sep hts, List.cons_append]⟩

theorem head?_join (sep : Char) {t : Text} (ht : t ≠ []) (ts : List Text) :
    (join [sep] (t :: ts)).head? = t.head? := by
  obtain ⟨c, cs, rfl⟩ := List.exists_cons_of_ne_nil ht
  cases ts with
  | nil => rw [join_singleton]
  | cons u ts => rw [join_cons_cons, List.append_assoc, List.cons_append, List.head?_cons, List.head?_cons]

theorem join_ne_nil (sep : Char) {ts : List Text} (hne : ts ≠ []) (hts : ∀ t ∈ ts, t ≠ []) : join [sep] ts ≠ [] := by
  obtain ⟨t, ts, rfl⟩ := List.exists_cons_of_ne_nil hne
  have ht := hts t List.mem_cons_self
  intro hnil
  have hhead := head?_join sep ht ts
  rw [hnil] at hhead
  exact ht (List.head?_eq_none_iff.1 hhead.symm)

/-- A character of texts joined is the separator or one of theirs. -/
theorem mem_join {sep c : Char} {ts : List Text} (h : c ∈ join [sep] ts) : c = sep ∨ ∃ t ∈ ts, c ∈ t := by
  induction ts with
  | nil => cases h
  | cons t ts ih =>
    cases ts with
    | nil =>
      rw [join_singleton] at h
      exact Or.inr ⟨t, List.mem_cons_self, h⟩
    | cons u ts =>
      rw [join_cons_cons, List.append_assoc, List.mem_append, List.singleton_append, List.mem_cons] at h
      rcases h with h | rfl | h
      · exact Or.inr ⟨t, List.mem_cons_self, h⟩
      · exact Or.inl rfl
      · rcases ih h with rfl | ⟨v, hv, hc⟩
        · exact Or.inl rfl
        · exact Or.inr ⟨v, List.mem_cons_of_mem _ hv, hc⟩

theorem getLast?_join (sep : Char) (ts : List Text) {t : Text} (ht : t ≠ []) :
    (join [sep] (ts ++ [t])).getLast? = t.getLast? := by
  have hlast : t.getLast?.isSome = true := List.getLast?_isSome.2 ht
  by_cases hts : ts = []
  · rw [hts]
    exact congrArg List.getLast? (join_singleton [sep] t)
  · rw [join_concat sep hts, List.getLast?_append, ← List.singleton_append, List.getLast?_append,
      Option.or_of_isSome hlast, Option.or_of_isSome hlast]

/-- Texts joined in two goes are joined. -/
theorem join_append_join (sep : Char) (ts : List Text) {us : List Text} (hus : us ≠ []) :
    join [sep] (ts ++ [join [sep] us]) = join [sep] (ts ++ us) := by
  induction ts with
  | nil => exact join_singleton [sep] _
  | cons t ts ih =>
    obtain ⟨v, vs, hv⟩ := List.exists_cons_of_ne_nil (List.append_ne_nil_of_right_ne_nil ts hus)
    obtain ⟨w, ws, hw⟩ := List.exists_cons_of_ne_nil
      (List.append_ne_nil_of_right_ne_nil ts (List.cons_ne_nil (join [sep] us) []))
    rw [hv, hw] at ih
    rw [List.cons_append, List.cons_append, hv, hw, join_cons_cons, join_cons_cons, ih]

theorem join_append (sep : Char) {ts us : List Text} (hts : ts ≠ []) (hus : us ≠ []) :
    join [sep] (ts ++ us) = join [sep] ts ++ sep :: join [sep] us := by
  rw [← join_append_join sep ts hus, join_concat sep hts]

theorem pieces_append (sep : Char) (t rest : Text) :
    pieces sep (t ++ sep :: rest) = pieces sep t ++ pieces sep rest := by
  induction t with
  | nil => exact pieces_cons_self sep rest
  | cons c t ih =>
    rw [List.cons_append]
    by_cases h : c = sep
    · rw [h, pieces_cons_self, pieces_cons_self, ih, List.cons_append]
    · obtain ⟨p, ps, hp⟩ := List.exists_cons_of_ne_nil (pieces_ne_nil sep t)
      rw [hp, List.cons_append] at ih
      rw [pieces_cons_of_ne h ih, pieces_cons_of_ne h hp, List.cons_append]

theorem pieces_append_cons {sep : Char} {t : Text} (h : sep ∉ t) (rest : Text) :
    pieces sep (t ++ sep :: rest) = t :: pieces sep rest := by
  rw [pieces_append, pieces_of_not_mem h, List.singleton_append]

/-- **Texts without the separator are the pieces of what they are joined to.** -/
theorem pieces_join {sep : Char} {t : Text} {ts : List Text} (h : ∀ u ∈ t :: ts, sep ∉ u) :
    pieces sep (join [sep] (t :: ts)) = t :: ts := by
  induction ts generalizing t with
  | nil =>
    rw [join_singleton, pieces_of_not_mem (h t List.mem_cons_self)]
  | cons u ts ih =>
    rw [join_cons_cons, List.append_assoc, List.singleton_append, pieces_append_cons (h t List.mem_cons_self),
      ih (fun v hv => h v (List.mem_cons_of_mem _ hv))]

theorem pieces_join_of_ne_nil {sep : Char} {ts : List Text} (hne : ts ≠ []) (h : ∀ t ∈ ts, sep ∉ t) :
    pieces sep (join [sep] ts) = ts := by
  obtain ⟨t, ts, rfl⟩ := List.exists_cons_of_ne_nil hne
  exact pieces_join h

end Text
end DocExcerpt
