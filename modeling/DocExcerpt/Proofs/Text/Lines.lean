import DocExcerpt.Proofs.Text.Pieces
import DocExcerpt.Text.Line
/-!
# Carriage returns at the ends of lines

The lines of a content have no carriage return of a line end in them (`Text.WithoutReturn`), but are otherwise its
pieces between line feeds.  Joined again they are the content without these carriage returns (`Text.join_lines`).  The
rows are these pieces, too, but for the last one: it is a row only if it is not empty, and as it stands
(`Text.rows_eq_iff`).
-/
namespace DocExcerpt
namespace Text

/-- **A piece without a carriage return at its end**: one is taken off, if it ends in one. -/
inductive WithoutReturn : Text → Text → Prop where
  | ended (line : Text) : WithoutReturn (line ++ ['\r']) line
  | bare {line : Text} : ¬['\r'] <:+ line → WithoutReturn line line

/-- **The rows that the pieces between line feeds make.**  A piece that a line feed ends is a row without the carriage
return at its end; the last piece is one as it stands, or none if it is empty. -/
inductive AreRows : List Text → List Text → Prop where
  | ended : AreRows [[]] []
  | last {piece : Text} : piece ≠ [] → AreRows [piece] [piece]
  | row {piece row : Text} {pieces rows : List Text} : WithoutReturn piece row → AreRows pieces rows →
      AreRows (piece :: pieces) (row :: rows)

/-- **A content without the carriage returns at its line ends**: each one directly before a line feed or at the very
end is deleted, and nothing else. -/
def withoutReturns : Text → Text
  | [] => []
  | c :: rest =>
    if c = '\r' ∧ (rest = [] ∨ rest.head? = some '\n') then withoutReturns rest else c :: withoutReturns rest

variable {t line content : Text} {ts : List Text}

theorem before?_eq_none_iff {ending : Text} : before? ending t = none ↔ ¬ending <:+ t := by
  constructor
  · rintro h ⟨rest, rfl⟩
    rw [before?_eq_some_iff.2 rfl] at h
    cases h
  · intro h
    refine Option.eq_none_iff_forall_not_mem.2 (fun rest hrest => h ⟨rest, ?_⟩)
    exact (before?_eq_some_iff.1 hrest).symm

theorem withoutReturn_append (line : Text) : withoutReturn (line ++ ['\r']) = line := by
  rw [withoutReturn, before?_eq_some_iff.2 rfl, Option.getD_some]

theorem withoutReturn_of_not_suffix (h : ¬['\r'] <:+ t) : withoutReturn t = t := by
  rw [withoutReturn, before?_eq_none_iff.2 h, Option.getD_none]

theorem withoutReturn_eq_iff : withoutReturn t = line ↔ WithoutReturn t line := by
  constructor
  · rintro rfl
    by_cases h : ['\r'] <:+ t
    · obtain ⟨line, rfl⟩ := h
      rw [withoutReturn_append]
      exact .ended line
    · rw [withoutReturn_of_not_suffix h]
      exact .bare h
  · rintro (line | h)
    · exact withoutReturn_append line
    · exact withoutReturn_of_not_suffix h

theorem withoutReturn_cons (c : Char) (t : Text) :
    withoutReturn (c :: t) = if c = '\r' ∧ t = [] then [] else c :: withoutReturn t := by
  split
  · next h =>
    rw [h.1, h.2]
    exact withoutReturn_append []
  · next h =>
    by_cases hend : ['\r'] <:+ t
    · obtain ⟨line, rfl⟩ := hend
      rw [withoutReturn_append, ← List.cons_append, withoutReturn_append]
    · have hcons : ¬['\r'] <:+ c :: t := by
        rw [List.suffix_cons_iff, not_or]
        exact ⟨fun heq => h (by simpa [eq_comm] using heq), hend⟩
      rw [withoutReturn_of_not_suffix hend, withoutReturn_of_not_suffix hcons]

/-! ## Rows -/

theorem rows_of_pieces (h : pieces '\n' content = ts ++ [t]) :
    rows content = ts.map withoutReturn ++ if t = [] then [] else [t] := by
  rw [rows, h, List.reverse_append]
  cases t <;> simp

theorem areRows_append_iff {rs : List Text} :
    AreRows (ts ++ [t]) rs ↔ ts.map withoutReturn ++ (if t = [] then [] else [t]) = rs := by
  induction ts generalizing rs with
  | nil =>
    constructor
    · rintro (_ | hne | ⟨-, h⟩)
      · rfl
      · simp [hne]
      · cases h
    · rintro rfl
      by_cases hnil : t = []
      · rw [hnil]
        exact .ended
      · rw [if_neg hnil]
        exact .last hnil
  | cons p ts ih =>
    have hcons : AreRows (p :: (ts ++ [t])) rs ↔ ∃ row rows, WithoutReturn p row ∧ AreRows (ts ++ [t]) rows ∧
        row :: rows = rs := by
      obtain ⟨q, qs, hq⟩ := List.exists_cons_of_ne_nil (List.append_ne_nil_of_right_ne_nil ts (List.cons_ne_nil t []))
      rw [hq]
      constructor
      · rintro (_ | _ | ⟨hrow, hrows⟩)
        exact ⟨_, _, hrow, hrows, rfl⟩
      · rintro ⟨row, rows, hrow, hrows, rfl⟩
        exact .row hrow hrows
    rw [List.cons_append, hcons, List.map_cons, List.cons_append]
    simp only [ih, ← withoutReturn_eq_iff]
    constructor
    · rintro ⟨row, rows, rfl, rfl, rfl⟩
      rfl
    · rintro rfl
      exact ⟨_, _, rfl, rfl, rfl⟩

/-- **The rows of a content** are those that its pieces between line feeds make. -/
theorem rows_eq_iff {rs : List Text} : rows content = rs ↔ AreRows (pieces '\n' content) rs := by
  have hpieces := (List.dropLast_concat_getLast (pieces_ne_nil '\n' content)).symm
  rw [hpieces, areRows_append_iff, rows_of_pieces hpieces]

example : rows "a\r\nb\r".toList = ["a".toList, "b\r".toList] := by decide

/-! ## Lines -/

theorem not_mem_of_mem_lines (h : line ∈ lines content) : '\n' ∉ line := by
  obtain ⟨piece, hpiece, hline⟩ := List.mem_map.1 h
  have hfeed := not_mem_of_mem_pieces hpiece
  cases withoutReturn_eq_iff.1 hline with
  | ended => exact fun hmem => hfeed (List.mem_append_left _ hmem)
  | bare => exact hfeed

theorem length_lines (content : Text) : (lines content).length = (pieces '\n' content).length := List.length_map _

theorem lines_ne_nil (content : Text) : lines content ≠ [] :=
  fun h => pieces_ne_nil '\n' content (List.map_eq_nil_iff.1 h)

/-- The first piece is empty exactly when a separator or nothing at all comes first. -/
theorem eq_nil_of_pieces_iff {sep : Char} {p : Text} {ps : List Text} (h : pieces sep t = p :: ps) :
    p = [] ↔ t = [] ∨ t.head? = some sep := by
  cases t with
  | nil =>
    cases h
    simp
  | cons c t =>
    obtain ⟨q, qs, hq⟩ := List.exists_cons_of_ne_nil (pieces_ne_nil sep t)
    by_cases hc : c = sep
    · subst hc
      rw [pieces_cons_self] at h
      cases h
      simp
    · rw [pieces_cons_of_ne hc hq] at h
      cases h
      simp [hc]

theorem join_cons_char (sep : Text) (c : Char) (t : Text) (ts : List Text) :
    join sep ((c :: t) :: ts) = c :: join sep (t :: ts) := by
  cases ts with
  | nil => rw [join_singleton, join_singleton]
  | cons u ts => rw [join_cons_cons, join_cons_cons, List.cons_append, List.cons_append]

theorem join_nil_cons (sep : Char) {ts : List Text} (h : ts ≠ []) : join [sep] ([] :: ts) = sep :: join [sep] ts := by
  obtain ⟨t, ts, rfl⟩ := List.exists_cons_of_ne_nil h
  exact join_cons_cons [sep] [] t ts

/-- **The lines of a content, joined, are the content without the carriage returns at its line ends.** -/
theorem join_lines (content : Text) : join ['\n'] (lines content) = withoutReturns content := by
  induction content with
  | nil => rfl
  | cons c t ih =>
    obtain ⟨p, ps, hp⟩ := List.exists_cons_of_ne_nil (pieces_ne_nil '\n' t)
    have hlines : lines t = withoutReturn p :: ps.map withoutReturn := by rw [lines, hp, List.map_cons]
    by_cases hfeed : c = '\n'
    · have hcons : lines (c :: t) = [] :: lines t := by
        rw [lines, hfeed, pieces_cons_self, List.map_cons, ← lines]
        rfl
      rw [withoutReturns, if_neg (by simp [hfeed]), hcons, join_nil_cons '\n' (lines_ne_nil t), ih, hfeed]
    · have hcons : lines (c :: t) = withoutReturn (c :: p) :: ps.map withoutReturn := by
        rw [lines, pieces_cons_of_ne hfeed hp, List.map_cons]
      by_cases hreturn : c = '\r' ∧ p = []
      · -- the return ends the first line, and the rest begins with an empty one
        have hend := (eq_nil_of_pieces_iff hp).1 hreturn.2
        rw [withoutReturns, if_pos ⟨hreturn.1, hend⟩, ← ih, hcons, hlines, withoutReturn_cons, if_pos hreturn,
          hreturn.2]
        rfl
      · rw [withoutReturns, if_neg (fun h => hreturn ⟨h.1, (eq_nil_of_pieces_iff hp).2 h.2⟩), ← ih, hcons, hlines,
          withoutReturn_cons, if_neg hreturn, join_cons_char]

theorem withoutReturns_eq_self (h : ∀ piece ∈ pieces '\n' content, ¬['\r'] <:+ piece) :
    withoutReturns content = content := by
  have hlines : lines content = pieces '\n' content :=
    (List.map_congr_left (fun piece hpiece => withoutReturn_of_not_suffix (h piece hpiece))).trans (List.map_id _)
  rw [← join_lines, hlines, join_pieces]

end Text
end DocExcerpt
