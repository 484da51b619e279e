import DocExcerpt.Proofs.Excerpt.Kept
/-!
# The gutter of an excerpt

With its gutter an excerpt is a row for each line: the number of the line, filled up with blanks to the width of the
largest number, a bar and the line (`Excerpt.IsRow`).  So the gutter can be read (`Excerpt.rowNumber`) and taken off
again (`Excerpt.rowLine`), which gives the excerpt back (`Excerpt.gutter_lists`).
-/
namespace DocExcerpt
namespace Excerpt

/-- **A row**: blanks and a number, together as wide as the gutter, a bar between blanks, and a line. -/
def IsRow (width number : Nat) (line row : Text) : Prop :=
  ∃ blanks, (∀ c ∈ blanks, c = ' ') ∧ blanks.length + (Text.decimal number).length = width ∧
    row = blanks ++ Text.decimal number ++ [' ', '│', ' '] ++ line

/-- The number that stands in a gutter of the given width. -/
def rowNumber (width : Nat) (row : Text) : Nat := Text.ofDigits ((row.take width).dropWhile (· == ' '))

/-- A row without the gutter and the bar. -/
def rowLine (width : Nat) (row : Text) : Text := row.drop (width + 3)

/-- **The listing of an excerpt**: one row for each line, from which numbers and text can be read. -/
structure IsListing (e : Excerpt) (width : Nat) (rows : List Text) : Prop where
  length_eq : rows.length = e.numbers.length
  isRow : List.Forall₂ (fun line row => IsRow width line.1 line.2 row) (e.numbers.zip (Text.pieces '\n' e.text)) rows
  numbers_eq : rows.map (rowNumber width) = e.numbers
  text_eq : Text.join ['\n'] (rows.map (rowLine width)) = e.text

/-! ## Rows -/

variable {width number : Nat} {line row : Text}

theorem length_decimal_le {m n : Nat} (h : m ≤ n) : (Text.decimal m).length ≤ (Text.decimal n).length := by
  have hn : n < 10 ^ (Text.decimal n).length :=
    (Nat.length_toDigits_le_iff (by decide) Nat.length_toDigits_pos).1 (Nat.le_refl _)
  exact (Nat.length_toDigits_le_iff (by decide) Nat.length_toDigits_pos).2 (Nat.lt_of_le_of_lt h hn)

theorem isRow_alignRight (h : (Text.decimal number).length ≤ width) (line : Text) :
    IsRow width number line (alignRight width (Text.decimal number) ++ bar ++ line) := by
  refine ⟨List.replicate (width - (Text.decimal number).length) ' ', fun c hc => List.eq_of_mem_replicate hc, ?_, rfl⟩
  rw [List.length_replicate]
  omega

theorem dropWhile_blank_decimal (number : Nat) :
    (Text.decimal number).dropWhile (· == ' ') = Text.decimal number := by
  have hdigit : ∀ c ∈ Text.decimal number, c.isDigit = true := fun _ hc => Text.isDigit_of_mem_decimal hc
  cases hdigits : Text.decimal number with
  | nil => rfl
  | cons c digits =>
    have hblank : ¬(c == ' ') = true := by
      intro heq
      have hc := hdigit c (hdigits ▸ List.mem_cons_self)
      rw [beq_iff_eq.1 heq] at hc
      cases hc
    rw [List.dropWhile_cons, if_neg hblank]

theorem IsRow.rowNumber_eq (h : IsRow width number line row) : rowNumber width row = number := by
  obtain ⟨blanks, hblanks, hwidth, rfl⟩ := h
  rw [rowNumber, List.append_assoc, List.take_left' (by rw [List.length_append, hwidth]),
    List.dropWhile_append_of_pos (fun c hc => beq_iff_eq.2 (hblanks c hc)), dropWhile_blank_decimal,
    Text.ofDigits_decimal]

theorem IsRow.rowLine_eq (h : IsRow width number line row) : rowLine width row = line := by
  obtain ⟨blanks, -, hwidth, rfl⟩ := h
  exact List.drop_left' (by rw [List.length_append, List.length_append, hwidth]; rfl)

theorem IsRow.not_mem (h : IsRow width number line row) (hline : '\n' ∉ line) : '\n' ∉ row := by
  obtain ⟨blanks, hblanks, -, rfl⟩ := h
  simp only [List.mem_append, not_or]
  refine ⟨⟨⟨fun hc => ?_, fun hc => ?_⟩, by decide⟩, hline⟩
  · cases hblanks '\n' hc
  · cases Text.isDigit_of_mem_decimal hc

/-! ## All rows of an excerpt -/

variable {content : Text} {selector? : Option Selector} {e : Excerpt}

/-- The lines of an excerpt, each with its number before it. -/
def numberedLines (e : Excerpt) : List (Nat × Text) := e.numbers.zip (Text.pieces '\n' e.text)

theorem eq_of_forall₂_isRow {lines : List (Nat × Text)} {rows : List Text}
    (h : List.Forall₂ (fun line row => IsRow width line.1 line.2 row) lines rows) :
    rows.map (rowNumber width) = lines.map Prod.fst ∧ rows.map (rowLine width) = lines.map Prod.snd := by
  induction h with
  | nil => exact ⟨rfl, rfl⟩
  | cons hrow _ ih => simp only [List.map_cons, hrow.rowNumber_eq, hrow.rowLine_eq, ih.1, ih.2, and_self]

/-- **An excerpt with a number for each line is listed by rows that fit its lines.** -/
theorem isListing_of_forall₂ (hlength : (Text.pieces '\n' e.text).length = e.numbers.length) {rows : List Text}
    (h : List.Forall₂ (fun line row => IsRow width line.1 line.2 row) (numberedLines e) rows) :
    IsListing e width rows := by
  obtain ⟨hnumbers, hlines⟩ := eq_of_forall₂_isRow h
  rw [numberedLines, List.map_fst_zip (Nat.le_of_eq hlength.symm)] at hnumbers
  rw [numberedLines, List.map_snd_zip (Nat.le_of_eq hlength)] at hlines
  refine ⟨?_, h, hnumbers, ?_⟩
  · rw [← hnumbers, List.length_map]
  · rw [hlines, Text.join_pieces]

/-- **The rows of the gutter fit the lines**, when no number is wider than it. -/
theorem forall₂_pieces_gutter (hwidth : ∀ n ∈ e.numbers, (Text.decimal n).length ≤ e.gutterWidth)
    (hne : numberedLines e ≠ []) :
    List.Forall₂ (fun line row => IsRow e.gutterWidth line.1 line.2 row) (numberedLines e)
      (Text.pieces '\n' e.gutter) := by
  have hrow : ∀ line ∈ numberedLines e, IsRow e.gutterWidth line.1 line.2
      (alignRight e.gutterWidth (Text.decimal line.1) ++ bar ++ line.2) :=
    fun line hline => isRow_alignRight (hwidth line.1 (List.of_mem_zip hline).1) line.2
  have hpieces : Text.pieces '\n' e.gutter = (numberedLines e).map (fun line =>
      alignRight e.gutterWidth (Text.decimal line.1) ++ bar ++ line.2) := by
    refine Text.pieces_join_of_ne_nil (fun hnil => hne (List.map_eq_nil_iff.1 hnil)) (fun row hmem => ?_)
    obtain ⟨line, hline, rfl⟩ := List.mem_map.1 hmem
    exact (hrow line hline).not_mem (Text.not_mem_of_mem_pieces (List.of_mem_zip hline).2)
  rw [hpieces]
  exact List.forall₂_map_right_iff.2 (List.forall₂_same.2 hrow)

theorem pairwise_numbers (h : ofContent content selector? = .ok e) : e.numbers.Pairwise (· < ·) := by
  cases selector? with
  | none =>
    rw [ofContent_none] at h
    cases h
    exact List.pairwise_lt_range'
  | some selector =>
    obtain ⟨numbers, hres, hkeeps⟩ := ofContent_some_eq_ok_iff.1 h
    rw [hkeeps.numbers_eq]
    exact Selector.pairwise_of_resolve hres

theorem length_pieces_text (h : ofContent content selector? = .ok e) (hne : e.numbers ≠ []) :
    (Text.pieces '\n' e.text).length = e.numbers.length := by
  cases selector? with
  | none =>
    rw [ofContent_none] at h
    cases h
    rw [List.length_range', lineCount]
  | some selector =>
    obtain ⟨numbers, -, hkeeps⟩ := ofContent_some_eq_ok_iff.1 h
    rw [hkeeps.numbers_eq] at hne ⊢
    exact (hkeeps.lines hne).length_eq.symm

theorem le_of_getLast? {numbers : List Nat} (h : numbers.Pairwise (· < ·)) {last : Nat}
    (hlast : numbers.getLast? = some last) {n : Nat} (hn : n ∈ numbers) : n ≤ last := by
  obtain ⟨front, rfl⟩ := List.getLast?_eq_some_iff.1 hlast
  rcases List.mem_append.1 hn with hn | hn
  · exact Nat.le_of_lt ((List.pairwise_append.1 h).2.2 n hn last (List.mem_singleton_self last))
  · exact Nat.le_of_eq (List.mem_singleton.1 hn)

/-- The last number is the largest, and the gutter as wide as it. -/
theorem exists_largest (h : ofContent content selector? = .ok e) (hne : e.numbers ≠ []) :
    ∃ largest ∈ e.numbers, (∀ n ∈ e.numbers, n ≤ largest) ∧ e.gutterWidth = (Text.decimal largest).length := by
  have hlast := List.getLast?_eq_some_getLast hne
  refine ⟨e.numbers.getLast hne, List.getLast_mem hne, fun n hn => le_of_getLast? (pairwise_numbers h) hlast hn, ?_⟩
  rw [gutterWidth, hlast]

/-- **The gutter can be read and taken off.**  It is as wide as the largest number, and the rows that it gives list the
excerpt; an excerpt without lines has no rows. -/
theorem gutter_lists (content : Text) (selector? : Option Selector) (e : Excerpt)
    (h : ofContent content selector? = .ok e) :
    (e.numbers = [] → e.gutter = []) ∧
      (e.numbers ≠ [] → ∃ largest ∈ e.numbers, (∀ n ∈ e.numbers, n ≤ largest) ∧
        IsListing e (Text.decimal largest).length (Text.pieces '\n' e.gutter)) := by
  constructor
  · intro hnil
    rw [gutter, hnil]
    rfl
  · intro hne
    obtain ⟨largest, hmem, hle, hwidth⟩ := exists_largest h hne
    have hlength := length_pieces_text h hne
    have hlines : numberedLines e ≠ [] := by
      rw [numberedLines, Ne, List.zip_eq_nil_iff, not_or]
      exact ⟨hne, Text.pieces_ne_nil '\n' e.text⟩
    have hfits : ∀ n ∈ e.numbers, (Text.decimal n).length ≤ e.gutterWidth :=
      fun n hn => hwidth ▸ length_decimal_le (hle n hn)
    refine ⟨largest, hmem, hle, ?_⟩
    rw [← hwidth]
    exact isListing_of_forall₂ hlength (forall₂_pieces_gutter hfits hlines)

/-- Eight empty lines, one that ends in a return, and one that looks like a row. -/
def tenLines : Text := "\n\n\n\n\n\n\n\nx\r\n10 │ y".toList

def lastTwo : Selector := ⟨[⟨false, .range (some ⟨2, true, Nat.two_pos⟩) none⟩]⟩

def lastTwoLines : Excerpt := ⟨[9, 10], "x\n10 │ y".toList⟩

theorem gutter_lists_lastTwo :
    ofContent tenLines (some lastTwo) = .ok lastTwoLines ∧ lastTwoLines.numbers ≠ [] ∧
      ∃ largest ∈ lastTwoLines.numbers, (∀ n ∈ lastTwoLines.numbers, n ≤ largest) ∧
        IsListing lastTwoLines (Text.decimal largest).length [" 9 │ x".toList, "10 │ 10 │ y".toList] := by
  have hunion : Span.union [⟨9, 10⟩] = [9, 10] := by
    refine (Span.pairwise_union _).eq_of_mem_iff (by decide) (fun n => ?_)
    simp only [Span.mem_union, Span.mem_numbers, List.mem_cons, List.not_mem_nil, or_false, exists_eq_left]
    omega
  have hresolve : lastTwo.resolve 10 = .ok [9, 10] := by
    rw [Selector.resolve_of_pos (by decide)]
    change Except.ok ((Span.union [⟨9, 10⟩]).filter _) = _
    rw [hunion]
    rfl
  have h : ofContent tenLines (some lastTwo) = .ok lastTwoLines := by
    rw [ofContent_some, show lineCount tenLines = 10 by decide, hresolve]
    rfl
  have hne : lastTwoLines.numbers ≠ [] := by decide
  have hrows : Text.pieces '\n' lastTwoLines.gutter = [" 9 │ x".toList, "10 │ 10 │ y".toList] := by decide
  rw [← hrows]
  exact ⟨h, hne, (gutter_lists tenLines (some lastTwo) lastTwoLines h).2 hne⟩

end Excerpt
end DocExcerpt
