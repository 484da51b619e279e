import DocExcerpt.Excerpt
import DocExcerpt.Proofs.Selector.Bounds
import DocExcerpt.Proofs.Text.Lines
/-!
# The lines of an excerpt

An excerpt keeps exactly the lines that its selector gives (`Excerpt.Keeps`): as many as there are numbers, each of them
a line of the content, and it fails exactly when resolving the selector does (`Excerpt.ofContent_keeps`).  A selector
that gives every line keeps the content but for the carriage returns at its line ends
(`Excerpt.ofContent_of_selectsAll`).
-/
namespace DocExcerpt
namespace Excerpt

/-- How many lines a content has: its pieces between line feeds. -/
def lineCount (content : Text) : Nat := (Text.pieces '\n' content).length

/-- **The line of a content with a number**, counted from 1: that piece of it between line feeds, without a carriage
return at its end. -/
def IsLine (content : Text) (number : Nat) (line : Text) : Prop :=
  1 ≤ number ∧ ∃ piece, (Text.pieces '\n' content)[number - 1]? = some piece ∧ Text.WithoutReturn piece line

/-- **An excerpt that keeps the lines with some numbers.** -/
structure Keeps (content : Text) (numbers : List Nat) (e : Excerpt) : Prop where
  numbers_eq : e.numbers = numbers
  bounds : ∀ n ∈ numbers, 1 ≤ n ∧ n ≤ lineCount content
  lines : numbers ≠ [] → List.Forall₂ (IsLine content) numbers (Text.pieces '\n' e.text)
  text_eq_nil : numbers = [] → e.text = []

variable {content : Text} {selector : Selector} {numbers : List Nat}

theorem isLine_iff {number : Nat} {line : Text} :
    IsLine content number line ↔ 1 ≤ number ∧ (Text.lines content)[number - 1]? = some line := by
  simp only [IsLine, Text.lines, List.getElem?_map, Option.map_eq_some_iff, Text.withoutReturn_eq_iff]

theorem ofContent_none (content : Text) :
    ofContent content none = .ok ⟨List.range' 1 (lineCount content), content⟩ := by
  simp only [ofContent, List.size_toArray, Text.length_lines, lineCount]

/-- The lines with the given numbers, those that are not there left out. -/
def keptLines (content : Text) (numbers : List Nat) : List Text :=
  numbers.filterMap (fun n => (Text.lines content)[n - 1]?)

theorem ofContent_some (content : Text) (selector : Selector) :
    ofContent content (some selector) =
      (selector.resolve (lineCount content)).map (fun numbers =>
        ⟨numbers, Text.join ['\n'] (keptLines content numbers)⟩) := by
  simp only [ofContent, List.size_toArray, Text.length_lines, lineCount, List.getElem?_toArray, keptLines]
  rfl

/-- **No number is dropped by the look-up** when all of them are those of lines. -/
theorem forall₂_keptLines (h : ∀ n ∈ numbers, 1 ≤ n ∧ n ≤ lineCount content) :
    List.Forall₂ (IsLine content) numbers (keptLines content numbers) := by
  induction numbers with
  | nil => exact .nil
  | cons n numbers ih =>
    obtain ⟨hn, hrest⟩ := List.forall_mem_cons.1 h
    -- numbers count from 1, so `n - 1` is a position only because `n` is not 0
    have hlt : n - 1 < (Text.lines content).length := by
      rw [Text.length_lines, ← lineCount]
      omega
    have hline := List.getElem?_eq_getElem hlt
    have hcons : keptLines content (n :: numbers) = (Text.lines content)[n - 1] :: keptLines content numbers :=
      List.filterMap_cons_some hline
    rw [hcons]
    exact .cons (isLine_iff.2 ⟨hn.1, hline⟩) (ih hrest)

theorem pieces_join_keptLines (h : keptLines content numbers ≠ []) :
    Text.pieces '\n' (Text.join ['\n'] (keptLines content numbers)) = keptLines content numbers := by
  refine Text.pieces_join_of_ne_nil h (fun line hline => ?_)
  obtain ⟨n, -, hn⟩ := List.mem_filterMap.1 hline
  exact Text.not_mem_of_mem_lines (List.mem_of_getElem? hn)

theorem rightUnique_isLine (content : Text) : Relator.RightUnique (IsLine content) := by
  intro n line line' h h'
  obtain ⟨-, hline⟩ := isLine_iff.1 h
  obtain ⟨-, hline'⟩ := isLine_iff.1 h'
  exact Option.some.inj (hline.symm.trans hline')

/-- **There is one excerpt that keeps the lines with given numbers.** -/
theorem keeps_iff (h : ∀ n ∈ numbers, 1 ≤ n ∧ n ≤ lineCount content) (e : Excerpt) :
    Keeps content numbers e ↔ ⟨numbers, Text.join ['\n'] (keptLines content numbers)⟩ = e := by
  have hkept := forall₂_keptLines h
  constructor
  · rintro ⟨rfl, -, hlines, hnil⟩
    have htext : Text.join ['\n'] (keptLines content e.numbers) = e.text := by
      by_cases hnumbers : e.numbers = []
      · rw [hnil hnumbers, hnumbers]
        rfl
      · rw [List.right_unique_forall₂' (rightUnique_isLine content) hkept (hlines hnumbers), Text.join_pieces]
    rw [htext]
  · rintro rfl
    refine ⟨rfl, h, fun hnumbers => ?_, fun hnumbers => by rw [hnumbers]; rfl⟩
    have hne : keptLines content numbers ≠ [] := fun hnil => by
      rw [hnil] at hkept
      exact hnumbers (List.forall₂_nil_right_iff.1 hkept)
    rwa [pieces_join_keptLines hne]

theorem ofContent_some_eq_ok_iff {e : Excerpt} :
    ofContent content (some selector) = .ok e ↔
      ∃ numbers, selector.resolve (lineCount content) = .ok numbers ∧ Keeps content numbers e := by
  rw [ofContent_some, map_eq_ok_iff]
  refine exists_congr (fun numbers => and_congr_right (fun hres => ?_))
  exact (keeps_iff (fun _ hn => Selector.bounds_of_resolve hres hn) e).symm

/-- **An excerpt keeps the lines that its selector gives, all of them**, and fails as the selector does. -/
theorem ofContent_keeps (content : Text) (selector : Selector) :
    (∀ error, ofContent content (some selector) = .error error ↔
        selector.resolve (lineCount content) = .error error) ∧
      ∀ e, ofContent content (some selector) = .ok e ↔
        ∃ numbers, selector.resolve (lineCount content) = .ok numbers ∧ Keeps content numbers e := by
  refine ⟨fun error => ?_, fun e => ofContent_some_eq_ok_iff⟩
  rw [ofContent_some]
  cases selector.resolve (lineCount content) <;> simp [Except.map]

/-! ## Every line -/

theorem keptLines_range' (content : Text) :
    keptLines content (List.range' 1 (lineCount content)) = Text.lines content := by
  have hall : List.Forall₂ (IsLine content) (List.range' 1 (lineCount content)) (Text.lines content) := by
    refine List.forall₂_iff_get.2 ⟨by rw [List.length_range', lineCount, Text.length_lines], fun i _ hi => ?_⟩
    rw [List.get_eq_getElem, List.get_eq_getElem, List.getElem_range', isLine_iff]
    refine ⟨by omega, ?_⟩
    rw [show 1 + 1 * i - 1 = i by omega, List.getElem?_eq_getElem hi]
  have hbounds : ∀ n ∈ List.range' 1 (lineCount content), 1 ≤ n ∧ n ≤ lineCount content := by
    intro n hn
    rw [List.mem_range'_1] at hn
    omega
  exact List.right_unique_forall₂' (rightUnique_isLine content) (forall₂_keptLines hbounds) hall

/-- **A selector that gives every line** keeps the content without the carriage returns at its line ends, under the
numbers that the whole content has; where no line ends in one, it is the whole content. -/
theorem ofContent_of_selectsAll (content : Text) (selector : Selector)
    (h : selector.SelectsAll (lineCount content)) :
    ofContent content (some selector) =
        .ok ⟨List.range' 1 (lineCount content), Text.withoutReturns content⟩ ∧
      ofContent content none = .ok ⟨List.range' 1 (lineCount content), content⟩ ∧
      ((∀ piece ∈ Text.pieces '\n' content, ¬['\r'] <:+ piece) →
        ofContent content (some selector) = ofContent content none) := by
  have hsome : ofContent content (some selector) =
      .ok ⟨List.range' 1 (lineCount content), Text.withoutReturns content⟩ := by
    rw [ofContent_some, h.resolve_eq, ← Text.join_lines, ← keptLines_range']
    rfl
  refine ⟨hsome, ofContent_none content, fun hreturn => ?_⟩
  rw [hsome, ofContent_none, Text.withoutReturns_eq_self hreturn]

/-- Two returns before a line feed, one before the next, and one at the end. -/
def endingReturns : Text := "a\r\r\nb\r\n\r".toList

theorem ofContent_of_selectsAll_fromFirst :
    ∃ selector, Selector.parse "1:".toList = .ok selector ∧
      selector.SelectsAll (lineCount endingReturns) ∧
      ofContent endingReturns (some selector) = .ok ⟨[1, 2, 3], "a\r\nb\n".toList⟩ ∧
      ofContent endingReturns none = .ok ⟨[1, 2, 3], endingReturns⟩ ∧
      ofContent "a\n\rb\n".toList (some selector) = ofContent "a\n\rb\n".toList none := by
  have hcount : lineCount endingReturns = 3 := by decide
  have hcount' : lineCount "a\n\rb\n".toList = 3 := by decide
  obtain ⟨selector, hparse, hall⟩ : ∃ s, Selector.parse "1:".toList = .ok s ∧ s.SelectsAll 3 :=
    Selector.selectsAll_of_written (by decide) (by decide) (by decide)
  obtain ⟨hsome, hnone, -⟩ := ofContent_of_selectsAll endingReturns selector (hcount ▸ hall)
  obtain ⟨-, -, hsame⟩ := ofContent_of_selectsAll "a\n\rb\n".toList selector (hcount' ▸ hall)
  exact ⟨selector, hparse, hcount ▸ hall, hsome, hnone, hsame (by decide)⟩

end Excerpt
end DocExcerpt
