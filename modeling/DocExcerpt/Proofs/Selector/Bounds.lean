import DocExcerpt.Proofs.Selector.Meaning
import DocExcerpt.Selector.Parser
/-!
# The lines a selector gives

Whatever numbers are written in a selector, it gives lines of the file only (`Selector.bounds_of_resolve`), in
ascending order (`Selector.pairwise_of_resolve`).  So one that gives every line gives the list of all of them
(`Selector.SelectsAll.resolve_eq`); by what it means, that is one whose references all name lines and that picks every
line (`Selector.selectsAll_iff`).
-/
namespace DocExcerpt

/-- **The bounds of a span are cut to the file**, also when its references do not fit a word. -/
theorem Reach.bounds_of_span? {reach : Reach} {total : Nat} {span : Span} (h : reach.span? total = .ok (some span)) :
    1 ≤ span.first ∧ span.last ≤ total := by
  cases reach with
  | line ref =>
    simp only [span?] at h
    split at h
    · next hin =>
      cases h
      dsimp only
      omega
    · cases h
  | range first? last? =>
    simp only [span?] at h
    split at h
    · cases h
    · split at h
      · cases h
      · cases h
        dsimp only
        omega

namespace Selector

variable {s : Selector} {total : Nat} {lines : List Nat}

theorem bounds_of_mem_spansOf {resolved : List (Clause × Option Span)} (hres : s.resolved total = .ok resolved)
    {excluded : Bool} {span : Span} (hspan : span ∈ Clause.spansOf excluded resolved) :
    1 ≤ span.first ∧ span.last ≤ total := by
  obtain ⟨c, hmem, -⟩ := Clause.mem_spansOf.1 hspan
  obtain ⟨d, -, hd⟩ := (mem_iff_of_mapM_eq_ok hres).1 hmem
  exact Reach.bounds_of_span? (map_span?_eq_ok_iff.1 hd).2

theorem resolve_eq_ok_iff (hpos : 0 < total) :
    s.resolve total = .ok lines ↔ ∃ resolved, s.resolved total = .ok resolved ∧
      (Span.union ((if s.startsFromAll then [⟨1, total⟩] else []) ++ Clause.spansOf false resolved)).filter
        (fun n => !(Clause.spansOf true resolved).any (·.contains n)) = lines := by
  rw [resolve_of_pos hpos, map_eq_ok_iff]

theorem eq_nil_of_resolve_zero (h : s.resolve 0 = .ok lines) : lines = [] := by
  rw [resolve, if_pos rfl] at h
  cases h
  rfl

/-- **Only lines of the file are given.** -/
theorem bounds_of_resolve (h : s.resolve total = .ok lines) {n : Nat} (hn : n ∈ lines) : 1 ≤ n ∧ n ≤ total := by
  rcases Nat.eq_zero_or_pos total with rfl | hpos
  · rw [eq_nil_of_resolve_zero h] at hn
    cases hn
  · obtain ⟨resolved, hres, rfl⟩ := (resolve_eq_ok_iff hpos).1 h
    obtain ⟨span, hspan, hmem⟩ := Span.mem_union.1 (List.mem_of_mem_filter hn)
    have hin := Span.mem_numbers.1 hmem
    have hbounds : 1 ≤ span.first ∧ span.last ≤ total := by
      rcases List.mem_append.1 hspan with hall | hspan
      · split at hall
        · cases List.mem_singleton.1 hall
          exact ⟨Nat.le_refl 1, Nat.le_refl total⟩
        · cases hall
      · exact bounds_of_mem_spansOf hres hspan
    omega

/-- **The lines are given in ascending order, each once.** -/
theorem pairwise_of_resolve (h : s.resolve total = .ok lines) : lines.Pairwise (· < ·) := by
  rcases Nat.eq_zero_or_pos total with rfl | hpos
  · rw [eq_nil_of_resolve_zero h]
    exact .nil
  · obtain ⟨resolved, -, rfl⟩ := (resolve_eq_ok_iff hpos).1 h
    exact (Span.pairwise_union _).filter _

/-- **A selector that gives every line** of a file of `total` lines. -/
def SelectsAll (s : Selector) (total : Nat) : Prop :=
  ∃ lines, s.resolve total = .ok lines ∧ ∀ n, 1 ≤ n → n ≤ total → n ∈ lines

theorem SelectsAll.resolve_eq (h : s.SelectsAll total) : s.resolve total = .ok (List.range' 1 total) := by
  obtain ⟨lines, hres, hall⟩ := h
  rw [hres, (pairwise_of_resolve hres).eq_of_mem_iff List.pairwise_lt_range' (fun n => ?_)]
  rw [List.mem_range'_1]
  constructor
  · intro hn
    have := bounds_of_resolve hres hn
    omega
  · intro hn
    exact hall n hn.1 (by omega)

theorem exists_resolved_iff (hs : s.FitsWord) (ht : total < 2 ^ 63) (hpos : 0 < total) :
    (∃ resolved, s.resolved total = .ok resolved) ↔ ∀ c ∈ s.clauses, ∀ q, ¬c.reach.Misses total q := by
  constructor
  · rintro ⟨resolved, hres⟩ c hc
    obtain ⟨⟨_, span?⟩, hspan⟩ := exists_of_mapM_eq_ok hres c hc
    exact (exists_span?_iff (hs c hc) ht hpos).1 ⟨span?, (map_span?_eq_ok_iff.1 hspan).2⟩
  · intro hnone
    refine exists_mapM_eq_ok (fun c hc => ?_)
    obtain ⟨span?, hspan⟩ := (exists_span?_iff (hs c hc) ht hpos).2 (hnone c hc)
    exact ⟨(c, span?), map_span?_eq_ok_iff.2 ⟨rfl, hspan⟩⟩

/-- **Every line is given exactly when every reference names one and every line is picked.** -/
theorem selectsAll_iff (hs : s.FitsWord) (ht : total < 2 ^ 63) (hpos : 0 < total) :
    s.SelectsAll total ↔
      (∀ c ∈ s.clauses, ∀ q, ¬c.reach.Misses total q) ∧ ∀ n, 1 ≤ n → n ≤ total → s.Picks total n := by
  rw [← exists_resolved_iff hs ht hpos]
  constructor
  · rintro ⟨lines, hlines, hall⟩
    obtain ⟨resolved, hres, -⟩ := (resolve_eq_ok_iff hpos).1 hlines
    obtain ⟨lines', hlines', -, hmem⟩ := resolve_of_resolved_eq_ok hs ht hpos hres
    cases hlines.symm.trans hlines'
    exact ⟨⟨resolved, hres⟩, fun n h1 hn => (hmem n).1 (hall n h1 hn)⟩
  · rintro ⟨⟨resolved, hres⟩, hpicks⟩
    obtain ⟨lines, hlines, -, hmem⟩ := resolve_of_resolved_eq_ok hs ht hpos hres
    exact ⟨lines, hlines, fun n h1 hn => (hmem n).2 (hpicks n h1 hn)⟩

/-- The shortest ways to write a selector that gives every line. -/
theorem selectsAll_of_written (ht : total < 2 ^ 63) (hpos : 0 < total) {written : Text}
    (h : written ∈ ["".toList, ":".toList, ",".toList, "1:".toList]) :
    ∃ s, Selector.parse written = .ok s ∧ s.SelectsAll total := by
  have hnone : Selector.SelectsAll ⟨[]⟩ total := by
    refine (selectsAll_iff (by decide) ht hpos).2 ⟨fun c hc => absurd hc List.not_mem_nil, fun n h1 hn => ?_⟩
    exact ⟨⟨h1, hn⟩, Or.inr (fun c hc => absurd hc List.not_mem_nil), fun c hc => absurd hc List.not_mem_nil⟩
  have hfirst : Selector.SelectsAll ⟨[⟨false, .range (some ⟨1, false, by decide⟩) none⟩]⟩ total := by
    refine (selectsAll_iff (by decide) ht hpos).2 ⟨fun c hc q => ?_, fun n h1 hn => ?_⟩
    · cases List.mem_singleton.1 hc
      rintro ⟨heq, hlt⟩
      cases heq
      simp only [LineRef.named, Bool.false_eq_true, if_false] at hlt
      omega
    · refine ⟨⟨h1, hn⟩, Or.inl ⟨_, List.mem_singleton_self _, rfl, ?_⟩, fun c hc hx => ?_⟩
      · simp only [Reach.Covers, Option.elim_some, Option.elim_none, LineRef.named, Bool.false_eq_true, if_false]
        omega
      · cases List.mem_singleton.1 hc
        cases hx
  simp only [List.mem_cons, List.not_mem_nil, or_false] at h
  rcases h with rfl | rfl | rfl | rfl
  · exact ⟨_, rfl, hnone⟩
  · exact ⟨_, rfl, hnone⟩
  · exact ⟨_, rfl, hnone⟩
  · exact ⟨_, rfl, hfirst⟩

end Selector
end DocExcerpt
