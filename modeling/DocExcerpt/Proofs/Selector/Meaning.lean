import Mathlib.Algebra.Group.Nat.Defs
import Mathlib.Data.List.Sort
import DocExcerpt.Proofs.Fallible
import DocExcerpt.Selector.Resolution
/-!
# What a selector means

A selector denotes a set of lines, over exact integers: the lines that its clauses cover, without the lines that
its exclusions cover (`Selector.Picks`), or the first reference that names no line of the file
(`Reach.Misses`).  `Selector.Denotes` puts the outcomes together, and resolving a selector gives exactly the
outcome it denotes, as long as its numbers and the length of the file fit a signed 64-bit word.
-/
namespace DocExcerpt

/-- The reference as the author wrote it, sign included. -/
def LineRef.written (r : LineRef) : Int := if r.negative then -(r.magnitude : Int) else r.magnitude

/-- The line that a reference names in a file of `total` lines, whether the file has it or not. -/
def LineRef.named (r : LineRef) (total : Nat) : Int :=
  if r.negative then (total : Int) - r.magnitude + 1 else r.magnitude

/-- Whether a reach covers a line.  A range is open where an end is missing. -/
def Reach.Covers (total n : Nat) : Reach → Prop
  | .line ref => n = ref.named total
  | .range first? last? => first?.elim 1 (·.named total) ≤ n ∧ n ≤ last?.elim (total : Int) (·.named total)

/-- **The reference that makes a reach fail**: a single line outside the file, or a start after its last line. -/
def Reach.Misses (total : Nat) (r : LineRef) : Reach → Prop
  | .line ref => ref = r ∧ ¬(1 ≤ r.named total ∧ r.named total ≤ total)
  | .range first? _ => first? = some r ∧ total < r.named total

/-- **The lines a selector picks**: those of the file that some clause adds, or all when no clause adds any, and
that no clause takes away. -/
def Selector.Picks (s : Selector) (total n : Nat) : Prop :=
  (1 ≤ n ∧ n ≤ total) ∧
  ((∃ c ∈ s.clauses, c.excluded = false ∧ c.reach.Covers total n) ∨ ∀ c ∈ s.clauses, c.excluded = true) ∧
  ∀ c ∈ s.clauses, c.excluded = true → ¬c.reach.Covers total n

/-- **What a selector denotes in a file of `total` lines.** -/
inductive Selector.Denotes (s : Selector) (total : Nat) : Except OutOfRange (List Nat) → Prop where
  /-- An empty file has no lines to pick. -/
  | emptyFile : total = 0 → Denotes s total (.ok [])
  /-- The first clause with a reference that names no line decides the error. -/
  | missing {before after : List Clause} {c : Clause} {r : LineRef} :
    0 < total → s.clauses = before ++ c :: after → (∀ d ∈ before, ∀ q, ¬d.reach.Misses total q) →
    c.reach.Misses total r → Denotes s total (.error ⟨r.written, total⟩)
  /-- Otherwise the lines picked are listed in ascending order. -/
  | picked {lines : List Nat} :
    0 < total → (∀ c ∈ s.clauses, ∀ q, ¬c.reach.Misses total q) → lines.Pairwise (· < ·) →
    (∀ n, n ∈ lines ↔ s.Picks total n) → Denotes s total (.ok lines)

/-- Whether every number in a reach fits a signed 64-bit word. -/
def Reach.FitsWord (reach : Reach) : Prop := ∀ r ∈ reach.refs, r.magnitude < 2 ^ 63

def Selector.FitsWord (s : Selector) : Prop := ∀ c ∈ s.clauses, c.reach.FitsWord

instance (reach : Reach) : Decidable reach.FitsWord := inferInstanceAs (Decidable (∀ r ∈ reach.refs, _))

instance (s : Selector) : Decidable s.FitsWord := inferInstanceAs (Decidable (∀ c ∈ s.clauses, _))

theorem LineRef.signed_eq_written {r : LineRef} (h : r.magnitude < 2 ^ 63) : r.signed = r.written := by
  have hm : min (r.magnitude : Int) maxPosition = r.magnitude := by rw [maxPosition]; omega
  unfold signed written
  rw [hm]

theorem LineRef.position_eq_named {r : LineRef} {total : Nat} (h : r.magnitude < 2 ^ 63) (ht : total < 2 ^ 63) :
    r.position total = r.named total := by
  have hm : min (r.magnitude : Int) maxPosition = r.magnitude := by rw [maxPosition]; omega
  have hn : min total maxPosition = total := by rw [maxPosition]; omega
  unfold position named
  rw [hm, hn]

theorem Reach.span?_line {ref : LineRef} {total : Nat} (h : (Reach.line ref).FitsWord) (ht : total < 2 ^ 63) :
    (Reach.line ref).span? total =
      if 1 ≤ ref.named total ∧ ref.named total ≤ total then
        .ok (some ⟨(ref.named total).toNat, (ref.named total).toNat⟩)
      else .error ⟨ref.written, total⟩ := by
  have hm : ref.magnitude < 2 ^ 63 := h ref (by simp [refs])
  simp only [span?, LineRef.position_eq_named hm ht, LineRef.signed_eq_written hm]

theorem LineRef.getD_position {r? : Option LineRef} {total : Nat} {missing : Int}
    (h : ∀ r ∈ r?, r.magnitude < 2 ^ 63) (ht : total < 2 ^ 63) :
    (r?.map (·.position total)).getD missing = r?.elim missing (·.named total) := by
  cases r? with
  | none => rfl
  | some r => exact position_eq_named (h r rfl) ht

theorem Reach.span?_range {first? last? : Option LineRef} {total : Nat}
    (h : (Reach.range first? last?).FitsWord) (ht : total < 2 ^ 63) :
    (Reach.range first? last?).span? total =
      let first := first?.elim 1 (·.named total)
      let last := last?.elim (total : Int) (·.named total)
      if (total : Int) < first then .error ⟨first?.elim first LineRef.written, total⟩
      else if last < 1 ∨ last < first then .ok none
      else .ok (some ⟨(max first 1).toNat, (min last total).toNat⟩) := by
  have hn : min total LineRef.maxPosition = total := by rw [LineRef.maxPosition]; omega
  have hf : ∀ r ∈ first?, r.magnitude < 2 ^ 63 := fun r hr => h r (by simp_all [refs])
  have hl : ∀ r ∈ last?, r.magnitude < 2 ^ 63 := fun r hr => h r (by simp_all [refs])
  simp only [span?, hn, LineRef.getD_position hf ht, LineRef.getD_position hl ht]
  cases first? with
  | none => rfl
  | some r =>
    simp only [Option.map_some, Option.getD_some, Option.elim_some, LineRef.signed_eq_written (hf r rfl)]
    rfl

/-- **A reach fails exactly at the reference that names no line**, and says how that was written. -/
theorem Reach.span?_eq_error_iff {reach : Reach} {total : Nat} (h : reach.FitsWord) (ht : total < 2 ^ 63)
    (hpos : 0 < total) {e : OutOfRange} :
    reach.span? total = .error e ↔ ∃ r, reach.Misses total r ∧ e = ⟨r.written, total⟩ := by
  cases reach with
  | line ref =>
    rw [span?_line h ht]
    simp only [Misses]
    split
    · next hin => simp [hin]
    · next hout => simp [hout, eq_comm]
  | range first? last? =>
    rw [span?_range h ht]
    simp only [Misses]
    split
    · next hlt =>
      cases first? with
      | none => simp only [Option.elim_none] at hlt; omega
      | some r => simpa [eq_comm] using fun _ => hlt
    · next hle =>
      have hno : ¬∃ r, (first? = some r ∧ (total : Int) < r.named total) ∧ e = ⟨r.written, total⟩ := by
        rintro ⟨r, ⟨rfl, hlt⟩, -⟩
        exact hle hlt
      split <;> simp [hno]

/-- **A reach that does not fail gives the lines of the file that it covers.** -/
theorem Reach.mem_numbers_of_span?_eq_ok {reach : Reach} {total : Nat} (h : reach.FitsWord) (ht : total < 2 ^ 63)
    {span? : Option Span} (hs : reach.span? total = .ok span?) (n : Nat) :
    (∃ s, span? = some s ∧ n ∈ s.numbers) ↔ (1 ≤ n ∧ n ≤ total) ∧ reach.Covers total n := by
  cases reach with
  | line ref =>
    rw [span?_line h ht] at hs
    split at hs
    · cases hs
      simp only [Option.some.injEq, exists_eq_left', Span.mem_numbers, Covers]
      omega
    · cases hs
  | range first? last? =>
    rw [span?_range h ht] at hs
    simp only [Covers]
    generalize first?.elim (1 : Int) (·.named total) = first at hs ⊢
    generalize last?.elim (total : Int) (·.named total) = last at hs ⊢
    simp only at hs
    split at hs
    · cases hs
    · split at hs
      · cases hs
        simp only [reduceCtorEq, false_and, exists_false, false_iff]
        omega
      · cases hs
        simp only [Option.some.injEq, exists_eq_left', Span.mem_numbers]
        omega

theorem Clause.mem_spansOf {excluded : Bool} {resolved : List (Clause × Option Span)} {span : Span} :
    span ∈ Clause.spansOf excluded resolved ↔ ∃ c, (c, some span) ∈ resolved ∧ c.excluded = excluded := by
  simp only [spansOf, List.mem_filterMap, Prod.exists]
  constructor
  · rintro ⟨c, span?, hmem, heq⟩
    split at heq
    · next hc => exact ⟨c, heq ▸ hmem, hc⟩
    · cases heq
  · rintro ⟨c, hmem, hc⟩
    exact ⟨c, some span, hmem, if_pos hc⟩

namespace Selector

/-- The spans of all clauses, each with its clause. -/
def resolved (s : Selector) (total : Nat) : Except OutOfRange (List (Clause × Option Span)) :=
  s.clauses.mapM (fun c => (c.reach.span? total).map (fun span? => (c, span?)))

theorem resolve_of_pos {s : Selector} {total : Nat} (hpos : 0 < total) :
    s.resolve total = (s.resolved total).map (fun resolved =>
      (Span.union ((if s.startsFromAll then [⟨1, total⟩] else []) ++ Clause.spansOf false resolved)).filter
        (fun n => !(Clause.spansOf true resolved).any (·.contains n))) := by
  rw [resolve, if_neg (Nat.ne_of_gt hpos), resolved]
  rfl

theorem map_span?_eq_ok_iff {c d : Clause} {total : Nat} {span? : Option Span} :
    (c.reach.span? total).map (fun span? => (c, span?)) = .ok (d, span?) ↔
      c = d ∧ c.reach.span? total = .ok span? := by
  cases c.reach.span? total <;> simp [Except.map]

theorem map_span?_eq_error_iff {c : Clause} {total : Nat} {e : OutOfRange} :
    (c.reach.span? total).map (fun span? => (c, span?)) = .error e ↔ c.reach.span? total = .error e := by
  cases c.reach.span? total <;> simp [Except.map]

theorem exists_span?_iff {reach : Reach} {total : Nat} (h : reach.FitsWord) (ht : total < 2 ^ 63)
    (hpos : 0 < total) : (∃ span?, reach.span? total = .ok span?) ↔ ∀ q, ¬reach.Misses total q := by
  constructor
  · rintro ⟨span?, hs⟩ q hq
    have := (Reach.span?_eq_error_iff h ht hpos).2 ⟨q, hq, rfl⟩
    rw [hs] at this
    cases this
  · intro hall
    cases hs : reach.span? total with
    | ok span? => exact ⟨span?, rfl⟩
    | error e =>
      obtain ⟨q, hq, -⟩ := (Reach.span?_eq_error_iff h ht hpos).1 hs
      exact absurd hq (hall q)

/-- **A selector fails exactly with the first reference that names no line.** -/
theorem resolved_eq_error_iff {s : Selector} {total : Nat} (hs : s.FitsWord) (ht : total < 2 ^ 63)
    (hpos : 0 < total) {e : OutOfRange} :
    s.resolved total = .error e ↔ ∃ before c after r, s.clauses = before ++ c :: after ∧
      (∀ d ∈ before, ∀ q, ¬d.reach.Misses total q) ∧ c.reach.Misses total r ∧ e = ⟨r.written, total⟩ := by
  rw [resolved, mapM_eq_error_iff]
  constructor
  · rintro ⟨before, c, after, hsplit, hbefore, hc⟩
    have hfit : ∀ d ∈ before ++ c :: after, d.reach.FitsWord := hsplit ▸ hs
    obtain ⟨r, hr, he⟩ := (Reach.span?_eq_error_iff (hfit c (by simp)) ht hpos).1 (map_span?_eq_error_iff.1 hc)
    refine ⟨before, c, after, r, hsplit, fun d hd => ?_, hr, he⟩
    obtain ⟨⟨d', span?⟩, hd'⟩ := hbefore d hd
    exact (exists_span?_iff (hfit d (by simp [hd])) ht hpos).1 ⟨span?, (map_span?_eq_ok_iff.1 hd').2⟩
  · rintro ⟨before, c, after, r, hsplit, hbefore, hr, rfl⟩
    have hfit : ∀ d ∈ before ++ c :: after, d.reach.FitsWord := hsplit ▸ hs
    refine ⟨before, c, after, hsplit, fun d hd => ?_, map_span?_eq_error_iff.2 ?_⟩
    · obtain ⟨span?, hspan⟩ := (exists_span?_iff (hfit d (by simp [hd])) ht hpos).2 (hbefore d hd)
      exact ⟨(d, span?), map_span?_eq_ok_iff.2 ⟨rfl, hspan⟩⟩
    · exact (Reach.span?_eq_error_iff (hfit c (by simp)) ht hpos).2 ⟨r, hr, rfl⟩

theorem exists_mem_spansOf_iff {s : Selector} {total : Nat} (hs : s.FitsWord) (ht : total < 2 ^ 63)
    {resolved : List (Clause × Option Span)} (hres : s.resolved total = .ok resolved) {excluded : Bool} {n : Nat} :
    (∃ span ∈ Clause.spansOf excluded resolved, n ∈ span.numbers) ↔
      (1 ≤ n ∧ n ≤ total) ∧ ∃ c ∈ s.clauses, c.excluded = excluded ∧ c.reach.Covers total n := by
  have hmem : ∀ c span?, (c, span?) ∈ resolved ↔ c ∈ s.clauses ∧ c.reach.span? total = .ok span? := by
    intro c span?
    rw [mem_iff_of_mapM_eq_ok hres]
    simp only [map_span?_eq_ok_iff]
    exact ⟨by rintro ⟨_, hc, rfl, h⟩; exact ⟨hc, h⟩, fun ⟨hc, h⟩ => ⟨c, hc, rfl, h⟩⟩
  simp only [Clause.mem_spansOf, hmem]
  constructor
  · rintro ⟨span, ⟨c, ⟨hc, hspan⟩, hx⟩, hn⟩
    obtain ⟨hin, hcov⟩ := (Reach.mem_numbers_of_span?_eq_ok (hs c hc) ht hspan n).1 ⟨span, rfl, hn⟩
    exact ⟨hin, c, hc, hx, hcov⟩
  · rintro ⟨hin, c, hc, hx, hcov⟩
    obtain ⟨⟨_, span?⟩, hspan⟩ := exists_of_mapM_eq_ok hres c hc
    replace hspan := (map_span?_eq_ok_iff.1 hspan).2
    obtain ⟨span, rfl, hn⟩ := (Reach.mem_numbers_of_span?_eq_ok (hs c hc) ht hspan n).2 ⟨hin, hcov⟩
    exact ⟨span, ⟨c, ⟨hc, hspan⟩, hx⟩, hn⟩

theorem startsFromAll_iff {s : Selector} : s.startsFromAll = true ↔ ∀ c ∈ s.clauses, c.excluded = true := by
  rw [startsFromAll, List.all_eq_true]

/-- **A selector whose references all name lines gives exactly the lines it picks, in order.** -/
theorem resolve_of_resolved_eq_ok {s : Selector} {total : Nat} (hs : s.FitsWord) (ht : total < 2 ^ 63)
    (hpos : 0 < total) {resolved : List (Clause × Option Span)} (hres : s.resolved total = .ok resolved) :
    ∃ lines, s.resolve total = .ok lines ∧ lines.Pairwise (· < ·) ∧ ∀ n, n ∈ lines ↔ s.Picks total n := by
  refine ⟨_, by rw [resolve_of_pos hpos, hres]; rfl, (Span.pairwise_union _).filter _, fun n => ?_⟩
  have hremoved : (!(Clause.spansOf true resolved).any (·.contains n)) = true ↔
      ¬∃ span ∈ Clause.spansOf true resolved, n ∈ span.numbers := by
    simp only [Bool.not_eq_true', List.any_eq_false, Span.contains_iff, not_exists, not_and]
  have hall : (∃ span ∈ (if s.startsFromAll then [⟨1, total⟩] else [] : List Span), n ∈ span.numbers) ↔
      (1 ≤ n ∧ n ≤ total) ∧ ∀ c ∈ s.clauses, c.excluded = true := by
    rw [← startsFromAll_iff]
    split <;> simp_all [Span.mem_numbers]
  have hadded : (∃ span ∈ (if s.startsFromAll then [⟨1, total⟩] else [] : List Span) ++
      Clause.spansOf false resolved, n ∈ span.numbers) ↔ ((1 ≤ n ∧ n ≤ total) ∧ ∀ c ∈ s.clauses, c.excluded = true) ∨
        ((1 ≤ n ∧ n ≤ total) ∧ ∃ c ∈ s.clauses, c.excluded = false ∧ c.reach.Covers total n) := by
    simp only [List.mem_append, or_and_right, exists_or]
    rw [hall, exists_mem_spansOf_iff hs ht hres]
  rw [List.mem_filter, Span.mem_union, hremoved, hadded, exists_mem_spansOf_iff hs ht hres]
  constructor
  · rintro ⟨hadd, hnone⟩
    have hin : 1 ≤ n ∧ n ≤ total := hadd.elim And.left And.left
    exact ⟨hin, hadd.symm.imp And.right And.right, fun c hc hx hcov => hnone ⟨hin, c, hc, hx, hcov⟩⟩
  · rintro ⟨hin, hadd, hnone⟩
    exact ⟨hadd.symm.imp (⟨hin, ·⟩) (⟨hin, ·⟩), fun ⟨_, c, hc, hx, hcov⟩ => hnone c hc hx hcov⟩

/-- **Resolving a selector gives exactly what it denotes.** -/
theorem resolve_eq_iff_denotes (s : Selector) (total : Nat) (hs : s.FitsWord) (ht : total < 2 ^ 63)
    (outcome : Except OutOfRange (List Nat)) : s.resolve total = outcome ↔ s.Denotes total outcome := by
  rcases Nat.eq_zero_or_pos total with rfl | hpos
  · have hzero : s.resolve 0 = .ok [] := by rw [resolve, if_pos rfl]
    rw [hzero]
    constructor
    · rintro rfl
      exact .emptyFile rfl
    · rintro (_ | ⟨hlt, _⟩ | ⟨hlt, _⟩)
      · rfl
      · cases hlt
      · cases hlt
  cases hres : s.resolved total with
  | error e =>
    obtain ⟨before, c, after, r, hsplit, hbefore, hr, rfl⟩ := (resolved_eq_error_iff hs ht hpos).1 hres
    rw [resolve_of_pos hpos, hres]
    constructor
    · rintro rfl
      exact .missing hpos hsplit hbefore hr
    · rintro (rfl | ⟨_, hsplit', hbefore', hr'⟩ | ⟨_, hall, _, _⟩)
      · cases hpos
      · have := (resolved_eq_error_iff hs ht hpos).2 ⟨_, _, _, _, hsplit', hbefore', hr', rfl⟩
        rw [← hres, this]
        rfl
      · exact absurd hr (hall c (by simp [hsplit]) r)
  | ok resolved =>
    obtain ⟨lines, hlines, hsorted, hmem⟩ := resolve_of_resolved_eq_ok hs ht hpos hres
    have hnone : ∀ c ∈ s.clauses, ∀ q, ¬c.reach.Misses total q := by
      intro c hc
      obtain ⟨⟨_, span?⟩, hspan⟩ := exists_of_mapM_eq_ok hres c hc
      exact (exists_span?_iff (hs c hc) ht hpos).1 ⟨span?, (map_span?_eq_ok_iff.1 hspan).2⟩
    rw [hlines]
    constructor
    · rintro rfl
      exact .picked hpos hnone hsorted hmem
    · rintro (rfl | ⟨_, hsplit, _, hr⟩ | ⟨_, _, hsorted', hmem'⟩)
      · cases hpos
      · exact absurd hr (hnone _ (by simp [hsplit]) _)
      · rw [hsorted.eq_of_mem_iff hsorted' (fun n => (hmem n).trans (hmem' n).symm)]

/-- Lines 8 to 20 and the twelfth from the end to line 2, without the last but one. -/
def crossingSigns : Selector :=
  ⟨[⟨false, .range (some ⟨8, false, by decide⟩) (some ⟨20, false, by decide⟩)⟩, ⟨true, .line ⟨2, true, by decide⟩⟩,
    ⟨false, .range (some ⟨12, true, by decide⟩) (some ⟨2, false, by decide⟩)⟩]⟩

theorem resolve_crossingSigns :
    crossingSigns.FitsWord ∧ 10 < 2 ^ 63 ∧ crossingSigns.Denotes 10 (.ok [1, 2, 8, 10]) ∧
      crossingSigns.resolve 10 = .ok [1, 2, 8, 10] := by
  have hdenotes : Selector.Denotes crossingSigns 10 (.ok [1, 2, 8, 10]) := by
    refine .picked (by decide) (fun c hc q => ?_) (by decide) (fun n => ?_)
    · simp only [crossingSigns, List.mem_cons, List.not_mem_nil, or_false] at hc
      rcases hc with rfl | rfl | rfl
      · rintro ⟨heq, hlt⟩
        cases heq
        exact absurd hlt (by decide)
      · rintro ⟨rfl, hout⟩
        exact hout (by decide)
      · rintro ⟨heq, hlt⟩
        cases heq
        exact absurd hlt (by decide)
    · simp [Picks, crossingSigns, Reach.Covers, LineRef.named]
      omega
  exact ⟨by decide, by decide, hdenotes, (resolve_eq_iff_denotes _ 10 (by decide) (by decide) _).2 hdenotes⟩

end Selector
end DocExcerpt
