import DocExcerpt.Proofs.Selector.Bounds
/-!
# Resolving in signed words

Positions are counted in signed 64-bit words, although `LineRef.position` and `Reach.span?` are written with exact
integers.  Here the same steps are taken one by one on words, and a computation stops where a result is no word or where
a negative word is taken for a count.  None ever stops, whatever the magnitudes and the length of the file, and the words
are the exact results (`LineRef.toInt_positionWord?`, `Reach.spanWord?_eq`).
-/
namespace DocExcerpt

/-! ## Checked words -/

namespace Word

/-- The word for an integer; none when the integer is out of range. -/
def ofInt? (n : Int) : Option Int64 :=
  if Int64.minValue.toInt ≤ n ∧ n ≤ Int64.maxValue.toInt then some (Int64.ofInt n) else none

/-- The word for a count; one that is out of range stands for the largest word. -/
def saturate (n : Nat) : Int64 := (ofInt? n).getD Int64.maxValue

def neg? (a : Int64) : Option Int64 := ofInt? (-a.toInt)

def abs? (a : Int64) : Option Int64 := ofInt? a.toInt.natAbs

def sub? (a b : Int64) : Option Int64 := ofInt? (a.toInt - b.toInt)

def succ? (a : Int64) : Option Int64 := ofInt? (a.toInt + 1)

/-- The count that a word stands for; none when it is negative. -/
def toNat? (a : Int64) : Option Nat := if 0 ≤ a.toInt then some a.toInt.toNat else none

theorem toInt_ofInt {n : Int} (h : Int64.minValue.toInt ≤ n ∧ n ≤ Int64.maxValue.toInt) :
    (Int64.ofInt n).toInt = n := by
  rw [Int64.toInt_minValue, Int64.toInt_maxValue] at h
  exact Int64.toInt_ofInt_of_le h.1 (by omega)

/-- Every integer from the negated largest word to the largest one has a word. -/
theorem exists_ofInt? {n : Int} (hlo : -(LineRef.maxPosition : Int) ≤ n) (hhi : n ≤ LineRef.maxPosition) :
    ∃ a, ofInt? n = some a ∧ a.toInt = n := by
  have hrange : Int64.minValue.toInt ≤ n ∧ n ≤ Int64.maxValue.toInt := by
    rw [Int64.toInt_minValue, Int64.toInt_maxValue]
    rw [LineRef.maxPosition] at hlo hhi
    omega
  exact ⟨Int64.ofInt n, if_pos hrange, toInt_ofInt hrange⟩

theorem toInt_saturate (n : Nat) : (saturate n).toInt = min (n : Int) LineRef.maxPosition := by
  unfold saturate ofInt?
  split
  · next h =>
    rw [Option.getD_some, toInt_ofInt h, LineRef.maxPosition]
    rw [Int64.toInt_maxValue] at h
    omega
  · next h =>
    rw [Option.getD_none, Int64.toInt_maxValue, LineRef.maxPosition]
    rw [Int64.toInt_minValue, Int64.toInt_maxValue] at h
    omega

theorem toInt_max (a b : Int64) : (max a b).toInt = max a.toInt b.toInt := by
  rw [show max a b = if a ≤ b then b else a from rfl, apply_ite Int64.toInt, Int.max_def]
  simp only [Int64.le_iff_toInt_le]

theorem toInt_min (a b : Int64) : (min a b).toInt = min a.toInt b.toInt := by
  rw [show min a b = if a ≤ b then a else b from rfl, apply_ite Int64.toInt, Int.min_def]
  simp only [Int64.le_iff_toInt_le]

theorem toInt_one : (1 : Int64).toInt = 1 := rfl

theorem toNat?_of_nonneg {a : Int64} (h : 0 ≤ a.toInt) : toNat? a = some a.toInt.toNat := if_pos h

theorem toNat?_max_one (a : Int64) : toNat? (max a 1) = some (max a.toInt 1).toNat := by
  rw [← toInt_one, ← toInt_max]
  exact toNat?_of_nonneg (by rw [toInt_max, toInt_one]; omega)

theorem toNat?_min {a b : Int64} (ha : 0 ≤ a.toInt) (hb : 0 ≤ b.toInt) :
    toNat? (min a b) = some (min a.toInt b.toInt).toNat := by
  rw [← toInt_min]
  exact toNat?_of_nonneg (by rw [toInt_min]; omega)

theorem toNat?_filter_of_mem {a : Int64} {total : Nat} (h : 1 ≤ a.toInt ∧ a.toInt ≤ total) :
    (toNat? a).filter (fun n => decide (1 ≤ n) && decide (n ≤ total)) = some a.toInt.toNat := by
  rw [toNat?_of_nonneg (by omega), Option.filter_some, if_pos]
  rw [Bool.and_eq_true, decide_eq_true_iff, decide_eq_true_iff]
  omega

theorem toNat?_filter_of_not_mem {a : Int64} {total : Nat} (h : ¬(1 ≤ a.toInt ∧ a.toInt ≤ total)) :
    (toNat? a).filter (fun n => decide (1 ≤ n) && decide (n ≤ total)) = none := by
  unfold toNat?
  split
  · next hnonneg =>
    rw [Option.filter_some, if_neg]
    rw [Bool.and_eq_true, decide_eq_true_iff, decide_eq_true_iff]
    omega
  · rfl

end Word

/-! ## References and reaches -/

/-- `LineRef.signed` on words. -/
def LineRef.signedWord? (r : LineRef) : Option Int64 :=
  if r.negative then Word.neg? (Word.saturate r.magnitude) else some (Word.saturate r.magnitude)

/-- `LineRef.position` on words: the distance is the absolute value of the signed word, and a line that is counted from
the end is first subtracted, then moved up by one. -/
def LineRef.positionWord? (r : LineRef) (total : Nat) : Option Int64 := do
  let distance ← Word.abs? (← r.signedWord?)
  if r.negative then Word.succ? (← Word.sub? (Word.saturate total) distance) else return distance

/-- `Reach.span?` on words.  The ends of a range are cut to the file before they are taken for counts. -/
def Reach.spanWord? (reach : Reach) (total : Nat) : Option (Except OutOfRange (Option Span)) :=
  match reach with
  | .line ref => do
    let line ← ref.positionWord? total
    match (Word.toNat? line).filter (fun n => decide (1 ≤ n) && decide (n ≤ total)) with
    | some n => return .ok (some ⟨n, n⟩)
    | none => return .error ⟨(← ref.signedWord?).toInt, total⟩
  | .range first? last? => do
    let top := Word.saturate total
    let first ← first?.elim (some 1) (·.positionWord? total)
    let last ← last?.elim (some top) (·.positionWord? total)
    if top < first then return .error ⟨(← first?.elim (some first) LineRef.signedWord?).toInt, total⟩
    else if last < 1 ∨ last < first then return .ok none
    else return .ok (some ⟨← Word.toNat? (max first 1), ← Word.toNat? (min last top)⟩)

namespace LineRef

/-- **The sign is put on without overflow**: the smallest word is never reached, let alone negated. -/
theorem toInt_signedWord? (r : LineRef) : ∃ a, r.signedWord? = some a ∧ a.toInt = r.signed := by
  have hmagnitude := Word.toInt_saturate r.magnitude
  unfold signedWord? signed
  cases r.negative with
  | false =>
    rw [if_neg Bool.false_ne_true, if_neg Bool.false_ne_true]
    exact ⟨_, rfl, hmagnitude⟩
  | true =>
    rw [if_pos rfl, if_pos rfl]
    obtain ⟨a, ha, hneg⟩ := Word.exists_ofInt? (n := -(Word.saturate r.magnitude).toInt) (by omega) (by omega)
    exact ⟨a, ha, by rw [hneg, hmagnitude]⟩

theorem natAbs_signed (r : LineRef) : (r.signed.natAbs : Int) = min (r.magnitude : Int) maxPosition := by
  unfold signed
  cases r.negative with
  | false => rw [if_neg Bool.false_ne_true]; omega
  | true => rw [if_pos rfl]; omega

/-- **A position is counted without overflow**, from either end of the file. -/
theorem toInt_positionWord? (r : LineRef) (total : Nat) :
    ∃ a, r.positionWord? total = some a ∧ a.toInt = r.position total := by
  obtain ⟨signed, hsigned, hsignedInt⟩ := r.toInt_signedWord?
  have hmax : 1 ≤ maxPosition := by decide
  have hnatAbs := r.natAbs_signed
  obtain ⟨distance, hdistance, hdistanceInt⟩ : ∃ a, Word.abs? signed = some a ∧ a.toInt = r.signed.natAbs := by
    rw [Word.abs?, hsignedInt]
    exact Word.exists_ofInt? (by omega) (by omega)
  have htotal := Word.toInt_saturate total
  unfold positionWord? position
  rw [hsigned, Option.bind_eq_bind, Option.bind_some, hdistance, Option.bind_some]
  cases r.negative with
  | false =>
    rw [if_neg Bool.false_ne_true, if_neg Bool.false_ne_true]
    exact ⟨distance, rfl, by omega⟩
  | true =>
    rw [if_pos rfl, if_pos rfl]
    obtain ⟨before, hbefore, hbeforeInt⟩ :=
      Word.exists_ofInt? (n := (Word.saturate total).toInt - distance.toInt) (by omega) (by omega)
    have hmagnitude := r.magnitude_pos
    obtain ⟨line, hline, hlineInt⟩ := Word.exists_ofInt? (n := before.toInt + 1) (by omega) (by omega)
    exact ⟨line, by rw [Word.sub?, hbefore, Option.bind_some, Word.succ?, hline], by omega⟩

/-- At the limits, the sum would overflow if the line were moved up before the distance is subtracted. -/
example : (⟨2 ^ 64 - 1, true, by decide⟩ : LineRef).positionWord? (2 ^ 64 - 1) = some 1 ∧
    Word.succ? (Word.saturate (2 ^ 64 - 1)) = none := by decide

/-- An open end of a range is the word that stands for it. -/
theorem toInt_elim_positionWord? (r? : Option LineRef) (total : Nat) (missing : Int64) :
    ∃ a, r?.elim (some missing) (·.positionWord? total) = some a ∧
      a.toInt = (r?.map (·.position total)).getD missing.toInt := by
  cases r? with
  | none => exact ⟨missing, rfl, rfl⟩
  | some r => exact r.toInt_positionWord? total

theorem toInt_elim_signedWord? (r? : Option LineRef) (missing : Int64) :
    ∃ a, r?.elim (some missing) signedWord? = some a ∧ a.toInt = (r?.map signed).getD missing.toInt := by
  cases r? with
  | none => exact ⟨missing, rfl, rfl⟩
  | some r => exact r.toInt_signedWord?

end LineRef

/-- **The span of a reach is found without overflow**, and no end of it is cut to a negative word. -/
theorem Reach.spanWord?_eq (reach : Reach) (total : Nat) : reach.spanWord? total = some (reach.span? total) := by
  cases reach with
  | line ref =>
    obtain ⟨line, hline, hlineInt⟩ := ref.toInt_positionWord? total
    obtain ⟨signed, hsigned, hsignedInt⟩ := ref.toInt_signedWord?
    unfold spanWord? span?
    dsimp only
    rw [hline, Option.bind_eq_bind, Option.bind_some, ← hlineInt]
    by_cases hin : 1 ≤ line.toInt ∧ line.toInt ≤ total
    · rw [Word.toNat?_filter_of_mem hin, if_pos hin]
      rfl
    · rw [Word.toNat?_filter_of_not_mem hin, if_neg hin, hsigned, ← hsignedInt]
      rfl
  | range first? last? =>
    have htop : ((min total LineRef.maxPosition : Nat) : Int) = (Word.saturate total).toInt := by
      rw [Word.toInt_saturate]
      omega
    obtain ⟨first, hfirst, hfirstInt⟩ := LineRef.toInt_elim_positionWord? first? total 1
    obtain ⟨last, hlast, hlastInt⟩ := LineRef.toInt_elim_positionWord? last? total (Word.saturate total)
    obtain ⟨written, hwritten, hwrittenInt⟩ := LineRef.toInt_elim_signedWord? first? first
    rw [Word.toInt_one] at hfirstInt
    unfold spanWord? span?
    dsimp only
    rw [hfirst, Option.bind_eq_bind, Option.bind_some, hlast, Option.bind_some, hwritten, htop, ← hfirstInt,
      ← hlastInt, ← hwrittenInt]
    simp only [Int64.lt_iff_toInt_lt, Word.toInt_one]
    by_cases hafter : (Word.saturate total).toInt < first.toInt
    · rw [if_pos hafter, if_pos hafter]
      rfl
    · rw [if_neg hafter, if_neg hafter]
      by_cases hnone : last.toInt < 1 ∨ last.toInt < first.toInt
      · rw [if_pos hnone, if_pos hnone]
        rfl
      · have htopPos : 0 ≤ (Word.saturate total).toInt := by omega
        rw [if_neg hnone, if_neg hnone, Word.toNat?_max_one, Word.toNat?_min (by omega) htopPos]
        rfl

/-! ## Resolving -/

/-- Whether a span has lines, all of them in a file of `total` lines. -/
def Span.LiesIn (span : Span) (total : Nat) : Prop := 1 ≤ span.first ∧ span.first ≤ span.last ∧ span.last ≤ total

/-- **The spans whose lines are added or taken away**, whether or not another clause fails: those of the clauses, and
the whole file when no clause adds any lines. -/
inductive Selector.Hands (s : Selector) (total : Nat) : Span → Prop where
  | clause {c : Clause} {span : Span} :
    0 < total → c ∈ s.clauses → c.reach.span? total = .ok (some span) → Hands s total span
  | all : 0 < total → s.startsFromAll = true → Hands s total ⟨1, total⟩

theorem Reach.liesIn_of_span? {reach : Reach} {total : Nat} {span : Span} (hpos : 0 < total)
    (h : reach.span? total = .ok (some span)) : span.LiesIn total := by
  obtain ⟨hfirst, hlast⟩ := Reach.bounds_of_span? h
  refine ⟨hfirst, ?_, hlast⟩
  cases reach with
  | line ref =>
    simp only [span?] at h
    split at h
    · cases h
      exact Nat.le_refl _
    · cases h
  | range first? last? =>
    have htop : 1 ≤ min total LineRef.maxPosition := Nat.le_min.2 ⟨hpos, by decide⟩
    simp only [span?] at h
    split at h
    · cases h
    · split at h
      · cases h
      · cases h
        dsimp only
        omega

theorem Selector.Hands.liesIn {s : Selector} {total : Nat} {span : Span} (h : s.Hands total span) :
    span.LiesIn total := by
  cases h with
  | clause hpos _ hspan => exact Reach.liesIn_of_span? hpos hspan
  | all hpos _ => exact ⟨Nat.le_refl 1, hpos, Nat.le_refl total⟩

/-- **Resolving is safe for every magnitude and every length of the file.**  No step on words leaves their range and no
negative word is taken for a count, so the words are the exact results; each span handed on has lines and lies in the
file; and the lines given ascend strictly and are lines of the file. -/
theorem Selector.resolve_stays_in_range (s : Selector) (total : Nat) :
    (∀ c ∈ s.clauses,
      (∀ r ∈ c.reach.refs, (∃ a, r.signedWord? = some a ∧ a.toInt = r.signed) ∧
        ∃ a, r.positionWord? total = some a ∧ a.toInt = r.position total) ∧
      c.reach.spanWord? total = some (c.reach.span? total)) ∧
    (∀ span, s.Hands total span → span.LiesIn total) ∧
    ∀ lines, s.resolve total = .ok lines → lines.Pairwise (· < ·) ∧ ∀ n ∈ lines, 1 ≤ n ∧ n ≤ total := by
  refine ⟨fun c _ => ⟨fun r _ => ?_, c.reach.spanWord?_eq total⟩, fun span hspan => hspan.liesIn, fun lines h => ?_⟩
  · exact ⟨r.toInt_signedWord?, r.toInt_positionWord? total⟩
  · exact ⟨pairwise_of_resolve h, fun n hn => bounds_of_resolve h hn⟩

end DocExcerpt
