import DocExcerpt.Proofs.Selector.Bounds
import DocExcerpt.Proofs.Selector.Dashes
/-!
# Counting from the end

A reference with a minus sign counts from the last line of the file, as long as the number of lines fits a signed word.
In a longer file it counts from the last line that a word can name (`LineRef.lastNamed`), so the lines that it picks are
not the ones at the end (`Selector.resolve_counts_from_end`).
-/
namespace DocExcerpt

variable {j k total : Nat}

/-! ## References from the end -/

namespace LineRef

/-- The `k`-th line from the end. -/
def fromEnd (k : Nat) (hk : 1 ≤ k) : LineRef := ⟨k, true, hk⟩

/-- The line from which a file of `total` lines is counted backwards. -/
def lastNamed (total : Nat) : Nat := min total maxPosition

theorem lastNamed_eq_iff : lastNamed total = total ↔ total < 2 ^ 63 := by
  rw [lastNamed, maxPosition]
  omega

theorem isWritten_fromEnd (hk : 1 ≤ k) (hfit : k ≤ maxPosition) : (fromEnd k hk).IsWritten ('-' :: Text.decimal k) := by
  have hnumeral := Text.isNumeral_iff.1 (Text.isNumeral_decimal k)
  refine ⟨Text.decimal k, hnumeral, Text.ofDigits_decimal k, ?_, rfl⟩
  rw [maxPosition] at hfit
  exact Nat.lt_of_le_of_lt hfit (by decide)

theorem position_fromEnd (hk : 1 ≤ k) (hle : k ≤ lastNamed total) :
    (fromEnd k hk).position total = ((lastNamed total - k + 1 : Nat) : Int) := by
  unfold lastNamed at hle ⊢
  simp only [position, fromEnd, if_true]
  omega

theorem span?_fromEnd (hk : 1 ≤ k) (hle : k ≤ lastNamed total) :
    (Reach.line (fromEnd k hk)).span? total = .ok (some ⟨lastNamed total - k + 1, lastNamed total - k + 1⟩) := by
  have htotal : lastNamed total ≤ total := Nat.min_le_left _ _
  simp only [Reach.span?, position_fromEnd hk hle, Int.toNat_natCast]
  exact if_pos (by omega)

theorem span?_fromEnd_range (hk : 1 ≤ k) (hkj : k ≤ j) (hle : j ≤ lastNamed total) :
    (Reach.range (some (fromEnd j (Nat.le_trans hk hkj))) (some (fromEnd k hk))).span? total =
      .ok (some ⟨lastNamed total - j + 1, lastNamed total - k + 1⟩) := by
  simp only [Reach.span?, Option.map_some, Option.getD_some, position_fromEnd _ hle,
    position_fromEnd hk (Nat.le_trans hkj hle)]
  rw [← lastNamed, if_neg (by omega), if_neg (by omega)]
  congr 3 <;> omega

end LineRef

theorem Span.numbers_self (n : Nat) : Span.numbers ⟨n, n⟩ = [n] := by
  rw [numbers, Nat.add_sub_cancel_left, List.range'_one]

/-! ## Selectors that count from the end -/

namespace Selector

/-- **A selector with one clause gives the lines of its span.** -/
theorem resolve_singleton {reach : Reach} {span : Span} (hpos : 0 < total)
    (h : reach.span? total = .ok (some span)) : Selector.resolve ⟨[⟨false, reach⟩]⟩ total = .ok span.numbers := by
  refine (resolve_eq_ok_iff hpos).2 ⟨[(⟨false, reach⟩, some span)], ?_, ?_⟩
  · rw [resolved, List.mapM_cons, List.mapM_nil, h]
    rfl
  · have hunion : Span.union [span] = span.numbers := by
      refine (Span.pairwise_union _).eq_of_mem_iff List.pairwise_lt_range' (fun n => ?_)
      rw [Span.mem_union]
      simp [Span.numbers]
    simp [startsFromAll, Clause.spansOf, hunion]

/-- **A reach written without blanks and commas is read as the one clause that it is.** -/
theorem parse_of_isWritten {reach : Reach} {t : Text} (h : reach.IsWritten t) (hcomma : ',' ∉ t)
    (hblank : ∀ c ∈ t, isBlank c = false) (hne : t ≠ []) (hcolon : t ≠ [':']) :
    Selector.parse t = .ok ⟨[⟨false, reach⟩]⟩ := by
  have htrim : Text.trim t = t := Text.trim_eq_self hblank
  have hparts : writtenParts t = [t] := by
    rw [writtenParts, Text.pieces_of_not_mem hcomma, List.map_singleton, htrim]
    simp [hne]
  rw [parse_eq_ok_iff, IsWritten, htrim, if_neg hcolon, hparts]
  exact .cons (.added h) .nil

theorem parse_fromEnd (hk : 1 ≤ k) (hfit : k ≤ LineRef.maxPosition) :
    Selector.parse ('-' :: Text.decimal k) = .ok ⟨[⟨false, .line (LineRef.fromEnd k hk)⟩]⟩ := by
  have h := LineRef.isWritten_fromEnd hk hfit
  refine parse_of_isWritten (.line h) (fun hc => ?_) h.not_isBlank h.ne_nil (by simp)
  rcases h.mem hc with hc | hc <;> cases hc

theorem parse_fromEnd_range (hk : 1 ≤ k) (hkj : k ≤ j) (hfit : j ≤ LineRef.maxPosition) :
    Selector.parse ('-' :: Text.decimal j ++ ':' :: '-' :: Text.decimal k) =
      .ok ⟨[⟨false, .range (some (LineRef.fromEnd j (Nat.le_trans hk hkj))) (some (LineRef.fromEnd k hk))⟩]⟩ := by
  have hfirst := LineRef.isWritten_fromEnd (Nat.le_trans hk hkj) hfit
  have hlast := LineRef.isWritten_fromEnd hk (Nat.le_trans hkj hfit)
  have hmem : ∀ c ∈ '-' :: Text.decimal j ++ ':' :: '-' :: Text.decimal k, c = ':' ∨ c = '-' ∨ c.isDigit = true := by
    intro c hc
    rcases List.mem_append.1 hc with hc | hc
    · exact .inr (hfirst.mem hc)
    · exact (List.mem_cons.1 hc).imp_right hlast.mem
  refine parse_of_isWritten ?_ (fun hc => ?_) (fun c hc => ?_) (by simp) (by simp)
  · refine .range hfirst.colon_not_mem hlast.colon_not_mem (Clause.isSide_of_isWritten hfirst)
      (Clause.isSide_of_isWritten hlast) ?_
    simp [Clause.InOrder, LineRef.fromEnd]
  · rcases hmem _ hc with hc | hc | hc <;> cases hc
  · rcases hmem c hc with rfl | rfl | hdigit
    · decide
    · decide
    · exact LineRef.isBlank_of_isDigit hdigit

/-- **Which lines are counted from the end.**  The `k`-th line from the end and the lines from the `j`-th to the `k`-th
are counted backwards from the last line that a word can name, so they are those at the end of the file exactly when its
number of lines fits a word. -/
theorem resolve_counts_from_end (hk : 1 ≤ k) (hkj : k ≤ j) (hj : j ≤ LineRef.lastNamed total) :
    ∃ line range, Selector.parse ('-' :: Text.decimal k) = .ok line ∧
      Selector.parse ('-' :: Text.decimal j ++ ':' :: '-' :: Text.decimal k) = .ok range ∧
      line.resolve total = .ok [LineRef.lastNamed total - k + 1] ∧
      range.resolve total = .ok (List.range' (LineRef.lastNamed total - j + 1) (j - k + 1)) ∧
      (line.resolve total = .ok [total - k + 1] ↔ total < 2 ^ 63) ∧
      (range.resolve total = .ok (List.range' (total - j + 1) (j - k + 1)) ↔ total < 2 ^ 63) := by
  have hle : LineRef.lastNamed total ≤ total := Nat.min_le_left _ _
  have hfit : LineRef.lastNamed total ≤ LineRef.maxPosition := Nat.min_le_right _ _
  have hpos : 0 < total := by omega
  have hline := resolve_singleton hpos (LineRef.span?_fromEnd hk (Nat.le_trans hkj hj))
  have hrange := resolve_singleton hpos (LineRef.span?_fromEnd_range hk hkj hj)
  have hlength : LineRef.lastNamed total - k + 1 + 1 - (LineRef.lastNamed total - j + 1) = j - k + 1 := by omega
  rw [Span.numbers_self] at hline
  rw [Span.numbers, hlength] at hrange
  refine ⟨_, _, parse_fromEnd hk (by omega), parse_fromEnd_range hk hkj (by omega), hline, hrange, ?_, ?_⟩
  · rw [hline, ← LineRef.lastNamed_eq_iff]
    simp
    omega
  · rw [hrange, ← LineRef.lastNamed_eq_iff]
    simp
    omega

/-- In the longest file, the last line and the last two lines are taken from the middle. -/
theorem resolve_counts_from_end_longestFile :
    1 ≤ 1 ∧ 1 ≤ 2 ∧ 2 ≤ LineRef.lastNamed (2 ^ 64 - 1) ∧
    ∃ line range, Selector.parse "-1".toList = .ok line ∧ Selector.parse "-2:-1".toList = .ok range ∧
      line.resolve (2 ^ 64 - 1) = .ok [2 ^ 63 - 1] ∧ range.resolve (2 ^ 64 - 1) = .ok [2 ^ 63 - 2, 2 ^ 63 - 1] ∧
      line.resolve (2 ^ 64 - 1) ≠ .ok [2 ^ 64 - 1] := by
  have hlast : LineRef.lastNamed (2 ^ 64 - 1) = 2 ^ 63 - 1 := by
    rw [LineRef.lastNamed, LineRef.maxPosition]
    omega
  have hj : 2 ≤ LineRef.lastNamed (2 ^ 64 - 1) := by
    rw [hlast]
    omega
  obtain ⟨line, range, hline, hrange, hlines, hranges, hexact, -⟩ :=
    resolve_counts_from_end (Nat.le_refl 1) (Nat.le_succ 1) hj
  rw [hlast] at hlines hranges
  refine ⟨Nat.le_refl 1, Nat.le_succ 1, hj, line, range, hline, hrange, hlines, hranges, fun h => ?_⟩
  exact absurd (hexact.1 h) (by omega)

end Selector
end DocExcerpt
