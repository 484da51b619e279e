import DocExcerpt.Proofs.Selector.Meaning
import DocExcerpt.Proofs.Text.Trim
import DocExcerpt.Selector.Parser
/-!
# The grammar of selectors

What a text has to look like to write a reference, a side of a range, a clause and a whole selector
(`Selector.IsWritten`), said without reading it.  Reading a text gives exactly the selector that it writes
(`Selector.parse_eq_ok_iff`); in particular a text in the grammar is never taken for one with dashes
(`Clause.isDashed_of_isWritten`), and the numbers of a selector that was read fit a word.
-/
namespace DocExcerpt

/-- **A reference is written as an optional minus sign and ASCII digits**, whose number fits a word. -/
def LineRef.IsWritten (r : LineRef) (t : Text) : Prop :=
  ∃ digits, (digits ≠ [] ∧ ∀ c ∈ digits, c.isDigit = true) ∧ Text.ofDigits digits = r.magnitude ∧
    r.magnitude < 2 ^ 63 ∧ t = if r.negative then '-' :: digits else digits

namespace Clause

/-- A side of a range is blank, or a reference with blanks around it. -/
def IsSide (ref? : Option LineRef) (side : Text) : Prop :=
  match ref? with
  | none => Text.trim side = []
  | some ref => ref.IsWritten (Text.trim side)

/-- Two references that both count from the start do not stand in the wrong order. -/
def InOrder (first? last? : Option LineRef) : Prop :=
  ∀ first ∈ first?, ∀ last ∈ last?, first.negative = false → last.negative = false →
    first.magnitude ≤ last.magnitude

end Clause

/-- **A reach is written as a reference, or as two sides around the only colon.** -/
inductive Reach.IsWritten : Reach → Text → Prop where
  | line {ref : LineRef} {t : Text} : ref.IsWritten t → IsWritten (.line ref) t
  | range {first? last? : Option LineRef} {left right : Text} :
    ':' ∉ left → ':' ∉ right → Clause.IsSide first? left → Clause.IsSide last? right →
    Clause.InOrder first? last? → IsWritten (.range first? last?) (left ++ ':' :: right)

/-- **A clause is written as its reach; an exclusion has a `!` in front**, and blanks may follow that. -/
inductive Clause.IsWritten : Clause → Text → Prop where
  | added {reach : Reach} {t : Text} : reach.IsWritten t → IsWritten ⟨false, reach⟩ t
  | excluded {reach : Reach} {blanks t : Text} :
    Text.IsBlankText blanks → reach.IsWritten t → IsWritten ⟨true, reach⟩ ('!' :: (blanks ++ t))

/-- The parts of a text between commas, trimmed, those that are not blank. -/
def Selector.writtenParts (t : Text) : List Text := ((Text.pieces ',' t).map Text.trim).filter (fun p => !p.isEmpty)

/-- **A selector is written as its clauses in order, between commas**; a lone colon writes no clause. -/
def Selector.IsWritten (s : Selector) (t : Text) : Prop :=
  if Text.trim t = [':'] then s.clauses = [] else List.Forall₂ Clause.IsWritten s.clauses (Selector.writtenParts t)

/-! ## References -/

theorem Text.isNumeral_iff {t : Text} : Text.isNumeral t = true ↔ t ≠ [] ∧ ∀ c ∈ t, c.isDigit = true := by
  simp [isNumeral]

namespace LineRef

theorem IsWritten.mem {r : LineRef} {t : Text} (h : r.IsWritten t) {c : Char} (hc : c ∈ t) :
    c = '-' ∨ c.isDigit = true := by
  obtain ⟨digits, ⟨-, hd⟩, -, -, rfl⟩ := h
  split at hc
  · exact (List.mem_cons.1 hc).imp_right (hd c)
  · exact Or.inr (hd c hc)

theorem IsWritten.ne_nil {r : LineRef} {t : Text} (h : r.IsWritten t) : t ≠ [] := by
  obtain ⟨digits, ⟨hne, -⟩, -, -, rfl⟩ := h
  split
  · exact List.cons_ne_nil _ _
  · exact hne

theorem isBlank_of_isDigit {c : Char} (h : c.isDigit = true) : isBlank c = false := by
  simp only [Char.isDigit, Bool.and_eq_true, decide_eq_true_eq] at h
  have hlo : 0x30 ≤ c.toNat := UInt32.le_iff_toNat_le.1 h.1
  have hhi : c.toNat ≤ 0x39 := UInt32.le_iff_toNat_le.1 h.2
  simp only [isBlank, Bool.or_eq_false_iff, Bool.and_eq_false_iff, decide_eq_false_iff_not, beq_eq_false_iff_ne]
  omega

theorem IsWritten.not_isBlank {r : LineRef} {t : Text} (h : r.IsWritten t) : ∀ c ∈ t, isBlank c = false := by
  intro c hc
  rcases h.mem hc with rfl | hd
  · decide
  · exact isBlank_of_isDigit hd

theorem IsWritten.colon_not_mem {r : LineRef} {t : Text} (h : r.IsWritten t) : ':' ∉ t := by
  intro hc
  rcases h.mem hc with hc | hc <;> cases hc

theorem IsWritten.bang_not_mem {r : LineRef} {t : Text} (h : r.IsWritten t) : '!' ∉ t := by
  intro hc
  rcases h.mem hc with hc | hc <;> cases hc

theorem parse_eq_ok_iff_digits {place : RefPlace} {token : Text} {r : LineRef} :
    parse place token = .ok r ↔ Text.startsWith ['-'] token = r.negative ∧
      Text.isNumeral ((Text.after? ['-'] token).getD token) = true ∧
      Text.ofDigits ((Text.after? ['-'] token).getD token) = r.magnitude ∧ r.magnitude < 2 ^ 63 := by
  simp only [parse]
  generalize (Text.after? ['-'] token).getD token = digits
  split
  · next hnum =>
    split
    · next hpos =>
      split
      · next hle =>
        have hlt : Text.ofDigits digits < 2 ^ 63 := by rw [maxMagnitude] at hle; omega
        constructor
        · rintro ⟨rfl⟩
          exact ⟨rfl, hnum, rfl, hlt⟩
        · rintro ⟨hneg, -, hmag, -⟩
          cases r
          simp only at hneg hmag
          simp [hneg, hmag]
      · next hgt =>
        rw [maxMagnitude] at hgt
        simp only [reduceCtorEq, false_iff]
        rintro ⟨-, -, hmag, hlt⟩
        omega
    · next hzero =>
      simp only [reduceCtorEq, false_iff]
      rintro ⟨-, -, hmag, -⟩
      exact hzero (hmag ▸ r.magnitude_pos)
  · next hnum => simp [hnum]

/-- **Reading a reference gives exactly the one that is written.** -/
theorem parse_eq_ok_iff {place : RefPlace} {token : Text} {r : LineRef} :
    parse place token = .ok r ↔ r.IsWritten token := by
  rw [parse_eq_ok_iff_digits, Text.startsWith, Text.isNumeral_iff]
  cases hafter : Text.after? ['-'] token with
  | some rest =>
    obtain rfl : token = '-' :: rest := Text.after?_eq_some_iff.1 hafter
    simp only [Option.isSome_some, Option.getD_some]
    constructor
    · rintro ⟨hneg, hnum, hmag, hlt⟩
      exact ⟨rest, hnum, hmag, hlt, by rw [← hneg, if_pos rfl]⟩
    · rintro ⟨digits, hnum, hmag, hlt, htoken⟩
      cases hneg : r.negative with
      | true =>
        rw [hneg, if_pos rfl, List.cons.injEq] at htoken
        obtain rfl := htoken.2
        exact ⟨rfl, hnum, hmag, hlt⟩
      | false =>
        simp only [hneg, Bool.false_eq_true, if_false] at htoken
        have hminus := hnum.2 '-' (htoken ▸ List.mem_cons_self)
        cases hminus
  | none =>
    simp only [Option.isSome_none, Option.getD_none]
    constructor
    · rintro ⟨hneg, hnum, hmag, hlt⟩
      exact ⟨token, hnum, hmag, hlt, by rw [← hneg, if_neg Bool.false_ne_true]⟩
    · rintro ⟨digits, hnum, hmag, hlt, htoken⟩
      cases hneg : r.negative with
      | true =>
        rw [hneg, if_pos rfl] at htoken
        rw [Text.after?_eq_some_iff.2 (show token = ['-'] ++ digits from htoken)] at hafter
        cases hafter
      | false =>
        simp only [hneg, Bool.false_eq_true, if_false] at htoken
        obtain rfl := htoken
        exact ⟨rfl, hnum, hmag, hlt⟩

end LineRef

/-! ## Clauses -/

namespace Clause

theorem parseSide_eq_ok_iff {place : RefPlace} {side : Text} {ref? : Option LineRef} :
    parseSide place side = .ok ref? ↔ IsSide ref? side := by
  unfold parseSide
  split
  · next hnil =>
    cases ref? with
    | none => simp [IsSide, hnil]
    | some ref =>
      simp only [Except.ok.injEq, reduceCtorEq, IsSide, hnil, false_iff]
      exact fun h => h.ne_nil rfl
  · next hne =>
    rw [map_eq_ok_iff]
    cases ref? with
    | none => simpa [IsSide] using hne
    | some ref => simp [IsSide, LineRef.parse_eq_ok_iff]

theorem ordered_eq_ok_iff {first? last? : Option LineRef} :
    ordered first? last? = .ok () ↔ InOrder first? last? := by
  unfold InOrder
  cases first? with
  | none => simp [ordered]
  | some first =>
    cases last? with
    | none => simp [ordered]
    | some last =>
      simp only [ordered, Option.mem_some_iff, forall_eq']
      split
      · next h => simp_all
      · next h => simp_all

theorem IsSide.not_mem {ref? : Option LineRef} {side : Text} (h : IsSide ref? side) {c : Char}
    (hblank : isBlank c = false) (href : ∀ ref t, LineRef.IsWritten ref t → c ∉ t) : c ∉ side := by
  obtain ⟨left, right, hl, hr, hside⟩ := Text.exists_eq_append_trim side
  have htrim : c ∉ Text.trim side := by
    cases ref? with
    | none => rw [show Text.trim side = [] from h]; exact List.not_mem_nil
    | some ref => exact href ref _ h
  rw [hside, List.mem_append, List.mem_append, not_or, not_or]
  exact ⟨⟨hl.not_mem hblank, htrim⟩, hr.not_mem hblank⟩

/-- **Reading a reach gives exactly the one that is written.** -/
theorem parseReach_eq_ok_iff {body : Text} {reach : Reach} :
    parseReach body = .ok reach ↔ reach.IsWritten body := by
  constructor
  · intro h
    unfold parseReach at h
    split at h
    · obtain ⟨ref, href, rfl⟩ := map_eq_ok_iff.1 h
      exact .line (LineRef.parse_eq_ok_iff.1 href)
    · next left right hcut =>
      obtain ⟨rfl, hleft⟩ := Text.cutFirst?_eq_some_iff.1 hcut
      obtain ⟨first?, hfirst, h⟩ := bind_eq_ok_iff.1 h
      obtain ⟨last?, hlast, h⟩ := bind_eq_ok_iff.1 h
      obtain ⟨⟨⟩, horder, h⟩ := bind_eq_ok_iff.1 h
      cases h
      have hlast := parseSide_eq_ok_iff.1 hlast
      exact .range hleft (hlast.not_mem (by decide) fun _ _ h => h.colon_not_mem) (parseSide_eq_ok_iff.1 hfirst)
        hlast (ordered_eq_ok_iff.1 horder)
  · rintro (href | ⟨hleft, -, hfirst, hlast, horder⟩)
    · rw [parseReach, Text.cutFirst?_eq_none_iff.2 href.colon_not_mem]
      exact map_eq_ok_iff.2 ⟨_, LineRef.parse_eq_ok_iff.2 href, rfl⟩
    · rw [parseReach, Text.cutFirst?_eq_some_iff.2 ⟨rfl, hleft⟩]
      refine bind_eq_ok_iff.2 ⟨_, parseSide_eq_ok_iff.2 hfirst, ?_⟩
      refine bind_eq_ok_iff.2 ⟨_, parseSide_eq_ok_iff.2 hlast, ?_⟩
      exact bind_eq_ok_iff.2 ⟨(), ordered_eq_ok_iff.2 horder, rfl⟩

theorem IsSide.of_trim_eq {ref? : Option LineRef} {side other : Text} (h : IsSide ref? side)
    (heq : Text.trim other = Text.trim side) : IsSide ref? other := by
  cases ref? with
  | none => exact heq.trans h
  | some ref => exact show ref.IsWritten (Text.trim other) from heq ▸ h

theorem isSide_of_isWritten {r : LineRef} {t : Text} (h : r.IsWritten t) : IsSide (some r) t :=
  show r.IsWritten (Text.trim t) from (Text.trim_eq_self h.not_isBlank).symm ▸ h

end Clause

namespace Reach

theorem IsWritten.trim {reach : Reach} {t : Text} (h : reach.IsWritten t) : reach.IsWritten (Text.trim t) := by
  cases h with
  | line href =>
    rw [Text.trim_eq_self href.not_isBlank]
    exact .line href
  | range hleft hright hfirst hlast horder =>
    rw [Text.trim_append_cons (by decide)]
    refine .range (fun hc => hleft ((List.dropWhile_sublist _).mem hc)) (fun hc => hright ?_) ?_ ?_ horder
    · exact List.mem_reverse.1 ((List.dropWhile_sublist _).mem (List.mem_reverse.1 hc))
    · exact hfirst.of_trim_eq (by rw [Text.trim, Text.trimStart_trimStart, Text.trim])
    · exact hlast.of_trim_eq (by
        rw [Text.trim_eq_trimStart_trimEnd, Text.trimEnd_trimEnd, Text.trim_eq_trimStart_trimEnd])

theorem IsWritten.bang_not_mem {reach : Reach} {t : Text} (h : reach.IsWritten t) : '!' ∉ t := by
  cases h with
  | line href => exact href.bang_not_mem
  | range _ _ hfirst hlast _ =>
    rw [List.mem_append, List.mem_cons, not_or, not_or]
    exact ⟨hfirst.not_mem (by decide) fun _ _ h => h.bang_not_mem, by decide,
      hlast.not_mem (by decide) fun _ _ h => h.bang_not_mem⟩

end Reach

namespace Clause

theorem unmarked_of_not_mem {part : Text} (h : '!' ∉ part) : unmarked part = part := by
  cases part with
  | nil => rfl
  | cons c rest =>
    rw [List.mem_cons, not_or] at h
    unfold unmarked
    split
    · next heq => exact absurd (List.cons.inj heq).1.symm h.1
    · rfl

theorem startsWith_bang_of_not_mem {part : Text} (h : '!' ∉ part) : Text.startsWith ['!'] part = false := by
  cases hafter : Text.after? ['!'] part with
  | none => rw [Text.startsWith, hafter]; rfl
  | some rest => exact absurd (by rw [Text.after?_eq_some_iff.1 hafter]; simp) h

theorem IsWritten.reach_unmarked {c : Clause} {part : Text} (h : c.IsWritten part) :
    c.reach.IsWritten (unmarked part) := by
  cases h with
  | added hreach => rwa [unmarked_of_not_mem hreach.bang_not_mem]
  | @excluded reach blanks t hblanks hreach =>
    have htrim : Text.trim (blanks ++ t) = Text.trim t := by
      simpa using Text.trim_append hblanks Text.isBlankText_nil (t := t)
    show reach.IsWritten (Text.trim (blanks ++ t))
    rw [htrim]
    exact hreach.trim

theorem IsWritten.startsWith_bang {c : Clause} {part : Text} (h : c.IsWritten part) :
    Text.startsWith ['!'] part = c.excluded := by
  cases h with
  | added hreach => exact startsWith_bang_of_not_mem hreach.bang_not_mem
  | excluded => rfl

theorem IsWritten.fitsWord {c : Clause} {part : Text} (h : c.IsWritten part) : c.reach.FitsWord := by
  have hreach := h.reach_unmarked
  generalize unmarked part = body, c.reach = reach at hreach
  have hside : ∀ {ref? side}, IsSide ref? side → ∀ r ∈ ref?, r.magnitude < 2 ^ 63 := by
    rintro _ side hs r rfl
    obtain ⟨_, -, -, hlt, -⟩ : r.IsWritten (Text.trim side) := hs
    exact hlt
  intro r hr
  cases hreach with
  | line href =>
    obtain ⟨_, -, -, hlt, -⟩ := href
    rw [List.mem_singleton.1 hr]
    exact hlt
  | range _ _ hfirst hlast _ =>
    rcases List.mem_append.1 hr with hr | hr
    · exact hside hfirst r (Option.mem_toList.1 hr)
    · exact hside hlast r (Option.mem_toList.1 hr)

/-- **Reading a trimmed part gives exactly the clause that is written.** -/
theorem parse_eq_ok_iff {part : Text} {c : Clause} (htrim : Text.trim part = part) :
    parse part = .ok c ↔ c.IsWritten part := by
  rw [parse, map_eq_ok_iff]
  constructor
  · rintro ⟨reach, hreach, rfl⟩
    rw [parseReach_eq_ok_iff] at hreach
    unfold unmarked at hreach
    split at hreach
    · next rest =>
      have hrest : Text.trimEnd rest = rest := by
        have h := Text.trim_append_cons (c := '!') (by decide) [] rest
        rw [List.nil_append, htrim] at h
        exact (List.cons.inj h).2.symm
      obtain ⟨blanks, hblanks, heq⟩ := Text.exists_eq_append_trimStart rest
      rw [Text.trim_eq_trimStart_trimEnd, hrest] at hreach
      conv => rhs; rw [heq]
      exact .excluded hblanks hreach
    · rw [startsWith_bang_of_not_mem hreach.bang_not_mem]
      exact .added hreach
  · intro h
    exact ⟨c.reach, parseReach_eq_ok_iff.2 h.reach_unmarked, by rw [h.startsWith_bang]⟩

/-- **A written clause is never taken for one with a dash.** -/
theorem isDashed_of_isWritten {c : Clause} {part : Text} (h : c.IsWritten part) : isDashed part = false := by
  have hreach := h.reach_unmarked
  unfold isDashed
  generalize unmarked part = body, c.reach = reach at hreach
  rcases hreach with ⟨digits, ⟨hne, hd⟩, -, -, rfl⟩ | _
  · split
    · have hnum : isNegativeNumeral ('-' :: digits) = true := Text.isNumeral_iff.2 ⟨hne, hd⟩
      simp [hnum]
    · have hdash : '-' ∉ digits := fun hc => by cases hd _ hc
      simp [hdash]
  · simp

end Clause

/-! ## Selectors -/

namespace Selector

theorem parts_trim (t : Text) : parts (Text.trim t) = (Text.pieces ',' t).map Text.trim :=
  Text.map_trim_pieces_trim (by decide) t

theorem writtenParts_eq (t : Text) : writtenParts t = (parts (Text.trim t)).filter (fun p => !p.isEmpty) := by
  rw [parts_trim, writtenParts]

theorem mem_writtenParts {t part : Text} :
    part ∈ writtenParts t ↔ part ∈ (Text.pieces ',' t).map Text.trim ∧ part ≠ [] := by
  simp [writtenParts]

theorem trim_of_mem_writtenParts {t part : Text} (h : part ∈ writtenParts t) : Text.trim part = part := by
  obtain ⟨p, -, rfl⟩ := List.mem_map.1 (mem_writtenParts.1 h).1
  exact Text.trim_trim p

theorem writtenParts_of_trim_eq_nil {t : Text} (h : Text.trim t = []) : writtenParts t = [] := by
  rw [writtenParts_eq, h]
  rfl

theorem mapM_parse_eq_ok_iff {t : Text} {clauses : List Clause} :
    (writtenParts t).mapM Clause.parse = .ok clauses ↔ List.Forall₂ Clause.IsWritten clauses (writtenParts t) := by
  have hswap : List.Forall₂ (fun part c => Clause.IsWritten c part) (writtenParts t) clauses ↔
      List.Forall₂ Clause.IsWritten clauses (writtenParts t) := ⟨List.Forall₂.flip, List.Forall₂.flip⟩
  have htrim : ∀ part ∈ writtenParts t, Text.trim part = part := fun _ => trim_of_mem_writtenParts
  rw [mapM_eq_ok_iff, ← hswap]
  constructor
  · intro h
    refine ((List.forall₂_and_left (writtenParts t) clauses).2 ⟨htrim, h⟩).imp ?_
    rintro part c ⟨hpart, hc⟩
    exact (Clause.parse_eq_ok_iff hpart).1 hc
  · intro h
    refine ((List.forall₂_and_left (writtenParts t) clauses).2 ⟨htrim, h⟩).imp ?_
    rintro part c ⟨hpart, hc⟩
    exact (Clause.parse_eq_ok_iff hpart).2 hc

theorem find?_isDashed_eq_none {t : Text}
    (h : ∀ part ∈ (Text.pieces ',' t).map Text.trim, part = [] ∨ ∃ c, Clause.IsWritten c part) :
    (parts (Text.trim t)).find? Clause.isDashed = none := by
  rw [List.find?_eq_none, parts_trim]
  intro part hpart
  rcases h part hpart with rfl | ⟨c, hc⟩
  · decide
  · rw [Clause.isDashed_of_isWritten hc]
    exact Bool.false_ne_true

theorem IsWritten.parts {s : Selector} {t : Text} (h : s.IsWritten t) :
    ∀ part ∈ (Text.pieces ',' t).map Text.trim, part = [] ∨ ∃ c, Clause.IsWritten c part := by
  intro part hpart
  by_cases hnil : part = []
  · exact Or.inl hnil
  refine Or.inr ?_
  unfold IsWritten at h
  split at h
  · next hcolon =>
    have hmem : part ∈ Selector.parts [':'] := by rwa [← hcolon, parts_trim]
    obtain rfl : part = [':'] := List.mem_singleton.1 hmem
    have hrange : Reach.IsWritten (.range none none) ([] ++ [':']) :=
      .range List.not_mem_nil List.not_mem_nil rfl rfl (fun _ hf => by cases hf)
    exact ⟨⟨false, .range none none⟩, .added hrange⟩
  · have hall := List.forall₂_iff_get.1 h
    obtain ⟨i, hi, rfl⟩ := List.getElem_of_mem (mem_writtenParts.2 ⟨hpart, hnil⟩)
    exact ⟨_, hall.2 i (hall.1 ▸ hi) hi⟩

/-- **Reading a text gives exactly the selector that is written.** -/
theorem parse_eq_ok_iff {t : Text} {s : Selector} : Selector.parse t = .ok s ↔ s.IsWritten t := by
  obtain ⟨clauses⟩ := s
  by_cases hempty : Text.trim t = [] ∨ Text.trim t = [':']
  · have hparse : Selector.parse t = .ok ⟨[]⟩ := if_pos hempty
    have hwritten : IsWritten ⟨clauses⟩ t ↔ clauses = [] := by
      unfold IsWritten
      split
      · rfl
      · next hcolon =>
        rw [writtenParts_of_trim_eq_nil (hempty.resolve_right hcolon), List.forall₂_nil_right_iff]
    rw [hparse, hwritten, Except.ok.injEq, Selector.mk.injEq, eq_comm]
  have hcolon : Text.trim t ≠ [':'] := fun h => hempty (Or.inr h)
  constructor
  · intro h
    simp only [Selector.parse, if_neg hempty] at h
    split at h
    · cases h
    · obtain ⟨read, hread, heq⟩ := bind_eq_ok_iff.1 h
      rw [← writtenParts_eq, mapM_parse_eq_ok_iff] at hread
      cases heq
      exact (if_neg hcolon).mpr hread
  · intro h
    have hread : List.Forall₂ Clause.IsWritten clauses (writtenParts t) := (if_neg hcolon).mp h
    rw [← mapM_parse_eq_ok_iff, writtenParts_eq] at hread
    simp only [Selector.parse, if_neg hempty, find?_isDashed_eq_none h.parts]
    exact bind_eq_ok_iff.2 ⟨clauses, hread, rfl⟩

theorem exists_isWritten {t : Text}
    (h : ∀ part ∈ (Text.pieces ',' t).map Text.trim, part = [] ∨ ∃ c, Clause.IsWritten c part) :
    ∃ s : Selector, s.IsWritten t := by
  by_cases hcolon : Text.trim t = [':']
  · exact ⟨⟨[]⟩, (if_pos hcolon).mpr rfl⟩
  have hread : ∀ parts : List Text, (∀ part ∈ parts, ∃ c, Clause.IsWritten c part) →
      ∃ clauses, List.Forall₂ Clause.IsWritten clauses parts := by
    intro parts hparts
    induction parts with
    | nil => exact ⟨[], .nil⟩
    | cons part parts ih =>
      obtain ⟨c, hc⟩ := hparts part List.mem_cons_self
      obtain ⟨clauses, hclauses⟩ := ih (fun p hp => hparts p (List.mem_cons_of_mem _ hp))
      exact ⟨c :: clauses, .cons hc hclauses⟩
  obtain ⟨clauses, hclauses⟩ := hread (writtenParts t) (fun part hpart =>
    (h part (mem_writtenParts.1 hpart).1).resolve_left (mem_writtenParts.1 hpart).2)
  exact ⟨⟨clauses⟩, (if_neg hcolon).mpr hclauses⟩

theorem countsFromEnd_iff {s : Selector} :
    s.countsFromEnd = true ↔ ∃ c ∈ s.clauses, ∃ r ∈ c.reach.refs, r.negative = true := by
  simp only [countsFromEnd, Clause.countsFromEnd, List.any_eq_true]

theorem hasExclusions_iff {s : Selector} : s.hasExclusions = true ↔ ∃ c ∈ s.clauses, c.excluded = true := by
  rw [hasExclusions, List.any_eq_true]

/-- **The texts that are read as selectors are those of the grammar, and each is read as what it writes**: its
clauses in order, with the summary of their signs and marks.  The guard against dashes refuses none of them. -/
theorem parse_reads_grammar (t : Text) :
    ((∃ s, Selector.parse t = .ok s) ↔
      ∀ part ∈ (Text.pieces ',' t).map Text.trim, part = [] ∨ ∃ c, Clause.IsWritten c part) ∧
    (∀ s, Selector.parse t = .ok s ↔ s.IsWritten t) ∧
    (∀ s, Selector.parse t = .ok s →
      (s.countsFromEnd = true ↔ ∃ c ∈ s.clauses, ∃ r ∈ c.reach.refs, r.negative = true) ∧
      (s.hasExclusions = true ↔ ∃ c ∈ s.clauses, c.excluded = true)) ∧
    ((∀ part ∈ (Text.pieces ',' t).map Text.trim, part = [] ∨ ∃ c, Clause.IsWritten c part) →
      ∀ part ∈ parts (Text.trim t), Clause.isDashed part = false) := by
  refine ⟨⟨?_, ?_⟩, fun s => parse_eq_ok_iff, fun s _ => ⟨countsFromEnd_iff, hasExclusions_iff⟩, ?_⟩
  · rintro ⟨s, hs⟩
    exact (parse_eq_ok_iff.1 hs).parts
  · intro h
    obtain ⟨s, hs⟩ := exists_isWritten h
    exact ⟨s, parse_eq_ok_iff.2 hs⟩
  · intro h part hpart
    have hnone := List.find?_eq_none.1 (find?_isDashed_eq_none h) part hpart
    exact Bool.eq_false_iff.2 hnone

theorem fitsWord_of_parse {t : Text} {s : Selector} (h : Selector.parse t = .ok s) : s.FitsWord := by
  intro c hc
  have hwritten := parse_eq_ok_iff.1 h
  unfold IsWritten at hwritten
  split at hwritten
  · rw [hwritten] at hc
    cases hc
  · obtain ⟨i, hi, rfl⟩ := List.getElem_of_mem hc
    have hpart := (List.forall₂_iff_get.1 hwritten).2 i hi ((List.forall₂_iff_get.1 hwritten).1 ▸ hi)
    exact hpart.fitsWord

end Selector
end DocExcerpt
