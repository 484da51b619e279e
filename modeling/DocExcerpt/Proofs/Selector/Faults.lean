import DocExcerpt.Proofs.Selector.Grammar
/-!
# What is wrong with a selector

A text that is no selector has one fault that is told (`Selector.IsFault`).  The first part in the old form, with a
dash between its sides, is told before anything else.  Without such a part it is the first part that is no clause, and
of this part the start before the end and the end before the order of the two (`Reach.IsFault`).  Reading a text fails
exactly with its fault (`Selector.parse_names_fault`).
-/
namespace DocExcerpt

/-- **A signed numeral**: an optional minus sign and ASCII digits, which may stand for any number. -/
def LineRef.IsNumeral (n : Nat) (token : Text) : Prop :=
  ∃ digits, (digits ≠ [] ∧ ∀ c ∈ digits, c.isDigit = true) ∧ Text.ofDigits digits = n ∧
    (token = digits ∨ token = '-' :: digits)

/-- **What is wrong with a reference** in the place of the given name: it is zero, or no numeral that fits a word. -/
inductive LineRef.IsFault (name token : Text) : SelectorError → Prop where
  | zero {place : RefPlace} : place.name = name → IsNumeral 0 token → IsFault name token (.zero place)
  | notNumber {place : RefPlace} :
    place.name = name → (∀ n < 2 ^ 63, ¬IsNumeral n token) → IsFault name token (.notNumber place token)

/-- **What is wrong with a reach**: its only reference, or of two sides around the first colon the start, the end when
the start is right, or the order of the two when each is right. -/
inductive Reach.IsFault : Text → SelectorError → Prop where
  | line {body : Text} {e : SelectorError} :
    ':' ∉ body → LineRef.IsFault "line number".toList body e → IsFault body e
  | first {left right : Text} {e : SelectorError} :
    ':' ∉ left → Text.trim left ≠ [] → LineRef.IsFault "range start".toList (Text.trim left) e →
    IsFault (left ++ ':' :: right) e
  | last {first? : Option LineRef} {left right : Text} {e : SelectorError} :
    ':' ∉ left → Clause.IsSide first? left → Text.trim right ≠ [] →
    LineRef.IsFault "range end".toList (Text.trim right) e → IsFault (left ++ ':' :: right) e
  | inverted {first last : LineRef} {left right : Text} :
    ':' ∉ left → Clause.IsSide (some first) left → Clause.IsSide (some last) right →
    first.negative = false → last.negative = false → last.magnitude < first.magnitude →
    IsFault (left ++ ':' :: right) (.inverted first.magnitude last.magnitude)

namespace Clause

/-- **The body of a part**: the part without one `!` in front, and without the blanks after that. -/
inductive HasBody : Text → Bool → Text → Prop where
  | added {part : Text} : part.head? ≠ some '!' → HasBody part false part
  | excluded {rest : Text} : HasBody ('!' :: rest) true (Text.trim rest)

/-- What stands in front of the body of a part. -/
def mark (excluded : Bool) : Text := if excluded then ['!'] else []

/-- **A part in the old form**: there is a dash in its body and no colon, and the dash is not the sign of a numeral. -/
def IsOldForm (part : Text) : Prop :=
  ∃ excluded body, HasBody part excluded body ∧ ':' ∉ body ∧ '-' ∈ body ∧
    ∀ digits, digits ≠ [] → (∀ c ∈ digits, c.isDigit = true) → body ≠ '-' :: digits

/-- **The dash between the sides of a body** is the first one after the first character.  A dash in front stands
between them only if there is no other; else it is a sign. -/
structure IsCut (body left right : Text) : Prop where
  eq : body = left ++ '-' :: right
  not_mem : '-' ∉ left.tail
  only : left = [] → '-' ∉ right

/-- **The colon form of a part** keeps its mark and has a colon for the dash between its sides. -/
inductive IsColonForm (part : Text) : Text → Prop where
  | mk {excluded : Bool} {body left right : Text} : HasBody part excluded body → IsCut body left right →
    IsColonForm part (mark excluded ++ (left ++ ':' :: right))

end Clause

/-- **What is wrong with a selector.**  A part in the old form comes first, wherever it stands; otherwise it is the
first part that is no clause. -/
inductive Selector.IsFault (t : Text) : SelectorError → Prop where
  | oldForm {before after : List Text} {part suggestion : Text} :
    (Text.pieces ',' t).map Text.trim = before ++ part :: after → (∀ p ∈ before, ¬Clause.IsOldForm p) →
    Clause.IsOldForm part → Clause.IsColonForm part suggestion → IsFault t (.dashRange part suggestion)
  | clause {before after : List Text} {part body : Text} {excluded : Bool} {e : SelectorError} :
    (∀ p ∈ (Text.pieces ',' t).map Text.trim, ¬Clause.IsOldForm p) →
    writtenParts t = before ++ part :: after → (∀ p ∈ before, ∃ c, Clause.IsWritten c p) →
    Clause.HasBody part excluded body → Reach.IsFault body e → IsFault t e

/-! ## References -/

theorem RefPlace.name_injective {place place' : RefPlace} : place.name = place'.name → place = place' := by
  cases place <;> cases place' <;> decide

namespace LineRef

theorem isNumeral_iff {n : Nat} {token : Text} :
    IsNumeral n token ↔ Text.isNumeral ((Text.after? ['-'] token).getD token) = true ∧
      Text.ofDigits ((Text.after? ['-'] token).getD token) = n := by
  rw [Text.isNumeral_iff]
  constructor
  · rintro ⟨digits, hdigits, hn, rfl | rfl⟩
    · have hafter : Text.after? ['-'] token = none := by
        refine Option.eq_none_iff_forall_ne_some.2 (fun rest hrest => ?_)
        have hminus := hdigits.2 '-' (by rw [Text.after?_eq_some_iff.1 hrest]; exact List.mem_cons_self)
        cases hminus
      rw [hafter]
      exact ⟨hdigits, hn⟩
    · exact ⟨hdigits, hn⟩
  · cases hafter : Text.after? ['-'] token with
    | none => exact fun h => ⟨token, h.1, h.2, Or.inl rfl⟩
    | some rest => exact fun h => ⟨rest, h.1, h.2, Or.inr (Text.after?_eq_some_iff.1 hafter)⟩

/-- **Reading a reference fails exactly with what is wrong with it.** -/
theorem parse_eq_error_iff {place : RefPlace} {token : Text} {e : SelectorError} :
    parse place token = .error e ↔ IsFault place.name token e := by
  constructor
  · intro h
    simp only [parse] at h
    split at h
    · next hnum =>
      split at h
      · split at h
        · cases h
        · next hgt =>
          cases h
          refine .notNumber rfl (fun n hlt hn => hgt ?_)
          rw [(isNumeral_iff.1 hn).2, maxMagnitude]
          omega
      · next hpos =>
        cases h
        exact .zero rfl (isNumeral_iff.2 ⟨hnum, by omega⟩)
    · next hnum =>
      cases h
      exact .notNumber rfl (fun n _ hn => hnum (isNumeral_iff.1 hn).1)
  · rintro (⟨hplace, hzero⟩ | ⟨hplace, hno⟩)
    · obtain rfl := RefPlace.name_injective hplace
      obtain ⟨hnum, hvalue⟩ := isNumeral_iff.1 hzero
      simp only [parse]
      rw [if_pos hnum, dif_neg (by omega)]
    · obtain rfl := RefPlace.name_injective hplace
      simp only [parse]
      split
      · next hnum =>
        have hlarge : 2 ^ 63 ≤ Text.ofDigits ((Text.after? ['-'] token).getD token) :=
          Nat.le_of_not_lt (fun hlt => hno _ hlt (isNumeral_iff.2 ⟨hnum, rfl⟩))
        rw [dif_pos (by omega), if_neg (by rw [maxMagnitude]; omega)]
      · rfl

end LineRef

/-! ## Clauses -/

namespace Clause

theorem parseSide_eq_error_iff {place : RefPlace} {side : Text} {e : SelectorError} :
    parseSide place side = .error e ↔ Text.trim side ≠ [] ∧ LineRef.IsFault place.name (Text.trim side) e := by
  unfold parseSide
  split
  · next hnil => simp [hnil]
  · next hne => rw [map_eq_error_iff, LineRef.parse_eq_error_iff, and_iff_right hne]

theorem ordered_eq_error_iff {first? last? : Option LineRef} {e : SelectorError} :
    ordered first? last? = .error e ↔
      ∃ first ∈ first?, ∃ last ∈ last?, first.negative = false ∧ last.negative = false ∧
        last.magnitude < first.magnitude ∧ e = .inverted first.magnitude last.magnitude := by
  cases first? with
  | none => simp [ordered]
  | some first =>
    cases last? with
    | none => simp [ordered]
    | some last =>
      simp only [ordered, Option.mem_some_iff, exists_eq_left']
      split
      · next h =>
        simp only [Bool.and_eq_true, Bool.not_eq_true', decide_eq_true_eq] at h
        rw [Except.error.injEq, eq_comm]
        simp only [h, true_and]
      · next h =>
        simp only [reduceCtorEq, false_iff]
        rintro ⟨hnf, hnl, hlt, -⟩
        exact h (by simp [hnf, hnl, hlt])

/-- **Reading a reach fails exactly with what is wrong with it.** -/
theorem parseReach_eq_error_iff {body : Text} {e : SelectorError} :
    parseReach body = .error e ↔ Reach.IsFault body e := by
  constructor
  · intro h
    unfold parseReach at h
    split at h
    · next hcut =>
      exact .line (Text.cutFirst?_eq_none_iff.1 hcut) (LineRef.parse_eq_error_iff.1 (map_eq_error_iff.1 h))
    · next left right hcut =>
      obtain ⟨rfl, hleft⟩ := Text.cutFirst?_eq_some_iff.1 hcut
      rcases bind_eq_error_iff.1 h with hfirst | ⟨first?, hfirst, h⟩
      · obtain ⟨hne, hfault⟩ := parseSide_eq_error_iff.1 hfirst
        exact .first hleft hne hfault
      rw [parseSide_eq_ok_iff] at hfirst
      rcases bind_eq_error_iff.1 h with hlast | ⟨last?, hlast, h⟩
      · obtain ⟨hne, hfault⟩ := parseSide_eq_error_iff.1 hlast
        exact .last hleft hfirst hne hfault
      rw [parseSide_eq_ok_iff] at hlast
      rcases bind_eq_error_iff.1 h with horder | ⟨_, _, h⟩
      · obtain ⟨first, rfl, last, rfl, hnf, hnl, hlt, rfl⟩ := ordered_eq_error_iff.1 horder
        exact .inverted hleft hfirst hlast hnf hnl hlt
      · cases h
  · rintro (⟨hbody, hfault⟩ | ⟨hleft, hne, hfault⟩ | ⟨hleft, hfirst, hne, hfault⟩ |
      ⟨hleft, hfirst, hlast, hnf, hnl, hlt⟩)
    · rw [parseReach, Text.cutFirst?_eq_none_iff.2 hbody]
      exact map_eq_error_iff.2 (LineRef.parse_eq_error_iff.2 hfault)
    all_goals rw [parseReach, Text.cutFirst?_eq_some_iff.2 ⟨rfl, hleft⟩]
    · exact bind_eq_error_iff.2 (Or.inl (parseSide_eq_error_iff.2 ⟨hne, hfault⟩))
    all_goals refine bind_eq_error_iff.2 (Or.inr ⟨_, parseSide_eq_ok_iff.2 hfirst, ?_⟩)
    · exact bind_eq_error_iff.2 (Or.inl (parseSide_eq_error_iff.2 ⟨hne, hfault⟩))
    · refine bind_eq_error_iff.2 (Or.inr ⟨_, parseSide_eq_ok_iff.2 hlast, ?_⟩)
      exact bind_eq_error_iff.2 (Or.inl (ordered_eq_error_iff.2 ⟨_, rfl, _, rfl, hnf, hnl, hlt, rfl⟩))

theorem hasBody_iff {part body : Text} {excluded : Bool} :
    HasBody part excluded body ↔ Text.startsWith ['!'] part = excluded ∧ unmarked part = body := by
  constructor
  · rintro (hhead | _)
    · cases part with
      | nil => exact ⟨rfl, rfl⟩
      | cons c rest =>
        have hc : '!' ≠ c := fun h => hhead (by rw [h, List.head?_cons])
        refine ⟨by simp [Text.startsWith, Text.after?, hc], ?_⟩
        rw [unmarked]
        exact fun _ h => hc (List.cons.inj h).1.symm
    · exact ⟨rfl, rfl⟩
  · rintro ⟨rfl, rfl⟩
    unfold unmarked
    split
    · exact .excluded
    · next hno =>
      have hbang : Text.startsWith ['!'] part = false := by
        cases hafter : Text.after? ['!'] part with
        | none => rw [Text.startsWith, hafter, Option.isSome_none]
        | some rest => exact absurd (Text.after?_eq_some_iff.1 hafter) (hno rest)
      rw [hbang]
      refine .added (fun hhead => ?_)
      obtain ⟨rest, rfl⟩ := List.head?_eq_some_iff.1 hhead
      exact hno rest rfl

theorem hasBody_unmarked (part : Text) : HasBody part (Text.startsWith ['!'] part) (unmarked part) :=
  hasBody_iff.2 ⟨rfl, rfl⟩

theorem HasBody.mem {part body : Text} {excluded : Bool} {c : Char} (h : HasBody part excluded body) (hc : c ∈ body) :
    c ∈ part := by
  cases h with
  | added => exact hc
  | @excluded rest =>
    obtain ⟨left, right, -, -, hrest⟩ := Text.exists_eq_append_trim rest
    rw [hrest]
    exact List.mem_cons_of_mem _ (List.mem_append_left _ (List.mem_append_right _ hc))

theorem HasBody.parse_eq {part body : Text} {excluded : Bool} (h : HasBody part excluded body) :
    parse part = (parseReach body).map (fun reach => ⟨excluded, reach⟩) := by
  obtain ⟨rfl, rfl⟩ := hasBody_iff.1 h
  rfl

/-- **Reading a part fails exactly with what is wrong with its body.** -/
theorem parse_eq_error_iff {part : Text} {e : SelectorError} :
    parse part = .error e ↔ ∃ excluded body, HasBody part excluded body ∧ Reach.IsFault body e := by
  constructor
  · intro h
    have hbody := hasBody_unmarked part
    rw [hbody.parse_eq, map_eq_error_iff, parseReach_eq_error_iff] at h
    exact ⟨_, _, hbody, h⟩
  · rintro ⟨excluded, body, hbody, h⟩
    rwa [hbody.parse_eq, map_eq_error_iff, parseReach_eq_error_iff]

theorem isNegativeNumeral_iff {body : Text} :
    isNegativeNumeral body = true ↔
      ∃ digits, digits ≠ [] ∧ (∀ c ∈ digits, c.isDigit = true) ∧ body = '-' :: digits := by
  unfold isNegativeNumeral
  split
  · next digits => simp [Text.isNumeral_iff]
  · next hno =>
    simp only [Bool.false_eq_true, false_iff]
    rintro ⟨digits, -, -, rfl⟩
    exact hno digits rfl

/-- **The guard stops exactly the parts in the old form.** -/
theorem isDashed_iff {part : Text} : isDashed part = true ↔ IsOldForm part := by
  have hguard : isDashed part = true ↔ ':' ∉ unmarked part ∧ '-' ∈ unmarked part ∧
      ∀ digits, digits ≠ [] → (∀ c ∈ digits, c.isDigit = true) → unmarked part ≠ '-' :: digits := by
    have hnum : isNegativeNumeral (unmarked part) = false ↔
        ∀ digits, digits ≠ [] → (∀ c ∈ digits, c.isDigit = true) → unmarked part ≠ '-' :: digits := by
      rw [← Bool.not_eq_true, isNegativeNumeral_iff]
      simp only [not_exists, not_and, ne_eq]
    simp [isDashed, hnum, and_assoc]
  rw [hguard]
  constructor
  · exact fun h => ⟨_, _, hasBody_unmarked part, h⟩
  · rintro ⟨excluded, body, hbody, h⟩
    rwa [(hasBody_iff.1 hbody).2]

/-! ## The colon form -/

theorem replaceFirst_append {old new : Char} {left : Text} (h : old ∉ left) (right : Text) :
    Text.replaceFirst old new (left ++ old :: right) = left ++ new :: right := by
  induction left with
  | nil => rw [List.nil_append, Text.replaceFirst, if_pos rfl, List.nil_append]
  | cons c left ih =>
    rw [List.mem_cons, not_or] at h
    rw [List.cons_append, Text.replaceFirst, if_neg (Ne.symm h.1), ih h.2, List.cons_append]

theorem colonForm_eq {part body left right : Text} {excluded : Bool} (hbody : HasBody part excluded body)
    (hcut : IsCut body left right) :
    colonForm part = mark excluded ++ (left ++ ':' :: right) := by
  obtain ⟨rfl, rfl⟩ := hasBody_iff.1 hbody
  rw [colonForm, hcut.eq, mark]
  cases left with
  | nil =>
    have hright : ¬right.contains '-' = true := by simpa using hcut.only rfl
    simp only [List.nil_append, if_neg hright, Text.replaceFirst, if_true]
  | cons c left =>
    have hleft : '-' ∉ left := hcut.not_mem
    have hmem : (left ++ '-' :: right).contains '-' = true := by simp
    simp only [List.cons_append, if_pos hmem, replaceFirst_append hleft]

theorem exists_isCut {body : Text} (h : '-' ∈ body) : ∃ left right, IsCut body left right := by
  obtain ⟨c, rest, rfl⟩ := List.exists_cons_of_ne_nil (List.ne_nil_of_mem h)
  cases hfirst : Text.cutFirst? '-' rest with
  | none =>
    have hrest : '-' ∉ rest := Text.cutFirst?_eq_none_iff.1 hfirst
    obtain rfl : '-' = c := (List.mem_cons.1 h).resolve_right hrest
    exact ⟨[], rest, rfl, List.not_mem_nil, fun _ => hrest⟩
  | some cut =>
    obtain ⟨left, right⟩ := cut
    obtain ⟨rfl, hleft⟩ := Text.cutFirst?_eq_some_iff.1 hfirst
    exact ⟨c :: left, right, rfl, hleft, fun hnil => absurd hnil (List.cons_ne_nil c left)⟩

theorem isColonForm_iff {part suggestion : Text} (h : IsOldForm part) :
    IsColonForm part suggestion ↔ suggestion = colonForm part := by
  constructor
  · rintro ⟨hbody, hcut⟩
    exact (colonForm_eq hbody hcut).symm
  · rintro rfl
    obtain ⟨excluded, body, hbody, -, hdash, -⟩ := h
    obtain ⟨left, right, hcut⟩ := exists_isCut hdash
    rw [colonForm_eq hbody hcut]
    exact .mk hbody hcut

end Clause

/-! ## Selectors -/

theorem Reach.IsFault.ne_dashRange {body part suggestion : Text} {e : SelectorError} (h : Reach.IsFault body e) :
    e ≠ .dashRange part suggestion := by
  have href : ∀ {name token : Text}, ¬LineRef.IsFault name token (.dashRange part suggestion) :=
    fun h => by cases h
  rintro rfl
  cases h with
  | line _ hfault => exact href hfault
  | first _ _ hfault => exact href hfault
  | last _ _ _ hfault => exact href hfault

namespace Selector

variable {t : Text} {e : SelectorError}

theorem find?_isDashed_eq_some_iff {part : Text} :
    (parts (Text.trim t)).find? Clause.isDashed = some part ↔
      ∃ before after, (Text.pieces ',' t).map Text.trim = before ++ part :: after ∧
        (∀ p ∈ before, ¬Clause.IsOldForm p) ∧ Clause.IsOldForm part := by
  simp only [List.find?_eq_some_iff_append, parts_trim, ← Clause.isDashed_iff, Bool.not_eq_true, Bool.not_eq_eq_eq_not,
    Bool.not_true]
  constructor
  · rintro ⟨hpart, before, after, heq, hbefore⟩
    exact ⟨before, after, heq, hbefore, hpart⟩
  · rintro ⟨before, after, heq, hbefore, hpart⟩
    exact ⟨hpart, before, after, heq, hbefore⟩

theorem find?_isDashed_eq_none_iff :
    (parts (Text.trim t)).find? Clause.isDashed = none ↔
      ∀ p ∈ (Text.pieces ',' t).map Text.trim, ¬Clause.IsOldForm p := by
  simp only [List.find?_eq_none, parts_trim, Clause.isDashed_iff]

theorem parse_of_find?_isDashed {part : Text} (h : (parts (Text.trim t)).find? Clause.isDashed = some part) :
    Selector.parse t = .error (.dashRange part (Clause.colonForm part)) := by
  have hbody : ¬(Text.trim t = [] ∨ Text.trim t = [':']) := by
    rintro (hnil | hcolon)
    · rw [hnil] at h
      cases h
    · rw [hcolon] at h
      cases h
  simp only [Selector.parse, if_neg hbody, h]

/-- **Past the guard the parts are read in order as clauses.** -/
theorem parse_eq_mapM (h : ∀ p ∈ (Text.pieces ',' t).map Text.trim, ¬Clause.IsOldForm p)
    (hcolon : Text.trim t ≠ [':']) :
    Selector.parse t = ((writtenParts t).mapM Clause.parse).map Selector.mk := by
  by_cases hnil : Text.trim t = []
  · rw [writtenParts_of_trim_eq_nil hnil]
    exact if_pos (Or.inl hnil)
  · simp only [Selector.parse, hnil, hcolon, or_self, if_false, find?_isDashed_eq_none_iff.2 h, ← writtenParts_eq]
    cases (writtenParts t).mapM Clause.parse <;> rfl

/-- **Past the guard a text fails at its first part that cannot be read.** -/
theorem parse_eq_error_iff_of_forall (h : ∀ p ∈ (Text.pieces ',' t).map Text.trim, ¬Clause.IsOldForm p) :
    Selector.parse t = .error e ↔
      ∃ before part after, writtenParts t = before ++ part :: after ∧ (∀ p ∈ before, ∃ c, Clause.IsWritten c p) ∧
        ∃ excluded body, Clause.HasBody part excluded body ∧ Reach.IsFault body e := by
  have hread : Selector.parse t = .error e ↔ (writtenParts t).mapM Clause.parse = .error e := by
    by_cases hcolon : Text.trim t = [':']
    · -- the colon is not read as a clause, but it could be
      have hclauses : (writtenParts t).mapM Clause.parse = .ok [⟨false, .range none none⟩] := by
        rw [writtenParts_eq, hcolon]
        rfl
      rw [hclauses, show Selector.parse t = .ok ⟨[]⟩ from if_pos (Or.inr hcolon)]
      exact iff_of_false (fun h => nomatch h) (fun h => nomatch h)
    · rw [parse_eq_mapM h hcolon, map_eq_error_iff]
  rw [hread, mapM_eq_error_iff]
  simp only [Clause.parse_eq_error_iff]
  refine exists_congr fun before => exists_congr fun part => exists_congr fun after =>
    and_congr_right fun heq => and_congr_left fun _ => forall₂_congr fun p hp => exists_congr fun c => ?_
  have hmem : p ∈ writtenParts t := by
    rw [heq]
    exact List.mem_append_left _ hp
  exact Clause.parse_eq_ok_iff (trim_of_mem_writtenParts hmem)

/-- **The guard stops a text exactly at its first part in the old form**, and suggests the colon form of that. -/
theorem parse_eq_dashRange_iff {part suggestion : Text} :
    Selector.parse t = .error (.dashRange part suggestion) ↔
      ∃ before after, (Text.pieces ',' t).map Text.trim = before ++ part :: after ∧
        (∀ p ∈ before, ¬Clause.IsOldForm p) ∧ Clause.IsOldForm part ∧ Clause.IsColonForm part suggestion := by
  constructor
  · intro h
    cases hfind : (parts (Text.trim t)).find? Clause.isDashed with
    | none =>
      obtain ⟨_, _, _, -, -, _, _, -, hfault⟩ :=
        (parse_eq_error_iff_of_forall (find?_isDashed_eq_none_iff.1 hfind)).1 h
      exact absurd rfl hfault.ne_dashRange
    | some part' =>
      rw [parse_of_find?_isDashed hfind] at h
      cases h
      obtain ⟨before, after, heq, hbefore, hpart⟩ := find?_isDashed_eq_some_iff.1 hfind
      exact ⟨before, after, heq, hbefore, hpart, (Clause.isColonForm_iff hpart).2 rfl⟩
  · rintro ⟨before, after, heq, hbefore, hpart, hform⟩
    rw [(Clause.isColonForm_iff hpart).1 hform]
    exact parse_of_find?_isDashed (find?_isDashed_eq_some_iff.2 ⟨before, after, heq, hbefore, hpart⟩)

/-- **Reading a text fails exactly with what is wrong with it.** -/
theorem parse_names_fault (t : Text) (e : SelectorError) : Selector.parse t = .error e ↔ IsFault t e := by
  constructor
  · intro h
    cases hfind : (parts (Text.trim t)).find? Clause.isDashed with
    | none =>
      have hold := find?_isDashed_eq_none_iff.1 hfind
      obtain ⟨before, part, after, heq, hbefore, excluded, body, hbody, hfault⟩ :=
        (parse_eq_error_iff_of_forall hold).1 h
      exact .clause hold heq hbefore hbody hfault
    | some part =>
      obtain rfl := Except.error.inj ((parse_of_find?_isDashed hfind).symm.trans h)
      obtain ⟨before, after, heq, hbefore, hpart, hform⟩ := parse_eq_dashRange_iff.1 h
      exact .oldForm heq hbefore hpart hform
  · rintro (⟨heq, hbefore, hpart, hform⟩ | ⟨hold, heq, hbefore, hbody, hfault⟩)
    · exact parse_eq_dashRange_iff.2 ⟨_, _, heq, hbefore, hpart, hform⟩
    · exact (parse_eq_error_iff_of_forall hold).2 ⟨_, _, _, heq, hbefore, _, _, hbody, hfault⟩

end Selector
end DocExcerpt
