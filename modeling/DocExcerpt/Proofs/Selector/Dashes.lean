import DocExcerpt.Proofs.Selector.Faults
/-!
# From dashes to colons

A range used to be written with a dash.  What is suggested for such a range is the same range, with the same mark
(`Selector.parse_colonForm`).  Whatever the guard stops, its suggestion is past the guard, so a text that is changed as
suggested has fewer parts in the old form after each round (`Selector.Round.oldForms_lt`), and after no more rounds than
it has parts it is past the guard itself (`Selector.parse_suggests_colons`).
-/
namespace DocExcerpt

namespace Clause

/-- Two references around a dash, and blanks beside the dash. -/
inductive IsDashRange (first last : LineRef) : Text → Prop where
  | mk {a before after b : Text} : first.IsWritten a → Text.IsBlankText before → Text.IsBlankText after →
    last.IsWritten b → IsDashRange first last (a ++ before ++ '-' :: (after ++ b))

/-- **A range in the old form**: its body is two references around a dash. -/
def IsOldRange (excluded : Bool) (first last : LineRef) (part : Text) : Prop :=
  ∃ body, HasBody part excluded body ∧ IsDashRange first last body

end Clause

namespace Selector

/-- Whether the guard stops a text. -/
def IsRefused (t : Text) : Prop := ∃ part suggestion, Selector.parse t = .error (.dashRange part suggestion)

/-- A piece that reads as the reported part gives way to the suggestion; there may be blanks around that. -/
def Amends (part suggestion piece piece' : Text) : Prop :=
  Text.trim piece = part ∧
    ∃ left right, Text.IsBlankText left ∧ Text.IsBlankText right ∧ piece' = left ++ suggestion ++ right

/-- **A round of changes**: the guard stops a text, and one piece or more that read as the reported part are changed as
suggested, all others kept. -/
def Round (t t' : Text) : Prop :=
  ∃ part suggestion, Selector.parse t = .error (.dashRange part suggestion) ∧
    List.Forall₂ (fun piece piece' => piece' = piece ∨ Amends part suggestion piece piece')
      (Text.pieces ',' t) (Text.pieces ',' t') ∧ t' ≠ t

inductive Rounds : Nat → Text → Text → Prop where
  | done {t : Text} : Rounds 0 t t
  | next {n : Nat} {t t' t'' : Text} : Round t t' → Rounds n t' t'' → Rounds (n + 1) t t''

/-- How many parts of a text are in the old form. -/
def oldForms (t : Text) : Nat := ((Text.pieces ',' t).map Text.trim).countP Clause.isDashed

end Selector

/-! ## Ranges in the old form -/

namespace LineRef

variable {r : LineRef} {t : Text}

theorem IsWritten.head_not_blank (h : r.IsWritten t) (rest : Text) : ∀ c ∈ (t ++ rest).head?, isBlank c = false := by
  intro c hc
  rw [List.head?_append_of_ne_nil _ h.ne_nil] at hc
  exact h.not_isBlank c (List.mem_of_mem_head? hc)

theorem IsWritten.last_not_blank (h : r.IsWritten t) (front : Text) :
    ∀ c ∈ (front ++ t).getLast?, isBlank c = false := by
  intro c hc
  rw [List.getLast?_append_of_ne_nil _ h.ne_nil] at hc
  exact h.not_isBlank c (List.mem_of_mem_getLast? hc)

/-- Only in front does a reference have a dash. -/
theorem IsWritten.dash_not_mem_tail (h : r.IsWritten t) : '-' ∉ t.tail := by
  obtain ⟨digits, ⟨-, hdigits⟩, -, -, rfl⟩ := h
  have hno : '-' ∉ digits := fun hc => nomatch hdigits _ hc
  split
  · exact hno
  · exact fun hc => hno (List.mem_of_mem_tail hc)

end LineRef

namespace Clause

variable {part body left right suggestion : Text} {excluded : Bool} {first last : LineRef}

/-- **A part with a colon is not in the old form.** -/
theorem not_isOldForm_of_mem (h : ':' ∈ part) : ¬IsOldForm part := by
  rintro ⟨excluded, body, hbody, hcolon, -⟩
  cases hbody with
  | added => exact hcolon h
  | excluded =>
    rcases List.mem_cons.1 h with h | h
    · cases h
    · exact hcolon ((Text.mem_trim_iff (by decide)).2 h)

theorem IsColonForm.colon_mem (h : IsColonForm part suggestion) : ':' ∈ suggestion := by
  obtain ⟨-, -⟩ := h
  simp

theorem IsColonForm.comma_not_mem (h : IsColonForm part suggestion) (hpart : ',' ∉ part) : ',' ∉ suggestion := by
  obtain ⟨hbody, hcut⟩ := h
  rename_i excluded body left right
  have hno : ',' ∉ body := fun hc => hpart (hbody.mem hc)
  rw [hcut.eq] at hno
  cases excluded <;> simp_all [mark]

theorem IsDashRange.isCut {a before after b : Text} (ha : first.IsWritten a) (hbefore : Text.IsBlankText before) :
    IsCut (a ++ before ++ '-' :: (after ++ b)) (a ++ before) (after ++ b) := by
  refine ⟨rfl, fun hc => ?_, fun hnil => absurd (List.append_eq_nil_iff.1 hnil).1 ha.ne_nil⟩
  rw [List.tail_append_of_ne_nil ha.ne_nil, List.mem_append] at hc
  exact hc.elim ha.dash_not_mem_tail (hbefore.not_mem (by decide))

theorem IsDashRange.isOldForm (h : IsDashRange first last body) (hbody : HasBody part excluded body) :
    IsOldForm part := by
  obtain ⟨ha, hbefore, hafter, hb⟩ := h
  rename_i a before after b
  refine ⟨excluded, _, hbody, ?_, by simp, fun digits _ hdigits heq => ?_⟩
  · have hno : ':' ∉ before ∧ ':' ∉ after := ⟨hbefore.not_mem (by decide), hafter.not_mem (by decide)⟩
    simp [ha.colon_not_mem, hb.colon_not_mem, hno]
  · -- the body has a dash after its first character, and the digits have none
    have htail := congrArg List.tail heq
    rw [List.append_assoc, List.tail_append_of_ne_nil ha.ne_nil, List.tail_cons] at htail
    have hdash : '-' ∈ digits := by
      rw [← htail]
      simp
    cases hdigits _ hdash

/-- **Two references around a colon are the range from the one to the other**, unless they are in the wrong order. -/
theorem parseReach_colon {a before after b : Text} (ha : first.IsWritten a) (hbefore : Text.IsBlankText before)
    (hafter : Text.IsBlankText after) (hb : last.IsWritten b) :
    parseReach (a ++ before ++ ':' :: (after ++ b)) =
      if first.negative = false ∧ last.negative = false ∧ last.magnitude < first.magnitude then
        .error (.inverted first.magnitude last.magnitude)
      else .ok (.range (some first) (some last)) := by
  have hno : ':' ∉ before ∧ ':' ∉ after := ⟨hbefore.not_mem (by decide), hafter.not_mem (by decide)⟩
  have hleft : ':' ∉ a ++ before := by simp [ha.colon_not_mem, hno]
  have hright : ':' ∉ after ++ b := by simp [hb.colon_not_mem, hno]
  have hfirst : IsSide (some first) (a ++ before) :=
    (isSide_of_isWritten ha).of_trim_eq (Text.trim_append Text.isBlankText_nil hbefore)
  have hlast : IsSide (some last) (after ++ b) :=
    (isSide_of_isWritten hb).of_trim_eq (by simpa using Text.trim_append (t := b) hafter Text.isBlankText_nil)
  split
  · next horder =>
    exact parseReach_eq_error_iff.2 (.inverted hleft hfirst hlast horder.1 horder.2.1 horder.2.2)
  · next horder =>
    refine parseReach_eq_ok_iff.2 (.range hleft hright hfirst hlast ?_)
    simp only [InOrder, Option.mem_some_iff, forall_eq']
    exact fun hnf hnl => Nat.le_of_not_lt (fun hlt => horder ⟨hnf, hnl, hlt⟩)

theorem trim_mark_colon (excluded : Bool) (before after : Text) {a b : Text} (ha : first.IsWritten a)
    (hb : last.IsWritten b) :
    Text.trim (mark excluded ++ (a ++ before ++ ':' :: (after ++ b))) =
      mark excluded ++ (a ++ before ++ ':' :: (after ++ b)) := by
  have hhead : ∀ c ∈ (mark excluded ++ (a ++ before)).head?, isBlank c = false := by
    cases excluded with
    | false => exact ha.head_not_blank before
    | true =>
      rintro c hc
      cases hc
      decide
  rw [← List.append_assoc, Text.trim_append_cons (by decide), Text.trimStart_eq_self hhead,
    Text.trimEnd_eq_self (hb.last_not_blank after)]

theorem hasBody_colon (excluded : Bool) {a before after b : Text} (ha : first.IsWritten a) (hb : last.IsWritten b) :
    HasBody (mark excluded ++ (a ++ before ++ ':' :: (after ++ b))) excluded (a ++ before ++ ':' :: (after ++ b)) := by
  cases excluded with
  | false =>
    refine .added (fun hhead => ?_)
    rw [mark, if_neg Bool.false_ne_true, List.nil_append, List.append_assoc,
      List.head?_append_of_ne_nil _ ha.ne_nil] at hhead
    exact ha.bang_not_mem (List.mem_of_mem_head? hhead)
  | true =>
    have hbody : HasBody ('!' :: (a ++ before ++ ':' :: (after ++ b))) true
        (Text.trim (a ++ before ++ ':' :: (after ++ b))) := .excluded
    rwa [show Text.trim (a ++ before ++ ':' :: (after ++ b)) = a ++ before ++ ':' :: (after ++ b) from
      trim_mark_colon false before after ha hb] at hbody

end Clause

namespace Selector

variable {t part suggestion : Text}

/-- **A text without commas is read as its one clause.** -/
theorem parse_of_comma_not_mem (hcomma : ',' ∉ t) (hne : Text.trim t ≠ []) (hcolon : Text.trim t ≠ [':'])
    (hold : ¬Clause.IsOldForm (Text.trim t)) :
    Selector.parse t = (Clause.parse (Text.trim t)).map (fun c => ⟨[c]⟩) := by
  have hparts : (Text.pieces ',' t).map Text.trim = [Text.trim t] := by
    rw [Text.pieces_of_not_mem hcomma, List.map_singleton]
  have hwritten : writtenParts t = [Text.trim t] := by
    rw [writtenParts, hparts]
    simp [hne]
  rw [parse_eq_mapM (by simpa [hparts] using hold) hcolon, hwritten, List.mapM_cons, List.mapM_nil]
  cases Clause.parse (Text.trim t) <;> rfl

/-! ## The suggestion -/

theorem exists_piece {before after : List Text} (h : (Text.pieces ',' t).map Text.trim = before ++ part :: after) :
    ∃ before' piece after', Text.pieces ',' t = before' ++ piece :: after' ∧ Text.trim piece = part := by
  obtain ⟨before', rest, hpieces, -, hrest⟩ := List.map_eq_append_iff.1 h
  obtain ⟨piece, after', rfl, hpart, -⟩ := List.map_eq_cons_iff.1 hrest
  exact ⟨before', piece, after', hpieces, hpart⟩

theorem comma_not_mem_of_isColonForm {before after : List Text}
    (h : (Text.pieces ',' t).map Text.trim = before ++ part :: after) (hform : Clause.IsColonForm part suggestion) :
    ',' ∉ suggestion := by
  obtain ⟨before', piece, after', hpieces, rfl⟩ := exists_piece h
  refine hform.comma_not_mem (fun hc => ?_)
  have hmem : piece ∈ Text.pieces ',' t := by
    rw [hpieces]
    simp
  exact Text.not_mem_of_mem_pieces hmem ((Text.mem_trim_iff (by decide)).1 hc)

/-- **What is suggested for an old range is the same range**, or says that it is in the wrong order. -/
theorem parse_colonForm {excluded : Bool} {first last : LineRef} (h : Clause.IsOldRange excluded first last part)
    (hcomma : ',' ∉ part) :
    Clause.IsOldForm part ∧ ∃ suggestion, Clause.IsColonForm part suggestion ∧
      Selector.parse suggestion =
        if first.negative = false ∧ last.negative = false ∧ last.magnitude < first.magnitude then
          .error (.inverted first.magnitude last.magnitude)
        else .ok ⟨[⟨excluded, .range (some first) (some last)⟩]⟩ := by
  obtain ⟨body, hbody, hrange⟩ := h
  refine ⟨hrange.isOldForm hbody, ?_⟩
  obtain ⟨ha, hbefore, hafter, hb⟩ := hrange
  rename_i a before after b
  have hform := Clause.IsColonForm.mk hbody (Clause.IsDashRange.isCut ha hbefore)
  refine ⟨_, hform, ?_⟩
  have htrim := Clause.trim_mark_colon excluded before after ha hb
  have hlong : 1 < (Text.trim (Clause.mark excluded ++ (a ++ before ++ ':' :: (after ++ b)))).length := by
    have := List.length_pos_iff.2 ha.ne_nil
    rw [htrim]
    simp only [List.length_append, List.length_cons]
    omega
  have hparse := parse_of_comma_not_mem (hform.comma_not_mem hcomma)
    (fun hnil => by rw [hnil] at hlong; exact absurd hlong (by decide))
    (fun hcolon => by rw [hcolon] at hlong; exact absurd hlong (by decide))
    (Clause.not_isOldForm_of_mem ((Text.mem_trim_iff (by decide)).2 hform.colon_mem))
  rw [hparse, htrim, (Clause.hasBody_colon excluded ha hb).parse_eq, Clause.parseReach_colon ha hbefore hafter hb]
  split <;> rfl

theorem isRefused_iff : IsRefused t ↔ ∃ p ∈ (Text.pieces ',' t).map Text.trim, Clause.IsOldForm p := by
  constructor
  · rintro ⟨part, suggestion, h⟩
    obtain ⟨before, after, heq, -, hpart, -⟩ := parse_eq_dashRange_iff.1 h
    exact ⟨part, by rw [heq]; simp, hpart⟩
  · intro h
    cases hfind : (parts (Text.trim t)).find? Clause.isDashed with
    | none =>
      obtain ⟨p, hp, hold⟩ := h
      exact absurd hold (find?_isDashed_eq_none_iff.1 hfind p hp)
    | some part => exact ⟨part, _, parse_of_find?_isDashed hfind⟩

/-- **A suggestion is past the guard.** -/
theorem not_isRefused_of_isColonForm {before after : List Text}
    (h : (Text.pieces ',' t).map Text.trim = before ++ part :: after) (hform : Clause.IsColonForm part suggestion) :
    ¬IsRefused suggestion := by
  rw [isRefused_iff, Text.pieces_of_not_mem (comma_not_mem_of_isColonForm h hform)]
  have hcolon : ':' ∈ Text.trim suggestion := (Text.mem_trim_iff (by decide)).2 hform.colon_mem
  simpa using Clause.not_isOldForm_of_mem hcolon

/-! ## Rounds of changes -/

theorem Amends.isDashed_eq_false {piece piece' : Text} (hform : Clause.IsColonForm part suggestion)
    (h : Amends part suggestion piece piece') : Clause.isDashed (Text.trim piece') = false := by
  obtain ⟨-, left, right, -, -, rfl⟩ := h
  rw [← Bool.not_eq_true, Clause.isDashed_iff]
  refine Clause.not_isOldForm_of_mem ((Text.mem_trim_iff (by decide)).2 ?_)
  simp [hform.colon_mem]

/-- **Changing pieces in the old form to others** leaves fewer of them, or changes nothing. -/
theorem eq_or_countP_lt {ps qs : List Text}
    (h : List.Forall₂ (fun p q => q = p ∨ (Clause.isDashed (Text.trim p) = true ∧
      Clause.isDashed (Text.trim q) = false)) ps qs) :
    qs = ps ∨ (qs.map Text.trim).countP Clause.isDashed < (ps.map Text.trim).countP Clause.isDashed := by
  induction h with
  | nil => exact Or.inl rfl
  | cons hpq _ ih =>
    rcases hpq with rfl | ⟨hp, hq⟩
    · rcases ih with rfl | hlt
      · exact Or.inl rfl
      · refine Or.inr ?_
        rw [List.map_cons, List.map_cons, List.countP_cons, List.countP_cons]
        omega
    · refine Or.inr ?_
      rw [List.map_cons, List.map_cons, List.countP_cons_of_pos hp, List.countP_cons_of_neg (by simp [hq])]
      rcases ih with rfl | hlt
      · exact Nat.lt_succ_self _
      · exact Nat.lt_succ_of_lt hlt

theorem pieces_injective {sep : Char} {t t' : Text} (h : Text.pieces sep t = Text.pieces sep t') : t = t' := by
  rw [← Text.join_pieces sep t, h, Text.join_pieces]

/-- **Each round leaves fewer parts in the old form.** -/
theorem Round.oldForms_lt {t' : Text} (h : Round t t') : oldForms t' < oldForms t := by
  obtain ⟨part, suggestion, hparse, hpieces, hne⟩ := h
  obtain ⟨_, _, -, -, hpart, hform⟩ := parse_eq_dashRange_iff.1 hparse
  have hchanged := eq_or_countP_lt (hpieces.imp (fun p q hpq => hpq.imp_right (fun hamends =>
    ⟨by rw [hamends.1]; exact Clause.isDashed_iff.2 hpart, hamends.isDashed_eq_false hform⟩)))
  exact hchanged.resolve_left (fun heq => hne (pieces_injective heq))

/-- **Where the guard stops a text, there is a round.** -/
theorem exists_round (h : IsRefused t) : ∃ t', Round t t' := by
  obtain ⟨part, suggestion, hparse⟩ := h
  obtain ⟨before, after, hparts, -, hpart, hform⟩ := parse_eq_dashRange_iff.1 hparse
  have hcomma := comma_not_mem_of_isColonForm hparts hform
  obtain ⟨before', piece, after', hpieces, htrim⟩ := exists_piece hparts
  have hkept : ∀ q ∈ before' ++ suggestion :: after', ',' ∉ q := by
    intro q hq
    have hold : ∀ q ∈ before' ++ piece :: after', ',' ∉ q :=
      fun q hq => Text.not_mem_of_mem_pieces (hpieces ▸ hq)
    rcases List.mem_append.1 hq with hq | hq
    · exact hold q (List.mem_append_left _ hq)
    · rcases List.mem_cons.1 hq with rfl | hq
      · exact hcomma
      · exact hold q (List.mem_append_right _ (List.mem_cons_of_mem _ hq))
  have hnew := Text.pieces_join_of_ne_nil (by simp) hkept
  refine ⟨Text.join [','] (before' ++ suggestion :: after'), part, suggestion, hparse, ?_, fun heq => ?_⟩
  · rw [hnew, hpieces]
    have hsame : ∀ l : List Text, List.Forall₂ (fun p q => q = p ∨ Amends part suggestion p q) l l :=
      fun l => List.forall₂_same.2 (fun _ _ => Or.inl rfl)
    have hamends : Amends part suggestion piece suggestion := ⟨htrim, [], [], by simp [Text.isBlankText_nil]⟩
    exact List.rel_append (hsame before') (.cons (Or.inr hamends) (hsame after'))
  · -- else the suggestion would be the piece, which is in the old form
    rw [heq, hpieces] at hnew
    obtain rfl : piece = suggestion := (List.cons.inj (List.append_cancel_left hnew)).1
    refine Clause.not_isOldForm_of_mem ?_ hpart
    rw [← htrim, Text.mem_trim_iff (by decide)]
    exact hform.colon_mem

theorem Rounds.add_oldForms_le {n : Nat} {t' : Text} (h : Rounds n t t') : n + oldForms t' ≤ oldForms t := by
  induction h with
  | done => omega
  | next hround _ ih =>
    have := hround.oldForms_lt
    omega

theorem exists_rounds (t : Text) : ∃ n t', Rounds n t t' ∧ ¬IsRefused t' := by
  by_cases h : IsRefused t
  · obtain ⟨t', hround⟩ := exists_round h
    obtain ⟨n, t'', hrounds, hpast⟩ := exists_rounds t'
    exact ⟨n + 1, t'', .next hround hrounds, hpast⟩
  · exact ⟨0, t, .done, h⟩
termination_by oldForms t
decreasing_by exact hround.oldForms_lt

theorem oldForms_le (t : Text) : oldForms t ≤ (Text.pieces ',' t).length := by
  have h := List.countP_le_length (p := Clause.isDashed) (l := (Text.pieces ',' t).map Text.trim)
  rwa [List.length_map] at h

/-- **A suggestion leads on.**  For a range in the old form it is the same range, with the same mark, or says that the
range is in the wrong order; for any text at all it is past the guard.  So changing a text as suggested comes to an end,
after no more rounds than the text has parts, and it ends at a text that is past the guard. -/
theorem parse_suggests_colons :
    (∀ t before part after excluded first last, (Text.pieces ',' t).map Text.trim = before ++ part :: after →
      (∀ p ∈ before, ¬Clause.IsOldForm p) → Clause.IsOldRange excluded first last part →
      ∃ suggestion, Selector.parse t = .error (.dashRange part suggestion) ∧
        Selector.parse suggestion =
          if first.negative = false ∧ last.negative = false ∧ last.magnitude < first.magnitude then
            .error (.inverted first.magnitude last.magnitude)
          else .ok ⟨[⟨excluded, .range (some first) (some last)⟩]⟩) ∧
    (∀ t part suggestion, Selector.parse t = .error (.dashRange part suggestion) → ¬IsRefused suggestion) ∧
    ∀ t, (∃ n t', Rounds n t t' ∧ ¬IsRefused t') ∧
      ∀ n t', Rounds n t t' → n ≤ (Text.pieces ',' t).length ∧ (IsRefused t' → ∃ t'', Round t' t'') := by
  refine ⟨?_, ?_, fun t => ⟨exists_rounds t, fun n t' h => ⟨?_, exists_round⟩⟩⟩
  · intro t before part after excluded first last hparts hbefore hrange
    have hcomma : ',' ∉ part := by
      obtain ⟨before', piece, after', hpieces, rfl⟩ := exists_piece hparts
      rw [Text.mem_trim_iff (by decide)]
      exact Text.not_mem_of_mem_pieces (hpieces ▸ List.mem_append_right _ List.mem_cons_self)
    obtain ⟨hold, suggestion, hform, hparse⟩ := parse_colonForm hrange hcomma
    exact ⟨suggestion, parse_eq_dashRange_iff.2 ⟨before, after, hparts, hbefore, hold, hform⟩, hparse⟩
  · intro t part suggestion h
    obtain ⟨before, after, hparts, -, -, hform⟩ := parse_eq_dashRange_iff.1 h
    exact not_isRefused_of_isColonForm hparts hform
  · exact Nat.le_trans (Nat.le_add_right n _) (Nat.le_trans h.add_oldForms_le (oldForms_le t))

def fifthLast : LineRef := ⟨5, true, by decide⟩

def secondLast : LineRef := ⟨2, true, Nat.two_pos⟩

theorem parse_suggests_colons_signedRange :
    (Text.pieces ',' "0, !-5 - -2 ,x".toList).map Text.trim = ["0".toList] ++ "!-5 - -2".toList :: ["x".toList] ∧
    (∀ p ∈ ["0".toList], ¬Clause.IsOldForm p) ∧ Clause.IsOldRange true fifthLast secondLast "!-5 - -2".toList ∧
    ∃ suggestion, Selector.parse "0, !-5 - -2 ,x".toList = .error (.dashRange "!-5 - -2".toList suggestion) ∧
      Selector.parse suggestion = .ok ⟨[⟨true, .range (some fifthLast) (some secondLast)⟩]⟩ ∧
      ¬IsRefused suggestion := by
  have hparts : (Text.pieces ',' "0, !-5 - -2 ,x".toList).map Text.trim =
      ["0".toList] ++ "!-5 - -2".toList :: ["x".toList] := by decide
  have hbefore : ∀ p ∈ ["0".toList], ¬Clause.IsOldForm p := by
    intro p hp
    rw [List.mem_singleton.1 hp, ← Clause.isDashed_iff]
    decide
  have hdash : Clause.IsDashRange fifthLast secondLast ("-5".toList ++ [' '] ++ '-' :: ([' '] ++ "-2".toList)) :=
    .mk ⟨['5'], Text.isNumeral_iff.1 rfl, by decide, by decide, rfl⟩ (by decide) (by decide)
      ⟨['2'], Text.isNumeral_iff.1 rfl, by decide, by decide, rfl⟩
  have hrange : Clause.IsOldRange true fifthLast secondLast "!-5 - -2".toList := ⟨_, .excluded, hdash⟩
  obtain ⟨suggestion, hrefused, hread⟩ := parse_suggests_colons.1 _ _ _ _ _ _ _ hparts hbefore hrange
  exact ⟨hparts, hbefore, hrange, suggestion, hrefused, hread, parse_suggests_colons.2.1 _ _ _ hrefused⟩

end Selector
end DocExcerpt
