import DocExcerpt.Proofs.Selector.Faults
import DocExcerpt.Proofs.Tag.Brackets
/-!
# From the colon of a tag to brackets

The selector of a tag used to follow a colon, with dashes in its ranges (`Tag.IsOldTag`).  Such a tag is refused, and
the value with brackets that is suggested for it has a colon for every dash, the minus signs among them.  So the
suggestion means what the tag meant exactly when there is no minus sign in the tag (`Tag.parse_suggests_brackets`): the
last line becomes the first one, and a range with a side that counts from the end cannot be read.
-/
namespace DocExcerpt

/-- The reference counted from the start. -/
def LineRef.unsigned (r : LineRef) : LineRef := { r with negative := false }

namespace Reach

/-- **A clause of an old tag** is a reference, or two references in order around a dash. -/
inductive IsOldClause : Reach → Text → Prop where
  | line {ref : LineRef} {t : Text} : ref.IsWritten t → IsOldClause (.line ref) t
  | range {first last : LineRef} {a b : Text} : first.IsWritten a → last.IsWritten b →
    Clause.InOrder (some first) (some last) → IsOldClause (.range (some first) (some last)) (a ++ '-' :: b)

/-- What is read for a clause once its dashes are colons: the minus sign of a line is taken for an open start. -/
def misread : Reach → Reach
  | .line ref => if ref.negative then .range none (some ref.unsigned) else .line ref
  | .range first? last? => .range first? last?

/-- Whether a clause is a range with a side that counts from the end. -/
def HasSignedSide : Reach → Prop
  | .line _ => False
  | .range first? last? => ∃ r ∈ first?.toList ++ last?.toList, r.negative = true

end Reach

/-- **A tag in the old form**: a path, a colon, and clauses between commas. -/
structure Tag.IsOldTag (value path : Text) (reaches : List Reach) : Prop where
  path_ne_nil : path ≠ []
  trim_path : Text.trim path = path
  path_free : TagParts.IsBracketFree path
  ne_nil : reaches ≠ []
  clauses : ∃ texts, List.Forall₂ Reach.IsOldClause reaches texts ∧ value = path ++ ':' :: Text.join [','] texts

/-! ## Colons for dashes -/

namespace Text

theorem replaceAll_of_not_mem {old : Char} {t : Text} (h : old ∉ t) (new : Char) : replaceAll old new t = t := by
  rw [replaceAll]
  conv => rhs; rw [← List.map_id t]
  apply List.map_congr_left
  intro c hc
  have hne : c ≠ old := fun heq => h (heq ▸ hc)
  exact if_neg hne

theorem replaceAll_append (old new : Char) (t u : Text) :
    replaceAll old new (t ++ u) = replaceAll old new t ++ replaceAll old new u := List.map_append

theorem not_mem_replaceAll {old new : Char} (h : new ≠ old) (t : Text) : old ∉ replaceAll old new t := by
  intro hmem
  obtain ⟨c, -, hc⟩ := List.mem_map.1 hmem
  split at hc
  · exact h hc
  · next hne => exact hne hc

theorem replaceAll_join {old sep : Char} (hsep : sep ≠ old) (new : Char) (ts : List Text) :
    replaceAll old new (join [sep] ts) = join [sep] (ts.map (replaceAll old new)) := by
  have hkept : replaceAll old new [sep] = [sep] := replaceAll_of_not_mem (by simpa using hsep.symm) new
  induction ts with
  | nil => rfl
  | cons t ts ih =>
    cases ts with
    | nil => rw [List.map_singleton, join_singleton, join_singleton]
    | cons u us =>
      rw [List.map_cons] at ih
      rw [join_cons_cons, replaceAll_append, replaceAll_append, hkept, ih, List.map_cons, List.map_cons, join_cons_cons]

end Text

namespace LineRef

theorem unsigned_eq_self {r : LineRef} (h : r.negative = false) : r.unsigned = r := by
  cases r
  simp only [unsigned, mk.injEq, true_and]
  exact h.symm

theorem IsWritten.exists_digits {r : LineRef} {t : Text} (h : r.IsWritten t) :
    ∃ digits, r.unsigned.IsWritten digits ∧ digits ≠ [] ∧ (∀ c ∈ digits, c.isDigit = true) ∧
      t = (if r.negative then '-' :: digits else digits) ∧
      Text.replaceAll '-' ':' t = if r.negative then ':' :: digits else digits := by
  obtain ⟨digits, ⟨hne, hdigits⟩, hvalue, hlt, rfl⟩ := h
  have hkept : Text.replaceAll '-' ':' digits = digits :=
    Text.replaceAll_of_not_mem (fun hc => nomatch hdigits '-' hc) ':'
  refine ⟨digits, ⟨digits, ⟨hne, hdigits⟩, hvalue, hlt, rfl⟩, hne, hdigits, rfl, ?_⟩
  split
  · exact congrArg (':' :: ·) hkept
  · exact hkept

theorem not_isNumeral_of_mem {n : Nat} {token : Text} (h : ':' ∈ token) : ¬IsNumeral n token := by
  rintro ⟨digits, ⟨-, hdigits⟩, -, rfl | rfl⟩
  · cases hdigits _ h
  · cases hdigits _ ((List.mem_cons.1 h).resolve_left (by decide))

end LineRef

namespace Reach

variable {reach : Reach} {t : Text}

theorem IsOldClause.mem (h : IsOldClause reach t) {c : Char} (hc : c ∈ t) : c = '-' ∨ c.isDigit = true := by
  cases h with
  | line href => exact href.mem hc
  | range hfirst hlast =>
    rw [List.mem_append, List.mem_cons] at hc
    rcases hc with hc | rfl | hc
    · exact hfirst.mem hc
    · exact Or.inl rfl
    · exact hlast.mem hc

theorem IsOldClause.exists_isDigit (h : IsOldClause reach t) : ∃ c ∈ t, c.isDigit = true := by
  have href : ∀ {r : LineRef} {t : Text}, r.IsWritten t → ∃ c ∈ t, c.isDigit = true := by
    intro r t hr
    obtain ⟨digits, -, hne, hdigits, rfl, -⟩ := hr.exists_digits
    obtain ⟨c, rest, rfl⟩ := List.exists_cons_of_ne_nil hne
    exact ⟨c, by split <;> simp, hdigits c List.mem_cons_self⟩
  cases h with
  | line h => exact href h
  | range h =>
    obtain ⟨c, hc, hdigit⟩ := href h
    exact ⟨c, List.mem_append_left _ hc, hdigit⟩

/-- With colons for its dashes a clause is made of colons and digits, and there is a digit. -/
theorem IsOldClause.mem_replaceAll (h : IsOldClause reach t) :
    (∀ c ∈ Text.replaceAll '-' ':' t, c = ':' ∨ c.isDigit = true) ∧
      ∃ c ∈ Text.replaceAll '-' ':' t, c.isDigit = true := by
  constructor
  · intro c hc
    obtain ⟨d, hd, rfl⟩ := List.mem_map.1 hc
    split
    · exact Or.inl rfl
    · next hne => exact Or.inr ((h.mem hd).resolve_left hne)
  · obtain ⟨c, hc, hdigit⟩ := h.exists_isDigit
    refine ⟨c, List.mem_map.2 ⟨c, hc, if_neg ?_⟩, hdigit⟩
    rintro rfl
    cases hdigit

/-- **Without a signed side a clause can be read**, with its minus sign taken for an open start. -/
theorem IsOldClause.isWritten_misread (h : IsOldClause reach t) (hside : ¬reach.HasSignedSide) :
    reach.misread.IsWritten (Text.replaceAll '-' ':' t) := by
  cases h with
  | @line ref _ href =>
    obtain ⟨digits, hdigits, -, -, -, heq⟩ := href.exists_digits
    rw [heq, misread]
    cases hneg : ref.negative with
    | false =>
      rw [LineRef.unsigned_eq_self hneg] at hdigits
      exact .line hdigits
    | true =>
      have hopen : Clause.IsSide none [] := rfl
      exact .range List.not_mem_nil hdigits.colon_not_mem hopen (Clause.isSide_of_isWritten hdigits)
        (fun _ hnone => nomatch hnone)
  | @range first last a b hfirst hlast horder =>
    have hsigns : first.negative = false ∧ last.negative = false := by
      simpa [HasSignedSide] using hside
    obtain ⟨digits, hdigits, -, -, -, heq⟩ := hfirst.exists_digits
    obtain ⟨digits', hdigits', -, -, -, heq'⟩ := hlast.exists_digits
    rw [LineRef.unsigned_eq_self hsigns.1] at hdigits
    rw [LineRef.unsigned_eq_self hsigns.2] at hdigits'
    rw [hsigns.1, if_neg Bool.false_ne_true] at heq
    rw [hsigns.2, if_neg Bool.false_ne_true] at heq'
    have htext : Text.replaceAll '-' ':' (a ++ '-' :: b) = digits ++ ':' :: digits' := by
      rw [Text.replaceAll_append, heq, ← heq']
      rfl
    rw [htext]
    exact .range hdigits.colon_not_mem hdigits'.colon_not_mem (Clause.isSide_of_isWritten hdigits)
      (Clause.isSide_of_isWritten hdigits') horder

/-- **With a signed side a clause cannot be read**: what follows its first colon has another one in it. -/
theorem IsOldClause.isFault_replaceAll (h : IsOldClause reach t) (hside : reach.HasSignedSide) :
    ∃ token, IsFault (Text.replaceAll '-' ':' t) (.notNumber .rangeEnd token) := by
  cases h with
  | line => cases hside
  | @range first last a b hfirst hlast horder =>
    have hfault : ∀ {first? : Option LineRef} {left right : Text}, ':' ∉ left → Clause.IsSide first? left →
        ':' ∈ right → ∃ token, IsFault (left ++ ':' :: right) (.notNumber .rangeEnd token) := by
      intro first? left right hleft hfirst hright
      have hmem := (Text.mem_trim_iff (c := ':') (by decide)).2 hright
      exact ⟨_, .last hleft hfirst (List.ne_nil_of_mem hmem)
        (.notNumber rfl (fun n _ => LineRef.not_isNumeral_of_mem hmem))⟩
    obtain ⟨digits, hdigits, -, -, -, heq⟩ := hfirst.exists_digits
    obtain ⟨digits', -, -, -, -, heq'⟩ := hlast.exists_digits
    have htext : Text.replaceAll '-' ':' (a ++ '-' :: b) =
        (if first.negative then ':' :: digits else digits) ++
          ':' :: (if last.negative then ':' :: digits' else digits') := by
      rw [Text.replaceAll_append, heq, ← heq']
      rfl
    rw [htext]
    cases hneg : first.negative with
    | true =>
      -- the first colon stands for the minus sign, so nothing is before it
      have hopen : ∃ token, IsFault ([] ++ ':' :: (digits ++ ':' :: if last.negative then ':' :: digits' else digits'))
          (.notNumber .rangeEnd token) :=
        hfault List.not_mem_nil (show Clause.IsSide none [] from rfl) (by simp)
      exact hopen
    | false =>
      have hlastneg : last.negative = true := by simpa [HasSignedSide, hneg] using hside
      rw [hlastneg]
      exact hfault hdigits.colon_not_mem (Clause.isSide_of_isWritten hdigits) (by simp)

theorem IsOldClause.parse_replaceAll (h : IsOldClause reach t) :
    Clause.parse (Text.replaceAll '-' ':' t) =
      (Clause.parseReach (Text.replaceAll '-' ':' t)).map (fun reach => ⟨false, reach⟩) := by
  refine (Clause.HasBody.added (fun hhead => ?_)).parse_eq
  rcases h.mem_replaceAll.1 '!' (List.mem_of_mem_head? hhead) with hc | hc <;> cases hc

/-- **A clause is read as it was meant exactly when it has no minus sign.** -/
theorem misread_eq_self_iff :
    (¬reach.HasSignedSide ∧ reach.misread = reach) ↔ ∀ r ∈ reach.refs, r.negative = false := by
  cases reach with
  | line ref => cases hneg : ref.negative <;> simp [HasSignedSide, misread, refs, hneg]
  | range first? last? => simp [HasSignedSide, misread, refs]

end Reach

/-! ## Selectors -/

namespace Selector

variable {reaches : List Reach} {texts : List Text}

theorem mapM_parse_of_forall (h : List.Forall₂ Reach.IsOldClause reaches texts)
    (hside : ∀ reach ∈ reaches, ¬reach.HasSignedSide) :
    (texts.map (Text.replaceAll '-' ':')).mapM Clause.parse =
      .ok (reaches.map (fun reach => ⟨false, reach.misread⟩)) := by
  have hread : List.Forall₂ (fun reach t => Clause.parse (Text.replaceAll '-' ':' t) = .ok ⟨false, reach.misread⟩)
      reaches texts := by
    refine ((List.forall₂_and_left reaches texts).2 ⟨hside, h⟩).imp ?_
    rintro reach t ⟨hreach, ht⟩
    rw [ht.parse_replaceAll, Clause.parseReach_eq_ok_iff.2 (ht.isWritten_misread hreach)]
    rfl
  rw [mapM_eq_ok_iff, List.forall₂_map_left_iff, List.forall₂_map_right_iff]
  exact hread.flip

theorem mapM_parse_of_exists (h : List.Forall₂ Reach.IsOldClause reaches texts)
    (hside : ∃ reach ∈ reaches, reach.HasSignedSide) :
    ∃ token, (texts.map (Text.replaceAll '-' ':')).mapM Clause.parse = .error (.notNumber .rangeEnd token) := by
  induction h with
  | nil => simp at hside
  | @cons reach t reaches texts ht htexts ih =>
    rw [List.map_cons, List.mapM_cons, ht.parse_replaceAll]
    by_cases hreach : reach.HasSignedSide
    · obtain ⟨token, hfault⟩ := ht.isFault_replaceAll hreach
      rw [Clause.parseReach_eq_error_iff.2 hfault]
      exact ⟨token, rfl⟩
    · obtain ⟨token, hrest⟩ := ih (by simpa [hreach] using hside)
      rw [Clause.parseReach_eq_ok_iff.2 (ht.isWritten_misread hreach), hrest]
      exact ⟨token, rfl⟩

theorem exists_isOldClause (h : List.Forall₂ Reach.IsOldClause reaches texts) :
    ∀ t ∈ texts, ∃ reach, Reach.IsOldClause reach t := by
  induction h with
  | nil => simp
  | cons ht _ ih => exact List.forall_mem_cons.2 ⟨⟨_, ht⟩, ih⟩

/-- **The selector of an old tag, with colons for its dashes, is read clause by clause.** -/
theorem parse_replaceAll_join (h : List.Forall₂ Reach.IsOldClause reaches texts) (hne : reaches ≠ []) :
    Selector.parse (Text.replaceAll '-' ':' (Text.join [','] texts)) =
      ((texts.map (Text.replaceAll '-' ':')).mapM Clause.parse).map Selector.mk := by
  have hclause : ∀ p ∈ texts.map (Text.replaceAll '-' ':'), '-' ∉ p ∧
      (∀ c ∈ p, c = ':' ∨ c.isDigit = true) ∧ ∃ c ∈ p, c.isDigit = true := by
    intro p hp
    obtain ⟨t, ht, rfl⟩ := List.mem_map.1 hp
    obtain ⟨reach, hreach⟩ := exists_isOldClause h t ht
    exact ⟨Text.not_mem_replaceAll (by decide) t, hreach.mem_replaceAll⟩
  have htexts : texts ≠ [] := by
    rintro rfl
    exact hne (List.forall₂_nil_right_iff.1 h)
  have hps : texts.map (Text.replaceAll '-' ':') ≠ [] := List.map_eq_nil_iff.not.2 htexts
  rw [Text.replaceAll_join (by decide)]
  generalize texts.map (Text.replaceAll '-' ':') = ps at *
  have hparts : (Text.pieces ',' (Text.join [','] ps)).map Text.trim = ps := by
    have hcomma : ∀ p ∈ ps, ',' ∉ p := by
      intro p hp hc
      rcases (hclause p hp).2.1 ',' hc with hc | hc <;> cases hc
    rw [Text.pieces_join_of_ne_nil hps hcomma]
    conv => rhs; rw [← List.map_id ps]
    apply List.map_congr_left
    intro p hp
    refine Text.trim_eq_self (fun c hc => ?_)
    rcases (hclause p hp).2.1 c hc with rfl | hdigit
    · decide
    · exact LineRef.isBlank_of_isDigit hdigit
  have hwritten : writtenParts (Text.join [','] ps) = ps := by
    rw [writtenParts, hparts, List.filter_eq_self]
    intro p hp
    obtain ⟨c, hc, -⟩ := (hclause p hp).2.2
    simp [List.ne_nil_of_mem hc]
  have hold : ∀ p ∈ (Text.pieces ',' (Text.join [','] ps)).map Text.trim, ¬Clause.IsOldForm p := by
    rw [hparts]
    rintro p hp ⟨excluded, body, hbody, -, hdash, -⟩
    exact (hclause p hp).1 (hbody.mem hdash)
  have hcolon : Text.trim (Text.join [','] ps) ≠ [':'] := by
    intro heq
    rw [← parts_trim, heq] at hparts
    obtain ⟨c, hc, hdigit⟩ := (hclause [':'] (hparts ▸ List.mem_singleton.2 rfl)).2.2
    rw [List.mem_singleton.1 hc] at hdigit
    cases hdigit
  rw [parse_eq_mapM hold hcolon, hwritten]

end Selector

/-! ## Tags -/

theorem TagParts.IsBracketFree.isBalanced {t : Text} (h : IsBracketFree t) : IsBalanced t := by
  have hclose : ∀ start, start <+: t → start.count ']' = 0 :=
    fun start hstart => List.count_eq_zero.2 (fun hc => h.2 (hstart.subset hc))
  refine ⟨fun start hstart => by rw [hclose start hstart]; exact Nat.zero_le _, ?_⟩
  rw [hclose t List.prefix_rfl, List.count_eq_zero.2 h.1]

namespace Tag

variable {value path selector : Text} {reaches : List Reach} {texts : List Text}

/-- **A path with a selector in brackets is read as the path and what the selector reads as.** -/
theorem parse_bracketed (hpath : TagParts.IsPath path) (hfree : TagParts.IsBracketFree selector)
    (hblank : ¬Text.IsBlankText selector) (default? : Option Path) :
    Tag.parse (path ++ '[' :: selector ++ [']']) default? =
      ((Selector.parse selector).mapError TagError.selector).map (fun s => ⟨⟨path⟩, some s⟩) := by
  have hcuts : TagParts.Cuts (Text.trim (path ++ '[' :: selector ++ [']'])) (.ok ⟨path, some selector⟩) := by
    rw [TagParts.trim_compose hpath]
    exact .group (TagParts.hasGroup_compose hpath hfree) hblank
  rw [Tag.parse, (TagParts.cuts_parse _).unique hcuts]
  simp only [bind, Except.bind]
  cases Selector.parse selector <;> rfl

/-- **A value that has a bracket form is refused**, with this form as a suggestion. -/
theorem parse_of_bracketForm? {suggestion : Text} (hfree : TagParts.IsBracketFree value)
    (htrim : Text.trim value = value) (hform : bracketForm? value = some suggestion) (default? : Option Path) :
    Tag.parse value default? = .error (.colonSelector value suggestion) := by
  have hcuts : TagParts.Cuts (Text.trim value) (.ok ⟨value, none⟩) := by
    rw [htrim]
    exact .whole hfree
  rw [Tag.parse, (TagParts.cuts_parse _).unique hcuts]
  simp only [bind, Except.bind, hform]

/-- **Digits, dashes and commas after the last colon are refused**, and suggested in brackets, with colons for the
dashes. -/
theorem parse_colon (hpath : TagParts.IsPath path) (hfree : TagParts.IsBracketFree path) (hne : selector ≠ [])
    (hchar : ∀ c ∈ selector, c = ',' ∨ c = '-' ∨ c.isDigit = true) (default? : Option Path) :
    Tag.parse (path ++ ':' :: selector) default? =
      .error (.colonSelector (path ++ ':' :: selector) (path ++ '[' :: Text.replaceAll '-' ':' selector ++ [']'])) := by
  have hblank : ∀ c ∈ selector, isBlank c = false := by
    intro c hc
    rcases hchar c hc with rfl | rfl | hdigit
    · decide
    · decide
    · exact LineRef.isBlank_of_isDigit hdigit
  have hbrackets : TagParts.IsBracketFree selector := by
    constructor <;> intro hc <;> rcases hchar _ hc with hc | hc | hc <;> cases hc
  refine parse_of_bracketForm? ?_ ?_ ?_ default?
  · simpa [TagParts.IsBracketFree] using And.intro ⟨hfree.1, hbrackets.1⟩ ⟨hfree.2, hbrackets.2⟩
  · rw [Text.trim_append_cons (by decide), Text.trimStart_eq_self hpath.head_not_blank,
      Text.trimEnd_eq_self (fun c hc => hblank c (List.mem_of_mem_getLast? hc))]
  · have hcolon : ':' ∉ selector := by
      intro hc
      rcases hchar _ hc with hc | hc | hc <;> cases hc
    have hall : selector.all isColonSelectorChar = true := by
      rw [List.all_eq_true]
      intro c hc
      rcases hchar c hc with rfl | rfl | hdigit
      · decide
      · decide
      · simp [isColonSelectorChar, isDecimalDigit_of_isDigit c hdigit]
    have hcondition : (!(Text.trim selector).isEmpty && selector.all isColonSelectorChar) = true := by
      rw [Text.trim_eq_self hblank, hall]
      simpa using hne
    rw [bracketForm?, Text.cutLast?_eq_some_iff.2 ⟨rfl, hcolon⟩]
    simp only [if_pos hcondition]
    simp

/-- **The bracket form is read as the path and what its selector reads as.** -/
theorem parse_bracketForm (hpath : TagParts.IsPath path) (hne : selector ≠ [])
    (hchar : ∀ c ∈ selector, c = ',' ∨ c = '-' ∨ c.isDigit = true) (default? : Option Path) :
    Tag.parse (path ++ '[' :: Text.replaceAll '-' ':' selector ++ [']']) default? =
      ((Selector.parse (Text.replaceAll '-' ':' selector)).mapError TagError.selector).map
        (fun s => ⟨⟨path⟩, some s⟩) := by
  have hreplaced : ∀ c ∈ Text.replaceAll '-' ':' selector, c = ',' ∨ c = ':' ∨ c.isDigit = true := by
    intro c hc
    obtain ⟨d, hd, rfl⟩ := List.mem_map.1 hc
    split
    · exact Or.inr (Or.inl rfl)
    · next hdash => exact (hchar d hd).imp_right (fun hd => Or.inr (hd.resolve_left hdash))
  have hbrackets : TagParts.IsBracketFree (Text.replaceAll '-' ':' selector) := by
    constructor <;> intro hc <;> rcases hreplaced _ hc with hc | hc | hc <;> cases hc
  have hsome : Text.replaceAll '-' ':' selector ≠ [] := List.map_eq_nil_iff.not.2 hne
  refine parse_bracketed hpath hbrackets (fun hblank => ?_) default?
  obtain ⟨c, hc⟩ := List.exists_mem_of_ne_nil _ hsome
  have hblank := hblank c hc
  rcases hreplaced c hc with rfl | rfl | hdigit
  · cases hblank
  · cases hblank
  · rw [LineRef.isBlank_of_isDigit hdigit] at hblank
    cases hblank

theorem IsOldTag.isPath (h : IsOldTag value path reaches) : TagParts.IsPath path := by
  have hlast := Text.isBlank_getLast?_trimEnd (Text.trimStart path)
  rw [← Text.trim, h.trim_path] at hlast
  exact ⟨h.path_ne_nil, h.trim_path ▸ Text.isBlank_head?_trim path, hlast, h.path_free.isBalanced⟩

theorem mem_join_clauses (h : List.Forall₂ Reach.IsOldClause reaches texts) :
    ∀ c ∈ Text.join [','] texts, c = ',' ∨ c = '-' ∨ c.isDigit = true := by
  intro c hc
  refine (Text.mem_join hc).imp_right ?_
  rintro ⟨t, ht, hc⟩
  obtain ⟨reach, hreach⟩ := Selector.exists_isOldClause h t ht
  exact hreach.mem hc

theorem join_clauses_ne_nil (h : List.Forall₂ Reach.IsOldClause reaches texts) (hne : reaches ≠ []) :
    Text.join [','] texts ≠ [] := by
  refine Text.join_ne_nil ',' ?_ (fun t ht => ?_)
  · rintro rfl
    exact hne (List.forall₂_nil_right_iff.1 h)
  · obtain ⟨reach, hreach⟩ := Selector.exists_isOldClause h t ht
    obtain ⟨c, hc, -⟩ := hreach.exists_isDigit
    exact List.ne_nil_of_mem hc

theorem parse_suggestion (hpath : TagParts.IsPath path) (h : List.Forall₂ Reach.IsOldClause reaches texts)
    (hne : reaches ≠ []) (default? : Option Path) :
    Tag.parse (path ++ '[' :: Text.replaceAll '-' ':' (Text.join [','] texts) ++ [']']) default? =
      (((texts.map (Text.replaceAll '-' ':')).mapM Clause.parse).mapError TagError.selector).map
        (fun clauses => ⟨⟨path⟩, some ⟨clauses⟩⟩) := by
  rw [parse_bracketForm hpath (join_clauses_ne_nil h hne) (mem_join_clauses h) default?,
    Selector.parse_replaceAll_join h hne]
  cases (texts.map (Text.replaceAll '-' ':')).mapM Clause.parse <;> rfl

/-- **With a signed side the suggestion cannot be read.** -/
theorem parse_suggestion_of_exists (hpath : TagParts.IsPath path) (h : List.Forall₂ Reach.IsOldClause reaches texts)
    (hside : ∃ reach ∈ reaches, reach.HasSignedSide) (default? : Option Path) :
    ∃ token, Tag.parse (path ++ '[' :: Text.replaceAll '-' ':' (Text.join [','] texts) ++ [']']) default? =
      .error (.selector (.notNumber .rangeEnd token)) := by
  obtain ⟨token, hmapM⟩ := Selector.mapM_parse_of_exists h hside
  obtain ⟨reach, hreach, -⟩ := hside
  rw [parse_suggestion hpath h (List.ne_nil_of_mem hreach) default?, hmapM]
  exact ⟨token, rfl⟩

/-- **Without one it is read**, with each minus sign of a line taken for an open start. -/
theorem parse_suggestion_of_forall (hpath : TagParts.IsPath path) (h : List.Forall₂ Reach.IsOldClause reaches texts)
    (hne : reaches ≠ []) (hside : ∀ reach ∈ reaches, ¬reach.HasSignedSide) (default? : Option Path) :
    Tag.parse (path ++ '[' :: Text.replaceAll '-' ':' (Text.join [','] texts) ++ [']']) default? =
      .ok ⟨⟨path⟩, some ⟨reaches.map (fun reach => ⟨false, reach.misread⟩)⟩⟩ := by
  rw [parse_suggestion hpath h hne default?, Selector.mapM_parse_of_forall h hside]
  rfl

/-- **A tag in the old form is refused, and what is suggested for it is what it meant exactly when there is no minus
sign in it.**  Otherwise the suggestion cannot be read because of a range with a side that counts from the end, or it is
read with each minus sign of a line taken for an open start. -/
theorem parse_suggests_brackets (h : IsOldTag value path reaches) (default? : Option Path) :
    ∃ suggestion, Tag.parse value default? = .error (.colonSelector value suggestion) ∧
      (Tag.parse suggestion default? = .ok ⟨⟨path⟩, some ⟨reaches.map (fun reach => ⟨false, reach⟩)⟩⟩ ↔
        ∀ reach ∈ reaches, ∀ r ∈ reach.refs, r.negative = false) ∧
      ((∃ reach ∈ reaches, reach.HasSignedSide) →
        ∃ token, Tag.parse suggestion default? = .error (.selector (.notNumber .rangeEnd token))) ∧
      ((∀ reach ∈ reaches, ¬reach.HasSignedSide) →
        Tag.parse suggestion default? = .ok ⟨⟨path⟩, some ⟨reaches.map (fun reach => ⟨false, reach.misread⟩)⟩⟩) := by
  obtain ⟨texts, htexts, rfl⟩ := h.clauses
  have hrefused := parse_colon h.isPath h.path_free (join_clauses_ne_nil htexts h.ne_nil) (mem_join_clauses htexts)
    default?
  have hsigned := fun hside => parse_suggestion_of_exists h.isPath htexts hside default?
  have hread := fun hside => parse_suggestion_of_forall h.isPath htexts h.ne_nil hside default?
  -- the tags are the same when each clause is read as it was meant
  have hsame : (⟨⟨path⟩, some ⟨reaches.map (fun reach => ⟨false, reach.misread⟩)⟩⟩ : Tag) =
      ⟨⟨path⟩, some ⟨reaches.map (fun reach => ⟨false, reach⟩)⟩⟩ ↔ ∀ reach ∈ reaches, reach.misread = reach := by
    simp
  refine ⟨_, hrefused, ⟨fun hok reach hreach => ?_, fun hplain => ?_⟩, hsigned, hread⟩
  · have hside : ∀ reach ∈ reaches, ¬reach.HasSignedSide := by
      intro reach hreach hside
      obtain ⟨token, herror⟩ := hsigned ⟨reach, hreach, hside⟩
      cases hok.symm.trans herror
    have hmeant := hsame.1 (Except.ok.inj ((hread hside).symm.trans hok))
    exact Reach.misread_eq_self_iff.1 ⟨hside reach hreach, hmeant reach hreach⟩
  · have hclause := fun reach hreach => Reach.misread_eq_self_iff.2 (hplain reach hreach)
    rw [hread (fun reach hreach => (hclause reach hreach).1)]
    exact congrArg Except.ok (hsame.2 (fun reach hreach => (hclause reach hreach).2))

def lastLine : LineRef := ⟨1, true, Nat.one_pos⟩

theorem parse_suggests_brackets_lastLine :
    IsOldTag "a.ts:-1".toList "a.ts".toList [.line lastLine] ∧
    ∃ suggestion, Tag.parse "a.ts:-1".toList none = .error (.colonSelector "a.ts:-1".toList suggestion) ∧
      Tag.parse suggestion none ≠ .ok ⟨⟨"a.ts".toList⟩, some ⟨[⟨false, .line lastLine⟩]⟩⟩ ∧
      Tag.parse suggestion none = .ok ⟨⟨"a.ts".toList⟩, some ⟨[⟨false, .range none (some lastLine.unsigned)⟩]⟩⟩ := by
  have hwritten : lastLine.IsWritten "-1".toList := ⟨['1'], Text.isNumeral_iff.1 rfl, by decide, by decide, rfl⟩
  have htag : IsOldTag "a.ts:-1".toList "a.ts".toList [.line lastLine] :=
    ⟨by decide, by decide, ⟨by decide, by decide⟩, by decide, ["-1".toList], .cons (.line hwritten) .nil, rfl⟩
  obtain ⟨suggestion, hrefused, hmeant, -, hmisread⟩ := parse_suggests_brackets htag none
  have hside : ∀ reach ∈ [Reach.line lastLine], ¬reach.HasSignedSide := by
    intro reach hreach
    rw [List.mem_singleton.1 hreach]
    exact id
  refine ⟨htag, suggestion, hrefused, fun hok => ?_, hmisread hside⟩
  cases hmeant.1 hok (.line lastLine) (by simp) lastLine (by simp [Reach.refs])

end Tag
end DocExcerpt
