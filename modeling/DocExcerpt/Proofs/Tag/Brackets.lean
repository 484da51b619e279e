import DocExcerpt.Proofs.Text.Trim
import DocExcerpt.Tag
/-!
# The bracket group of a tag

A value with a selector is a path, blanks and a bracket group (`TagParts.HasGroup`).  The path may hold brackets of its
own as long as they are balanced, the selector none, so there is at most one way to see a value like that
(`TagParts.HasGroup.unique`).  Reading a tag gives exactly the parts of its value, or says what is wrong with it
(`TagParts.Cuts`, `TagParts.parse_eq_iff_cuts`).
-/
namespace DocExcerpt
namespace TagParts

def IsBracketFree (t : Text) : Prop := '[' ∉ t ∧ ']' ∉ t

/-- **The brackets of a text are balanced**: no start of it closes more of them than it opens, and the whole text
closes all that it opens. -/
structure IsBalanced (t : Text) : Prop where
  count_le : ∀ start, start <+: t → start.count ']' ≤ start.count '['
  count_eq : t.count ']' = t.count '['

/-- A path that a bracket group may follow. -/
structure IsPath (path : Text) : Prop where
  ne_nil : path ≠ []
  head_not_blank : ∀ c ∈ path.head?, isBlank c = false
  last_not_blank : ∀ c ∈ path.getLast?, isBlank c = false
  balanced : IsBalanced path

/-- **A value that ends in a bracket group**, with the path, the blanks before the group and the text inside it. -/
structure HasGroup (value path blanks inside : Text) : Prop where
  eq : value = path ++ blanks ++ '[' :: inside ++ [']']
  path : IsPath path
  blanks : Text.IsBlankText blanks
  inside : IsBracketFree inside

/-- **What a value is cut into.** -/
inductive Cuts (value : Text) : Except TagError TagParts → Prop where
  | whole : IsBracketFree value → Cuts value (.ok ⟨value, none⟩)
  | group {path blanks selector : Text} :
    HasGroup value path blanks selector → ¬Text.IsBlankText selector → Cuts value (.ok ⟨path, some selector⟩)
  | emptyGroup {path blanks inside : Text} :
    HasGroup value path blanks inside → Text.IsBlankText inside → Cuts value (.error (.emptySelector value))
  | malformed :
    ¬IsBracketFree value → (∀ path blanks inside, ¬HasGroup value path blanks inside) →
    Cuts value (.error (.malformed value))

/-! ## Balanced brackets -/

theorem forall_prefix_cons_iff {P : Text → Prop} {c : Char} {t : Text} :
    (∀ start, start <+: c :: t → P start) ↔ P [] ∧ ∀ start, start <+: t → P (c :: start) := by
  constructor
  · intro h
    exact ⟨h [] List.nil_prefix, fun start hstart => h (c :: start) (List.cons_prefix_cons.2 ⟨rfl, hstart⟩)⟩
  · rintro ⟨hnil, hcons⟩ start hstart
    rcases List.prefix_cons_iff.1 hstart with rfl | ⟨rest, rfl, hrest⟩
    · exact hnil
    · exact hcons rest hrest

theorem balancedFrom_cons_of_ne {depth : Nat} {c : Char} (hopen : c ≠ '[') (hclose : c ≠ ']') (t : Text) :
    balancedFrom depth (c :: t) = balancedFrom depth t := by
  rw [balancedFrom]
  · exact hopen
  · exact fun _ => hclose
  · exact fun _ _ => hclose

/-- **The depth counted along a text** is what its start has opened and not closed. -/
theorem balancedFrom_iff {depth : Nat} {t : Text} :
    balancedFrom depth t = true ↔
      (∀ start, start <+: t → start.count ']' ≤ depth + start.count '[') ∧ t.count ']' = depth + t.count '[' := by
  induction t generalizing depth with
  | nil =>
    simp only [balancedFrom, beq_iff_eq, List.prefix_nil, forall_eq, List.count_nil]
    omega
  | cons c t ih =>
    rw [forall_prefix_cons_iff]
    by_cases hopen : c = '['
    · subst hopen
      have hclose : ']' ≠ '[' := by decide
      simp only [balancedFrom, ih, List.count_nil, List.count_cons_self, List.count_cons_of_ne hclose.symm,
        Nat.zero_le, true_and, Nat.add_right_comm depth, ← Nat.add_assoc]
    by_cases hclose : c = ']'
    · subst hclose
      simp only [List.count_nil, List.count_cons_self, List.count_cons_of_ne hopen, Nat.zero_le, true_and]
      cases depth with
      | zero =>
        -- the bracket itself is a start that closes more than it opens
        simp only [balancedFrom, Bool.false_eq_true, false_iff, not_and]
        intro h
        have := h [] List.nil_prefix
        simp at this
      | succ depth =>
        simp only [balancedFrom, ih, Nat.add_right_comm depth, Nat.add_le_add_iff_right, Nat.add_right_cancel_iff]
    · simp only [balancedFrom_cons_of_ne hopen hclose, ih, List.count_nil, List.count_cons_of_ne hopen,
        List.count_cons_of_ne hclose, Nat.zero_le, true_and]

theorem balanced_iff {t : Text} : balanced t = true ↔ IsBalanced t := by
  rw [balanced, balancedFrom_iff]
  simp only [Nat.zero_add]
  exact ⟨fun h => ⟨h.1, h.2⟩, fun h => ⟨h.count_le, h.count_eq⟩⟩

/-! ## The parts of a value -/

variable {value path blanks inside path' blanks' inside' : Text}

theorem HasGroup.not_isBracketFree (h : HasGroup value path blanks inside) : ¬IsBracketFree value := by
  rintro ⟨hopen, -⟩
  exact hopen (h.eq ▸ by simp)

theorem HasGroup.trimEnd_eq (h : HasGroup value path blanks inside) : Text.trimEnd (path ++ blanks) = path := by
  rw [Text.trimEnd_append h.blanks, Text.trimEnd_eq_self h.path.last_not_blank]

/-- **The group starts at the last bracket that opens**, since none stands inside it. -/
theorem HasGroup.cutLast?_eq {body : Text} (h : HasGroup (body ++ [']']) path blanks inside) :
    Text.cutLast? '[' body = some (path ++ blanks, inside) :=
  Text.cutLast?_eq_some_iff.2 ⟨List.append_cancel_right h.eq, h.inside.1⟩

/-- **A value has one group**, and the path before it ends where its blanks begin. -/
theorem HasGroup.unique (h : HasGroup value path blanks inside) (h' : HasGroup value path' blanks' inside') :
    path = path' ∧ blanks = blanks' ∧ inside = inside' := by
  obtain rfl := h.eq
  have hcut := h.cutLast?_eq.symm.trans h'.cutLast?_eq
  rw [Option.some.injEq, Prod.mk.injEq] at hcut
  obtain ⟨hbefore, rfl⟩ := hcut
  have hpath : path = path' := by rw [← h.trimEnd_eq, hbefore, h'.trimEnd_eq]
  subst hpath
  exact ⟨rfl, List.append_cancel_left hbefore, rfl⟩

theorem Cuts.unique {outcome outcome' : Except TagError TagParts} (h : Cuts value outcome)
    (h' : Cuts value outcome') : outcome = outcome' := by
  -- a value with a group is not free of brackets, and what is inside its one group tells the last two cases apart
  cases h with
  | whole hfree =>
    cases h' with
    | whole => rfl
    | group hgroup => exact absurd hfree hgroup.not_isBracketFree
    | emptyGroup hgroup => exact absurd hfree hgroup.not_isBracketFree
    | malformed hno => exact absurd hfree hno
  | group hgroup hblank =>
    cases h' with
    | whole hfree => exact absurd hfree hgroup.not_isBracketFree
    | group hgroup' =>
      obtain ⟨rfl, -, rfl⟩ := hgroup.unique hgroup'
      rfl
    | emptyGroup hgroup' hblank' =>
      obtain ⟨-, -, rfl⟩ := hgroup.unique hgroup'
      exact absurd hblank' hblank
    | malformed _ hno => exact absurd hgroup (hno _ _ _)
  | emptyGroup hgroup hblank =>
    cases h' with
    | whole hfree => exact absurd hfree hgroup.not_isBracketFree
    | group hgroup' hblank' =>
      obtain ⟨-, -, rfl⟩ := hgroup.unique hgroup'
      exact absurd hblank hblank'
    | emptyGroup => rfl
    | malformed _ hno => exact absurd hgroup (hno _ _ _)
  | malformed hno hall =>
    cases h' with
    | whole hfree => exact absurd hfree hno
    | group hgroup => exact absurd hgroup (hall _ _ _)
    | emptyGroup hgroup => exact absurd hgroup (hall _ _ _)
    | malformed => rfl

/-- What is left before the last group of a trimmed value, without the blanks at its end, is a path of the group when
it could be one. -/
theorem hasGroup_of_before {before selector : Text}
    (hhead : ∀ c ∈ (before ++ '[' :: selector ++ [']']).head?, isBlank c = false) (hopen : '[' ∉ selector)
    (hne : Text.trimEnd before ≠ []) (hclose : ']' ∉ selector) (hbalanced : balanced (Text.trimEnd before) = true) :
    ∃ blanks, HasGroup (before ++ '[' :: selector ++ [']']) (Text.trimEnd before) blanks selector := by
  obtain ⟨blanks, hblanks, hbefore⟩ := Text.exists_eq_trimEnd_append before
  have hlast := Text.isBlank_getLast?_trimEnd before
  generalize Text.trimEnd before = path at *
  subst hbefore
  refine ⟨blanks, rfl, ⟨hne, fun c hc => hhead c ?_, hlast, balanced_iff.1 hbalanced⟩, hblanks, hopen, hclose⟩
  rw [List.append_assoc, List.append_assoc, List.head?_append, Option.mem_def.1 hc, Option.some_or, Option.mem_def]

/-- **Reading a tag gives what its value is cut into.** -/
theorem cuts_parse (tag : Text) : Cuts (Text.trim tag) (parse tag) := by
  have hhead := Text.isBlank_head?_trim tag
  unfold parse
  generalize Text.trim tag = value at *
  dsimp only
  cases hbody : Text.before? [']'] value with
  | none =>
    have hno : ∀ path blanks inside, ¬HasGroup value path blanks inside := by
      intro path blanks inside h
      rw [Text.before?_eq_some_iff.2 h.eq] at hbody
      cases hbody
    by_cases hfree : IsBracketFree value
    · rw [if_neg (by simpa [IsBracketFree] using hfree)]
      exact .whole hfree
    · rw [if_pos (by simpa [IsBracketFree, Decidable.imp_iff_not_or] using hfree)]
      exact .malformed hfree hno
  | some body =>
    obtain rfl := Text.before?_eq_some_iff.1 hbody
    have hfree : ¬IsBracketFree (body ++ [']']) := fun h => h.2 (by simp)
    dsimp only
    cases hcut : Text.cutLast? '[' body with
    | none =>
      refine .malformed hfree (fun path blanks inside h => ?_)
      rw [h.cutLast?_eq] at hcut
      cases hcut
    | some cut =>
      obtain ⟨before, selector⟩ := cut
      obtain ⟨rfl, hopen⟩ := Text.cutLast?_eq_some_iff.1 hcut
      dsimp only
      split
      · next hbad =>
        refine .malformed hfree (fun path blanks inside h => ?_)
        cases hcut.symm.trans h.cutLast?_eq
        rw [h.trimEnd_eq] at hbad
        simp [h.path.ne_nil, h.inside.2, balanced_iff.2 h.path.balanced] at hbad
      · next hgood =>
        simp only [Bool.or_eq_true, List.isEmpty_iff, List.contains_iff_mem, Bool.not_eq_true', not_or,
          Bool.not_eq_false] at hgood
        obtain ⟨⟨hne, hclose⟩, hbalanced⟩ := hgood
        obtain ⟨blanks, hgroup⟩ := hasGroup_of_before hhead hopen hne hclose hbalanced
        split
        · next hblank =>
          exact .emptyGroup hgroup (Text.trim_eq_nil_iff.1 (List.isEmpty_iff.1 hblank))
        · next hblank =>
          exact .group hgroup (fun h => hblank (List.isEmpty_iff.2 (Text.trim_eq_nil_iff.2 h)))

theorem hasGroup_compose {selector : Text} (hpath : IsPath path) (hselector : IsBracketFree selector) :
    HasGroup (path ++ '[' :: selector ++ [']']) path [] selector :=
  ⟨by rw [List.append_nil], hpath, Text.isBlankText_nil, hselector⟩

theorem trim_compose (hpath : IsPath path) (inside : Text) :
    Text.trim (path ++ '[' :: inside ++ [']']) = path ++ '[' :: inside ++ [']'] := by
  have hhead : ∀ c ∈ (path ++ '[' :: inside).head?, isBlank c = false := by
    obtain ⟨c, rest, hcons⟩ := List.exists_cons_of_ne_nil hpath.ne_nil
    have h := hpath.head_not_blank
    rw [hcons] at h ⊢
    exact h
  rw [Text.trim_append_cons (by decide), Text.trimStart_eq_self hhead]
  rfl

/-- **Reading a tag gives exactly the parts of its value.**  A value has no more than one path and group, and a path and
a selector put together are read back. -/
theorem parse_eq_iff_cuts :
    (∀ tag outcome, parse tag = outcome ↔ Cuts (Text.trim tag) outcome) ∧
    (∀ value path blanks inside path' blanks' inside', HasGroup value path blanks inside →
      HasGroup value path' blanks' inside' → path = path' ∧ blanks = blanks' ∧ inside = inside') ∧
    ∀ path selector, IsPath path → IsBracketFree selector → ¬Text.IsBlankText selector →
      parse (path ++ '[' :: selector ++ [']']) = .ok ⟨path, some selector⟩ := by
  have hparse : ∀ tag outcome, parse tag = outcome ↔ Cuts (Text.trim tag) outcome := by
    intro tag outcome
    constructor
    · rintro rfl
      exact cuts_parse tag
    · exact (cuts_parse tag).unique
  refine ⟨hparse, fun _ _ _ _ _ _ _ h h' => h.unique h', fun path selector hpath hfree hblank => ?_⟩
  rw [hparse, trim_compose hpath]
  exact .group (hasGroup_compose hpath hfree) hblank

def bracketedPath : Text := "routes/[id]/a [x[y]].ts".toList

theorem parse_bracketedPath :
    IsPath bracketedPath ∧ IsBracketFree "1:3".toList ∧ ¬Text.IsBlankText "1:3".toList ∧
      parse (bracketedPath ++ "[1:3]".toList) = .ok ⟨bracketedPath, some "1:3".toList⟩ := by
  have hpath : IsPath bracketedPath := by
    refine ⟨by decide, fun c hc => ?_, fun c hc => ?_, balanced_iff.1 (by decide)⟩
    · cases (show bracketedPath.head? = some 'r' by decide).symm.trans hc
      decide
    · cases (show bracketedPath.getLast? = some 's' by decide).symm.trans hc
      decide
  have hfree : IsBracketFree "1:3".toList := ⟨by decide, by decide⟩
  have hblank : ¬Text.IsBlankText "1:3".toList := by decide
  exact ⟨hpath, hfree, hblank, parse_eq_iff_cuts.2.2 bracketedPath "1:3".toList hpath hfree hblank⟩

end TagParts
end DocExcerpt
