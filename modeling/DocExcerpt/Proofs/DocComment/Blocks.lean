import DocExcerpt.Proofs.DocComment.Requests
import DocExcerpt.Proofs.Text.Occurrence
import DocExcerpt.Proofs.Text.Trim
/-!
# Rows inside a block

Which rows of a file lie inside a comment block is told by the rows before them (`DocComment.Inside`): one of these
opens a block and does not close it, and no row in between does.  The flag that is carried from row to row is just
that (`DocComment.inside_succ_iff`), so tags are found in the comment text of the rows and nowhere else
(`DocComment.requests_read_comments`).
-/
namespace DocExcerpt
namespace DocComment

def blockStart : Text := ['/', '*', '*']

def blockEnd : Text := ['*', '/']

/-- **A row that can open a block**, with the text after the start of the block. -/
def Opens (row rest : Text) : Prop := Text.trimStart row = blockStart ++ rest ∧ ¬['/'] <+: rest

/-- **A row inside a block.**  An earlier row that is not inside one opens a block and does not end it, and no row
between the two ends it. -/
def Inside (rows : List Text) (i : Nat) : Prop :=
  ∃ j, ∃ _ : j < i,
    (¬Inside rows j ∧ ∃ row rest, rows[j]? = some row ∧ Opens row rest ∧ ¬blockEnd <:+: rest) ∧
      ∀ k row, j < k → k < i → rows[k]? = some row → ¬blockEnd <:+: row
termination_by i

/-- **The text of a comment up to the end of its block**: all of it, when the block does not end there. -/
inductive UpToEnd (t : Text) : Text → Prop where
  | ended {body after : Text} (h : Text.IsFirst blockEnd t body after) : UpToEnd t body
  | unended (h : ¬blockEnd <:+: t) : UpToEnd t t

/-- The text of a row inside a block: without the blanks before it and one star. -/
inductive WithoutStar (t : Text) : Text → Prop where
  | star {body : Text} (h : Text.trimStart t = '*' :: body) : WithoutStar t body
  | bare (h : ¬['*'] <+: Text.trimStart t) : WithoutStar t (Text.trimStart t)

/-- **The comment text of a row**: of a row inside a block, of a row that opens one, and of a line comment. -/
inductive CommentText (rows : List Text) (i : Nat) (row : Text) : Text → Prop where
  | inside {t body : Text} (h : Inside rows i) (ht : UpToEnd (Text.trimStart row) t) (hbody : WithoutStar t body) :
    CommentText rows i row body
  | opener {rest body : Text} (h : ¬Inside rows i) (hrest : Opens row rest) (hbody : UpToEnd rest body) :
    CommentText rows i row body
  | line {body : Text} (h : ¬Inside rows i) (hblock : ¬blockStart <+: Text.trimStart row)
    (hbody : Text.trimStart row = ['/', '/', '/'] ++ body ∨ Text.trimStart row = ['/', '/', '!'] ++ body) :
    CommentText rows i row body

variable {rows : List Text} {i : Nat} {row rest t body : Text}

/-! ## The flag of a row -/

/-- **From one row to the next**: the next row is inside a block when this one is and does not end it, or opens one
and does not end it. -/
theorem inside_succ_iff (hrow : rows[i]? = some row) :
    Inside rows (i + 1) ↔
      Inside rows i ∧ ¬blockEnd <:+: row ∨ ¬Inside rows i ∧ ∃ rest, Opens row rest ∧ ¬blockEnd <:+: rest := by
  constructor
  · intro h
    rw [Inside] at h
    obtain ⟨j, hj, hopen, hbetween⟩ := h
    by_cases heq : j = i
    · subst heq
      obtain ⟨hout, row', rest, hrow', hrest⟩ := hopen
      cases hrow.symm.trans hrow'
      exact Or.inr ⟨hout, rest, hrest⟩
    · have hlt : j < i := by omega
      refine Or.inl ⟨?_, hbetween i row hlt (Nat.lt_succ_self i) hrow⟩
      rw [Inside]
      exact ⟨j, hlt, hopen, fun k row' hjk hki hrow' => hbetween k row' hjk (by omega) hrow'⟩
  · rintro (⟨h, hend⟩ | ⟨hout, rest, hrest⟩)
    · rw [Inside] at h ⊢
      obtain ⟨j, hj, hopen, hbetween⟩ := h
      refine ⟨j, by omega, hopen, fun k row' hjk hki hrow' => ?_⟩
      by_cases heq : k = i
      · subst heq
        cases hrow.symm.trans hrow'
        exact hend
      · exact hbetween k row' hjk (by omega) hrow'
    · rw [Inside]
      exact ⟨i, Nat.lt_succ_self i, ⟨hout, row, rest, hrow, hrest⟩, fun k _ hik hki => by omega⟩

theorem not_inside_zero : ¬Inside rows 0 := by
  rw [Inside]
  rintro ⟨j, hj, -⟩
  exact Nat.not_lt_zero j hj

/-! ## The text of a row -/

theorem closeBlock_cases (t : Text) :
    (∃ body after, Text.IsFirst blockEnd t body after ∧ closeBlock t = (body, true)) ∨
      ¬blockEnd <:+: t ∧ closeBlock t = (t, false) := by
  rw [closeBlock]
  cases hcut : Text.cutAt? ['*', '/'] t with
  | some cut => exact Or.inl ⟨cut.1, cut.2, Text.cutAt?_eq_some_iff.1 hcut, rfl⟩
  | none => exact Or.inr ⟨Text.cutAt?_eq_none_iff.1 hcut, rfl⟩

theorem upToEnd_iff : UpToEnd t body ↔ (closeBlock t).1 = body := by
  rcases closeBlock_cases t with ⟨before, after, hfirst, heq⟩ | ⟨hend, heq⟩
  · rw [heq]
    constructor
    · rintro (h | h)
      · exact (hfirst.unique h).1
      · exact absurd ⟨before, after, hfirst.eq.symm⟩ h
    · rintro rfl
      exact .ended hfirst
  · rw [heq]
    constructor
    · rintro (h | h)
      · exact absurd ⟨_, _, h.eq.symm⟩ hend
      · rfl
    · rintro rfl
      exact .unended hend

theorem closeBlock_ended_iff (t : Text) : (closeBlock t).2 = true ↔ blockEnd <:+: t := by
  rcases closeBlock_cases t with ⟨before, after, hfirst, heq⟩ | ⟨hend, heq⟩
  · rw [heq]
    exact iff_of_true rfl ⟨before, after, hfirst.eq.symm⟩
  · rw [heq]
    exact iff_of_false Bool.false_ne_true hend

theorem isPrefix_iff {start : Text} : start <+: t ↔ Text.startsWith start t = true := by
  rw [Text.startsWith, Option.isSome_iff_exists]
  exact exists_congr (fun rest => by rw [Text.after?_eq_some_iff, eq_comm])

theorem withoutStar_iff : WithoutStar t body ↔ blockRow t = body := by
  rw [blockRow]
  cases hafter : Text.after? ['*'] (Text.trimStart t) with
  | some rest =>
    have hstar := Text.after?_eq_some_iff.1 hafter
    constructor
    · rintro (h | h)
      · exact List.append_cancel_left (hstar.symm.trans h)
      · exact absurd ⟨rest, hstar.symm⟩ h
    · rintro rfl
      exact .star hstar
  | none =>
    have hno : ¬['*'] <+: Text.trimStart t := by
      rw [isPrefix_iff, Text.startsWith, hafter]
      exact Bool.false_ne_true
    constructor
    · rintro (h | h)
      · exact absurd ⟨body, h.symm⟩ hno
      · rfl
    · rintro rfl
      exact .bare hno

/-- Blanks before a row hold no end of a block. -/
theorem blockEnd_infix_trimStart_iff : blockEnd <:+: Text.trimStart row ↔ blockEnd <:+: row := by
  induction row with
  | nil => rfl
  | cons c row ih =>
    rw [Text.trimStart_cons]
    split
    · next hblank =>
      rw [ih, List.infix_cons_iff, or_iff_right]
      rintro ⟨after, heq⟩
      rw [← (List.cons.inj heq).1] at hblank
      cases hblank
    · rfl

/-- A row that opens a block, by what the reading of rows looks at. -/
theorem opens_iff :
    Opens row rest ↔
      Text.after? ['/', '*', '*'] (Text.trimStart row) = some rest ∧ Text.startsWith ['/'] rest = false := by
  rw [Text.after?_eq_some_iff, Opens, isPrefix_iff, Bool.not_eq_true]
  rfl

variable {inBlock : Bool}

theorem bodyOf_inside (row : Text) :
    bodyOf true row =
      (some (blockRow (closeBlock (Text.trimStart row)).1), !(closeBlock (Text.trimStart row)).2) := rfl

theorem bodyOf_opener (h : Opens row rest) :
    bodyOf false row = (some (closeBlock rest).1, !(closeBlock rest).2) := by
  obtain ⟨hafter, hslash⟩ := opens_iff.1 h
  simp only [bodyOf, hafter, hslash, Bool.false_eq_true, if_false]

theorem bodyOf_of_not_opens (h : ∀ rest, ¬Opens row rest) :
    bodyOf false row =
      (if blockStart <+: Text.trimStart row then none
        else Text.after? ['/', '/', '/'] (Text.trimStart row) <|> Text.after? ['/', '/', '!'] (Text.trimStart row),
        false) := by
  cases hafter : Text.after? ['/', '*', '*'] (Text.trimStart row) with
  | some rest =>
    have hslash : Text.startsWith ['/'] rest = true := by
      by_contra hslash
      exact h rest (opens_iff.2 ⟨hafter, by simpa using hslash⟩)
    have hstart : blockStart <+: Text.trimStart row := ⟨rest, (Text.after?_eq_some_iff.1 hafter).symm⟩
    simp only [bodyOf, hafter, hslash, Bool.false_eq_true, if_false, if_true, if_pos hstart]
  | none =>
    have hstart : ¬blockStart <+: Text.trimStart row := by
      rw [isPrefix_iff, Text.startsWith, blockStart, hafter]
      exact Bool.false_ne_true
    simp only [bodyOf, hafter, Bool.false_eq_true, if_false, if_neg hstart]

/-- **The flag after a row** tells whether the next one is inside a block. -/
theorem bodyOf_flag (hrow : rows[i]? = some row) (hflag : inBlock = true ↔ Inside rows i) :
    (bodyOf inBlock row).2 = true ↔ Inside rows (i + 1) := by
  rw [inside_succ_iff hrow, ← hflag]
  cases inBlock with
  | true =>
    rw [or_iff_left (fun h => h.1 rfl), and_iff_right rfl, ← blockEnd_infix_trimStart_iff, ← closeBlock_ended_iff,
      bodyOf_inside, Bool.not_eq_true, ← Bool.not_eq_true']
  | false =>
    rw [or_iff_right (fun h => nomatch h.1), and_iff_right Bool.false_ne_true]
    by_cases hopen : ∃ rest, Opens row rest
    · obtain ⟨rest, hrest⟩ := hopen
      rw [bodyOf_opener hrest, Bool.not_eq_true', ← Bool.not_eq_true, closeBlock_ended_iff]
      constructor
      · exact fun hend => ⟨rest, hrest, hend⟩
      · rintro ⟨rest', hrest', hend⟩
        cases (opens_iff.1 hrest).1.symm.trans (opens_iff.1 hrest').1
        exact hend
    · rw [bodyOf_of_not_opens (not_exists.1 hopen)]
      refine iff_of_false Bool.false_ne_true ?_
      rintro ⟨rest, hrest, -⟩
      exact hopen ⟨rest, hrest⟩

theorem lineComment_iff :
    (Text.after? ['/', '/', '/'] t <|> Text.after? ['/', '/', '!'] t) = some body ↔
      t = ['/', '/', '/'] ++ body ∨ t = ['/', '/', '!'] ++ body := by
  cases hafter : Text.after? ['/', '/', '/'] t with
  | some rest =>
    rw [Text.after?_eq_some_iff.1 hafter]
    simp
  | none =>
    have hno : t ≠ ['/', '/', '/'] ++ body := by
      intro heq
      rw [Text.after?_eq_some_iff.2 heq] at hafter
      cases hafter
    rw [or_iff_right hno, ← Text.after?_eq_some_iff]
    rfl

/-- **The text that is read on a row** is its comment text. -/
theorem bodyOf_body (hflag : inBlock = true ↔ Inside rows i) :
    (bodyOf inBlock row).1 = some body ↔ CommentText rows i row body := by
  cases inBlock with
  | true =>
    have hinside := hflag.1 rfl
    rw [bodyOf_inside, Option.some.injEq, ← withoutStar_iff]
    constructor
    · exact fun h => .inside hinside (upToEnd_iff.2 rfl) h
    · rintro (⟨-, ht, hbody⟩ | ⟨hout, -, -⟩ | ⟨hout, -, -⟩)
      · rwa [upToEnd_iff.1 ht]
      · exact absurd hinside hout
      · exact absurd hinside hout
  | false =>
    have hout : ¬Inside rows i := fun h => nomatch hflag.2 h
    by_cases hopen : ∃ rest, Opens row rest
    · obtain ⟨rest, hrest⟩ := hopen
      rw [bodyOf_opener hrest, Option.some.injEq, ← upToEnd_iff]
      constructor
      · exact fun h => .opener hout hrest h
      · rintro (⟨hin, -, -⟩ | ⟨-, hrest', hbody⟩ | ⟨-, hblock, -⟩)
        · exact absurd hin hout
        · cases (opens_iff.1 hrest).1.symm.trans (opens_iff.1 hrest').1
          exact hbody
        · exact absurd ⟨rest, hrest.1.symm⟩ hblock
    · rw [bodyOf_of_not_opens (not_exists.1 hopen)]
      constructor
      · intro h
        split at h
        · cases h
        · next hblock => exact .line hout hblock (lineComment_iff.1 h)
      · rintro (⟨hin, -, -⟩ | ⟨-, hrest, -⟩ | ⟨-, hblock, hbody⟩)
        · exact absurd hin hout
        · exact absurd ⟨_, hrest⟩ hopen
        · rw [if_neg hblock]
          exact lineComment_iff.2 hbody

/-! ## The rows of a file -/

theorem bodiesFrom_eq (done : List (Option Text)) (rows : List Text) :
    bodiesFrom inBlock done rows = done.reverse ++ bodiesFrom inBlock [] rows := by
  induction rows generalizing inBlock done with
  | nil => simp [bodiesFrom]
  | cons row rows ih =>
    unfold bodiesFrom
    dsimp only
    rw [ih (_ :: done), ih [_]]
    simp

theorem bodiesFrom_cons (row : Text) (rows : List Text) :
    bodiesFrom inBlock [] (row :: rows) =
      (bodyOf inBlock row).1 :: bodiesFrom (bodyOf inBlock row).2 [] rows :=
  bodiesFrom_eq [_] rows

/-- From the first row on, the flag carried over the rows done tells whether the next one is inside a block. -/
theorem getElem?_bodiesFrom_iff {before after : List Text} (k : Nat)
    (hflag : inBlock = true ↔ Inside (before ++ after) before.length) :
    (bodiesFrom inBlock [] after)[k]? = some (some body) ↔
      ∃ row, after[k]? = some row ∧ CommentText (before ++ after) (before.length + k) row body := by
  induction after generalizing inBlock before k with
  | nil => simp [bodiesFrom]
  | cons row after ih =>
    have hrow : (before ++ row :: after)[before.length]? = some row := by simp
    have hnext := bodyOf_flag hrow hflag
    rw [bodiesFrom_cons]
    cases k with
    | zero => simp [bodyOf_body hflag]
    | succ k =>
      have hsplit : before ++ row :: after = (before ++ [row]) ++ after := by simp
      have hlength : before.length + (k + 1) = (before ++ [row]).length + k := by
        rw [List.length_append, List.length_singleton]
        omega
      rw [List.getElem?_cons_succ, List.getElem?_cons_succ, hsplit, hlength]
      exact ih k (by rwa [← hsplit, List.length_append])

/-- **The comment text of a file** is that of its rows. -/
theorem getElem?_bodies_iff : (bodies rows)[i]? = some (some body) ↔
    ∃ row, rows[i]? = some row ∧ CommentText rows i row body := by
  have h : (bodies rows)[i]? = some (some body) ↔
      ∃ row, rows[i]? = some row ∧ CommentText ([] ++ rows) (([] : List Text).length + i) row body :=
    getElem?_bodiesFrom_iff i (iff_of_false Bool.false_ne_true not_inside_zero)
  rwa [List.length_nil, Nat.zero_add] at h

/-- **Tags are found in the comment text of the rows**, and nowhere else: on a row inside a block, on one that opens a
block, up to its end, and on a line comment.  They are found from the first row down, at most one on a row. -/
theorem requests_read_comments (tag content : Text) :
    (∀ r : Request, r ∈ requests tag content ↔
      ∃ row body, 1 ≤ r.line ∧ (Text.rows content)[r.line - 1]? = some row ∧
        CommentText (Text.rows content) (r.line - 1) row body ∧ tagValue? tag body = some r.value) ∧
      (requests tag content).Pairwise (·.line < ·.line) := by
  refine ⟨fun r => ?_, pairwise_line_requests tag content⟩
  rw [mem_requests]
  simp only [List.mem_zipIdx_iff_le_and_getElem?_sub, getElem?_bodies_iff]
  constructor
  · rintro ⟨body, ⟨hline, row, hrow, hbody⟩, hvalue⟩
    exact ⟨row, body, hline, hrow, hbody, hvalue⟩
  · rintro ⟨row, body, hline, hrow, hbody, hvalue⟩
    exact ⟨body, ⟨hline, row, hrow, hbody⟩, hvalue⟩

end DocComment
end DocExcerpt
