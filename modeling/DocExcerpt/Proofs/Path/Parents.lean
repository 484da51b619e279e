import DocExcerpt.Proofs.Path.Components
/-!
# The directory and the name in a path

The last piece of a path is its file name, unless it names nothing or leads up (`Path.fileName?_of_pieces`).  So a path
that ends with a slash and a name has that name (`Path.fileName?_append`), and the directory before it is absolute when
the path is (`Path.exists_parent?_append`).
-/
namespace DocExcerpt
namespace Path

variable {p q : Path} {name : Text}

theorem isAbsolute_iff : p.isAbsolute = true ↔ ∃ rest, p.text = '/' :: rest := by
  rw [isAbsolute, Text.startsWith, Option.isSome_iff_exists]
  exact exists_congr (fun rest => Text.after?_eq_some_iff)

theorem text_ne_nil_of_isAbsolute (h : p.isAbsolute = true) : p.text ≠ [] := by
  obtain ⟨rest, hrest⟩ := isAbsolute_iff.1 h
  simp [hrest]

theorem anchor_of_isAbsolute (h : p.isAbsolute = true) : p.anchor = ['/'] := by
  obtain ⟨rest, hrest⟩ := isAbsolute_iff.1 h
  have hp : p = ⟨'/' :: rest⟩ := congrArg Path.mk hrest
  rw [hp]
  rfl

theorem isAbsolute_join_names {names : List Text} (hnames : ∀ name ∈ names, IsName name) :
    (⟨Text.join ['/'] names⟩ : Path).isAbsolute = false := by
  cases names with
  | nil => rfl
  | cons name names =>
    rw [Bool.eq_false_iff]
    intro habsolute
    have hanchor := anchor_of_isAbsolute habsolute
    rw [anchor_join (hnames name List.mem_cons_self)] at hanchor
    cases hanchor

theorem join_of_isAbsolute (h : q.isAbsolute = true) : p.join q = q := by
  rw [join, if_pos h]

/-- What lies in a directory is written after the path of the directory and a slash, which may stand there already. -/
theorem exists_text_join (hp : p.text ≠ []) (hq : q.isAbsolute = false) :
    ∃ front, (p.join q).text = front ++ '/' :: q.text ∧ (p.text = front ∨ p.text = front ++ ['/']) := by
  rw [join, if_neg (by simp [hq]), List.isEmpty_eq_false_iff.2 hp, Bool.false_or]
  split
  · next hends =>
    obtain ⟨front, hfront⟩ := Option.isSome_iff_exists.1 hends
    rw [Text.before?_eq_some_iff] at hfront
    exact ⟨front, by rw [hfront, List.append_assoc]; rfl, Or.inr hfront⟩
  · exact ⟨p.text, rfl, Or.inl rfl⟩

theorem text_join_ne_nil (hq : q.text ≠ []) : (p.join q).text ≠ [] := by
  rw [join]
  split
  · exact hq
  · split <;> simp [hq]

theorem isPrefix_text_join {q' : Path} (hq : q.isAbsolute = false) (hq' : q'.isAbsolute = false)
    (h : q.text <+: q'.text) : (p.join q).text <+: (p.join q').text := by
  simp only [join, hq, hq', Bool.false_eq_true, if_false]
  split
  · exact (List.prefix_append_right_inj _).2 h
  · exact (List.prefix_append_right_inj _).2 ((List.prefix_cons_inj '/').2 h)

theorem isAbsolute_join (hp : p.text ≠ []) : (p.join q).isAbsolute = (p.isAbsolute || q.isAbsolute) := by
  cases hq : q.isAbsolute with
  | true => rw [join_of_isAbsolute hq, hq, Bool.or_true]
  | false =>
    obtain ⟨c, rest, htext⟩ := List.exists_cons_of_ne_nil hp
    have hjoin : ∃ rest', (p.join q).text = c :: rest' := by
      rw [join, if_neg (by simp [hq]), htext]
      split <;> exact ⟨_, rfl⟩
    obtain ⟨rest', hjoin⟩ := hjoin
    rw [Bool.or_false, Bool.eq_iff_iff, isAbsolute_iff, isAbsolute_iff, htext, hjoin]
    simp

/-! ## A path that ends with a name -/

theorem length_anchor_le (p : Path) : p.anchor.length ≤ 1 := by
  unfold anchor
  split <;> simp

theorem parts_append (front : Text) (hname : '/' ∉ name) :
    ∃ before, (⟨front ++ '/' :: name⟩ : Path).parts = before ++ [name] := by
  have hle : (⟨front ++ '/' :: name⟩ : Path).anchor.length ≤ (front ++ ['/']).length := by
    have := length_anchor_le ⟨front ++ '/' :: name⟩
    simp only [List.length_append, List.length_singleton]
    omega
  have hdrop : ∀ n, n ≤ (front ++ ['/']).length →
      (front ++ '/' :: name).drop n = (front ++ ['/']).drop n ++ name := by
    intro n hn
    rw [← List.singleton_append, ← List.append_assoc, List.drop_append_of_le_length hn]
  rw [parts, hdrop _ hle]
  generalize (anchor _).length = n at hle
  rcases Nat.lt_or_ge n (front.length + 1) with hlt | hge
  · have hfront : (front ++ ['/']).drop n = front.drop n ++ ['/'] :=
      List.drop_append_of_le_length (by omega)
    rw [hfront, List.append_assoc, List.singleton_append, Text.pieces_append, Text.pieces_of_not_mem hname]
    exact ⟨_, rfl⟩
  · rw [List.drop_of_length_le (by simpa using hge), List.nil_append, Text.pieces_of_not_mem hname]
    exact ⟨[], rfl⟩

theorem partsBack_append (front : Text) (hname : IsName name) :
    ∃ before, (⟨front ++ '/' :: name⟩ : Path).partsBack = name :: before := by
  obtain ⟨before, hbefore⟩ := parts_append front hname.slash_not_mem
  refine ⟨before.reverse, ?_⟩
  rw [partsBack, hbefore, List.reverse_append, List.reverse_singleton, List.singleton_append,
    List.dropWhile_cons_of_neg (by simp [isVoid_of_isName hname])]

/-- The last piece of a path is the name it has, unless it names nothing or leads up. -/
theorem fileName?_of_pieces {p : Path} {before : List Text} {last : Text}
    (hpieces : Text.pieces '/' p.text = before ++ [last]) (hvoid : isVoid last = false) :
    p.fileName? = if last = ['.', '.'] then none else some last := by
  have hlast : last ∈ Text.pieces '/' p.text := hpieces ▸ List.mem_append_right before (List.mem_singleton_self last)
  have hslash : '/' ∉ last := Text.not_mem_of_mem_pieces hlast
  have hparts : ∃ front, p.parts = front ++ [last] := by
    by_cases hbefore : before = []
    · have hpieces : Text.pieces '/' p.text = [last] := by rw [hpieces, hbefore, List.nil_append]
      have hp : p = ⟨Text.join ['/'] [last]⟩ := by rw [← hpieces, Text.join_pieces]
      have hanchor : p.anchor = [] := hp ▸ anchor_join_of_isVoid hvoid hslash []
      refine ⟨[], ?_⟩
      rw [parts, hanchor, List.length_nil, List.drop_zero, hpieces]
      rfl
    · have htext : p.text = Text.join ['/'] before ++ '/' :: last := by
        rw [← Text.join_concat '/' hbefore, ← hpieces, Text.join_pieces]
      have hp : p = ⟨Text.join ['/'] before ++ '/' :: last⟩ := congrArg Path.mk htext
      rw [hp]
      exact parts_append _ hslash
  obtain ⟨front, hfront⟩ := hparts
  rw [fileName?, partsBack, hfront, List.reverse_append, List.reverse_singleton, List.singleton_append,
    List.dropWhile_cons_of_neg (by simp [hvoid])]

/-- **A path that ends with a name names it.** -/
theorem fileName?_append (front : Text) (hname : IsName name) :
    (⟨front ++ '/' :: name⟩ : Path).fileName? = some name := by
  have hpieces : Text.pieces '/' (front ++ '/' :: name) = Text.pieces '/' front ++ [name] := by
    rw [Text.pieces_append, Text.pieces_of_not_mem hname.slash_not_mem]
  rw [fileName?_of_pieces hpieces (isVoid_of_isName hname), if_neg hname.2.2.1]

/-- **The directory of a path that ends with a name** is absolute when the path is. -/
theorem exists_parent?_append (front : Text) (hname : IsName name) :
    ∃ dir, (⟨front ++ '/' :: name⟩ : Path).parent? = some dir ∧
      ((⟨front ++ '/' :: name⟩ : Path).isAbsolute = true → dir.isAbsolute = true) := by
  obtain ⟨before, hbefore⟩ := partsBack_append front hname
  refine ⟨_, by rw [parent?, hbefore], fun habsolute => isAbsolute_iff.2 ?_⟩
  rw [anchor_of_isAbsolute habsolute]
  exact ⟨_, rfl⟩

end Path
end DocExcerpt
