import DocExcerpt.Proofs.Path.Parents
import Mathlib.Data.List.DropRight
/-!
# Paths put together from names

A path that is put together from names, from the root or from the working directory (`Path.ofParts`), has the path of
its other names as its directory (`Path.parent?_ofParts`).  What is joined to it comes after its names
(`Path.join_ofParts`), be it one name or several (`Path.ofParts_append_join`).
-/
namespace DocExcerpt
namespace Path

variable {start : Text} {names rest parts : List Text} {name : Text} {q : Path}

theorem ofParts_append_join (start : Text) (names : List Text) (hrest : rest ≠ []) :
    ofParts start (names ++ [Text.join ['/'] rest]) = ofParts start (names ++ rest) := by
  rw [ofParts, ofParts, Text.join_append_join '/' names hrest]

/-- A path that ends with a name ends with no slash. -/
theorem endsWith_join (start : Text) (parts : List Text) (hne : name ≠ []) (hslash : '/' ∉ name) :
    Text.endsWith ['/'] (start ++ Text.join ['/'] (parts ++ [name])) = false := by
  rw [Bool.eq_false_iff]
  intro hends
  obtain ⟨rest, hrest⟩ := Option.isSome_iff_exists.1 hends
  have h := congrArg List.getLast? (Text.before?_eq_some_iff.1 hrest)
  rw [List.getLast?_append, Text.getLast?_join '/' parts hne, List.getLast?_concat,
    Option.or_of_isSome (List.getLast?_isSome.2 hne)] at h
  exact hslash (List.mem_of_getLast? h)

theorem anchor_ofParts (hstart : start = [] ∨ start = ['/']) (hnames : ∀ name ∈ names, IsName name) (hne : names ≠ []) :
    (ofParts start names).anchor = start := by
  rcases hstart with rfl | rfl
  · obtain ⟨name, names, rfl⟩ := List.exists_cons_of_ne_nil hne
    exact anchor_join (hnames name List.mem_cons_self)
  · rfl

/-- The directory of a path ends with the last part before the name that names something. -/
theorem parent?_ofParts_concat (hanchor : (ofParts start (parts ++ [name])).anchor = start)
    (hslash : ∀ part ∈ parts, '/' ∉ part) (hname : IsName name) :
    (ofParts start (parts ++ [name])).parent? = some (ofParts start (parts.rdropWhile isVoid)) := by
  have hall : ∀ part ∈ parts ++ [name], '/' ∉ part :=
    List.forall_mem_append.2 ⟨hslash, List.forall_mem_singleton.2 hname.slash_not_mem⟩
  have hparts : (ofParts start (parts ++ [name])).parts = parts ++ [name] := by
    rw [Path.parts, hanchor, ofParts, List.drop_left]
    exact Text.pieces_join_of_ne_nil (by simp) hall
  rw [parent?, partsBack, hparts, hanchor, List.reverse_append, List.reverse_singleton, List.singleton_append,
    List.dropWhile_cons_of_neg (by simp [isVoid_of_isName hname])]
  rfl

/-- **The directory of a path put together from names** is put together from all but the last. -/
theorem parent?_ofParts (hstart : start = [] ∨ start = ['/']) (hnames : ∀ name ∈ names, IsName name)
    (hname : IsName name) : (ofParts start (names ++ [name])).parent? = some (ofParts start names) := by
  have hall : ∀ part ∈ names ++ [name], IsName part := by
    intro part hpart
    rcases List.mem_append.1 hpart with hpart | hpart
    · exact hnames part hpart
    · exact List.mem_singleton.1 hpart ▸ hname
  have hdrop : names.rdropWhile isVoid = names :=
    List.rdropWhile_eq_self_iff.2 (fun h => by simp [isVoid_of_isName (hnames _ (List.getLast_mem h))])
  have hslash : ∀ part ∈ names, '/' ∉ part := fun part hpart => (hnames part hpart).slash_not_mem
  rw [parent?_ofParts_concat (anchor_ofParts hstart hall (by simp)) hslash hname, hdrop]

/-- What is joined to a path that ends with a name comes after a slash. -/
theorem join_ofParts_concat (start : Text) (parts : List Text) (hne : name ≠ []) (hslash : '/' ∉ name)
    (hq : q.isAbsolute = false) :
    (ofParts start (parts ++ [name])).join q = ofParts start (parts ++ [name] ++ [q.text]) := by
  have hempty : (start ++ Text.join ['/'] (parts ++ [name])).isEmpty = false := by
    have h := Text.getLast?_join '/' parts hne
    rw [List.isEmpty_eq_false_iff]
    intro heq
    rw [(List.append_eq_nil_iff.1 heq).2] at h
    exact hne (List.getLast?_eq_none_iff.1 h.symm)
  have happend : start ++ Text.join ['/'] (parts ++ [name] ++ [q.text]) =
      start ++ Text.join ['/'] (parts ++ [name]) ++ '/' :: q.text := by
    rw [Text.join_concat '/' (List.append_ne_nil_of_right_ne_nil parts (List.cons_ne_nil name [])),
      List.append_assoc]
  rw [join, if_neg (by simp [hq]), ofParts, hempty, endsWith_join start parts hne hslash, ofParts, happend]
  rfl

/-- **What is joined to a path** comes after its names. -/
theorem join_ofParts (hstart : start = [] ∨ start = ['/']) (hnames : ∀ name ∈ names, IsName name)
    (hq : q.isAbsolute = false) : (ofParts start names).join q = ofParts start (names ++ [q.text]) := by
  rcases List.eq_nil_or_concat' names with rfl | ⟨before, name, rfl⟩
  · have hone := Text.join_singleton ['/'] q.text
    rw [join, if_neg (by simp [hq])]
    rcases hstart with rfl | rfl <;> exact congrArg Path.mk (congrArg _ hone.symm)
  · have hname := hnames name (by simp)
    exact join_ofParts_concat start before hname.1 hname.slash_not_mem hq

theorem isAbsolute_ofParts (hnames : ∀ name ∈ names, IsName name) : (ofParts [] names).isAbsolute = false :=
  isAbsolute_join_names hnames

/-- **A path from a directory below**, seen from a directory, is one from the names of both. -/
theorem join_join_ofParts (hnames : ∀ name ∈ names, IsName name) (hrest : ∀ name ∈ rest, IsName name) (q : Path) :
    (ofParts ['/'] names).join ((ofParts [] rest).join q) = (ofParts ['/'] (names ++ rest)).join q := by
  have hall : ∀ name ∈ names ++ rest, IsName name := by
    intro name hname
    exact (List.mem_append.1 hname).elim (hnames name) (hrest name)
  cases hq : q.isAbsolute with
  | true => rw [join_of_isAbsolute hq, join_of_isAbsolute hq, join_of_isAbsolute hq]
  | false =>
    have hbelow : ((ofParts [] rest).join q).isAbsolute = false := by
      by_cases hne : (ofParts [] rest).text = []
      · rw [join, if_neg (by simp [hq]), hne]
        exact hq
      · rw [isAbsolute_join hne, isAbsolute_ofParts hrest, hq, Bool.or_false]
    have htext : (ofParts [] (rest ++ [q.text])).text = Text.join ['/'] (rest ++ [q.text]) := rfl
    rw [join_ofParts (Or.inr rfl) hnames hbelow, join_ofParts (Or.inr rfl) hall hq, join_ofParts (Or.inl rfl) hrest hq,
      htext, ofParts_append_join ['/'] names (by simp), List.append_assoc]

end Path
end DocExcerpt
