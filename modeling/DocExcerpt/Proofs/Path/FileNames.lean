import DocExcerpt.Proofs.Path.OfNames
/-!
# The file name of a path

A file name is a stem, and an extension if it has one (`Path.Splits`).  The name of a path can be changed for another
(`Path.withFileName`): the path then has the new name (`Path.fileName?_withFileName`) and lies in the directory it lay
in before (`Path.exists_parent?_withFileName`), however that directory is written.
-/
namespace DocExcerpt
namespace Path

/-- **What a file name is split into**: a stem, and behind its last dot an extension.  A dot that has nothing before it
makes no extension. -/
inductive Splits (name : Text) : Text → Option Text → Prop where
  | extended {stem extension : Text} :
    name = stem ++ '.' :: extension → stem ≠ [] → '.' ∉ extension → Splits name stem (some extension)
  | whole : (∀ stem rest, name = stem ++ '.' :: rest → stem = []) → Splits name name none

variable {p : Path} {name newName stem extension : Text} {extension? : Option Text}

theorem splits_splitName (name : Text) : Splits name (splitName name).1 (splitName name).2 := by
  have hfirst : ∀ rest', '.' ∉ rest' → ∀ stem rest, '.' :: rest' = stem ++ '.' :: rest → stem = [] := by
    intro rest' hdot stem rest heq
    cases stem with
    | nil => rfl
    | cons c stem => exact absurd ((List.cons.inj heq).2 ▸ by simp) hdot
  unfold splitName
  split
  · next hcut =>
    refine .whole (fun stem rest heq => absurd ?_ (Text.cutLast?_eq_none_iff.1 hcut))
    simp [heq]
  · next hcut =>
    obtain ⟨rfl, hdot⟩ := Text.cutLast?_eq_some_iff.1 hcut
    exact .whole (hfirst _ hdot)
  · next stem extension hstem hcut =>
    obtain ⟨rfl, hdot⟩ := Text.cutLast?_eq_some_iff.1 hcut
    exact .extended rfl hstem hdot

/-- **A file name is split in one way.** -/
theorem splits_iff : Splits name stem extension? ↔ splitName name = (stem, extension?) := by
  constructor
  · intro h
    cases h with
    | extended heq hstem hdot =>
      rw [splitName, Text.cutLast?_eq_some_iff.2 ⟨heq, hdot⟩]
      split
      · next h => cases h
      · next h => exact absurd (Prod.mk.inj (Option.some.inj h)).1 hstem
      · next h => cases h; rfl
    | whole hdot =>
      unfold splitName
      split
      · rfl
      · rfl
      · next hstem hcut => exact absurd (hdot _ _ (Text.cutLast?_eq_some_iff.1 hcut).1) hstem
  · intro h
    have hsplits := splits_splitName name
    rwa [h] at hsplits

theorem splitName_snd_eq_some_iff :
    (splitName name).2 = some extension ↔ ∃ stem, Splits name stem (some extension) := by
  constructor
  · intro h
    exact ⟨_, h ▸ splits_splitName name⟩
  · rintro ⟨stem, h⟩
    rw [splits_iff.1 h]

/-- The suffix goes to the stem, and the extension stays. -/
theorem Splits.append_suffix (h : Splits name stem (some extension)) (suffix : Text) :
    Splits (stem ++ '.' :: suffix ++ '.' :: extension) (stem ++ '.' :: suffix) (some extension) := by
  cases h with
  | extended _ _ hdot => exact .extended rfl (by simp) hdot

theorem stem?_of_splits (hname : p.fileName? = some name) (h : Splits name stem extension?) : p.stem? = some stem := by
  rw [stem?, hname, Option.map_some, splits_iff.1 h]

theorem extension?_of_splits (hname : p.fileName? = some name) (h : Splits name stem extension?) :
    p.extension? = extension? := by
  rw [Path.extension?, hname, Option.bind_some, splits_iff.1 h]

/-! ## The name at the end of a path -/

/-- The file name is the last part of a path that names something, and the directory ends before it. -/
theorem exists_parts_of_fileName? (h : p.fileName? = some name) :
    IsName name ∧ ∃ before after, p.parts = before ++ name :: after ∧
      p.parent? = some (ofParts p.anchor (before.rdropWhile isVoid)) := by
  rw [fileName?] at h
  split at h
  · next part before hback =>
    split at h
    · cases h
    · next hdots =>
      obtain rfl := Option.some.inj h
      have hvoid : isVoid part = false := by
        have hhead := List.head?_dropWhile_not isVoid p.parts.reverse
        rw [← partsBack, hback] at hhead
        simpa using hhead
      obtain ⟨voids, hparts⟩ : ∃ voids, p.parts = before.reverse ++ part :: voids := by
        have hsplit := congrArg List.reverse (List.takeWhile_append_dropWhile (p := isVoid) (l := p.parts.reverse))
        rw [← partsBack, hback, List.reverse_reverse, List.reverse_append, List.reverse_cons,
          List.append_assoc] at hsplit
        exact ⟨_, hsplit.symm⟩
      have hmem : part ∈ p.parts := by simp [hparts]
      simp only [isVoid, Bool.or_eq_false_iff, List.isEmpty_eq_false_iff, beq_eq_false_iff_ne] at hvoid
      refine ⟨⟨hvoid.1, hvoid.2, hdots, Text.not_mem_of_mem_pieces hmem⟩, _, voids, hparts, ?_⟩
      rw [parent?, hback, List.rdropWhile_reverse]
  · cases h

theorem isName_of_fileName? (h : p.fileName? = some name) : IsName name := (exists_parts_of_fileName? h).1

theorem isAbsolute_name (hname : IsName name) : (⟨name⟩ : Path).isAbsolute = false := by
  have habsolute := isAbsolute_join_names (List.forall_mem_singleton.2 hname)
  rwa [Text.join_singleton] at habsolute

/-- **A name in a directory** is the name of the path. -/
theorem fileName?_join_name (p : Path) (hname : IsName name) : (p.join ⟨name⟩).fileName? = some name := by
  have hpiece := Text.pieces_of_not_mem hname.slash_not_mem
  have hpieces : ∃ before, Text.pieces '/' (p.join ⟨name⟩).text = before ++ [name] := by
    by_cases hp : p.text = []
    · refine ⟨[], ?_⟩
      rw [join, if_neg (by simp [isAbsolute_name hname]), hp]
      exact hpiece
    · obtain ⟨front, hjoin, -⟩ := exists_text_join hp (isAbsolute_name hname)
      exact ⟨_, by rw [hjoin, Text.pieces_append, hpiece]⟩
  obtain ⟨before, hpieces⟩ := hpieces
  rw [fileName?_of_pieces hpieces (isVoid_of_isName hname), if_neg hname.2.2.1]

/-! ## The directory of a path with another name -/

theorem anchor_cases (p : Path) : p.anchor = [] ∨ p.anchor = ['/'] ∨ p.anchor = ['.'] := by
  unfold anchor
  split <;> simp

theorem ofParts_anchor_parts (p : Path) : ofParts p.anchor p.parts = p := by
  have hdrop : p.anchor ++ p.text.drop p.anchor.length = p.text := by
    unfold anchor
    split
    · next h => rw [h]; rfl
    · next h => rw [h]; rfl
    · next h => rw [h]; rfl
    · rfl
  rw [ofParts, parts, Text.join_pieces, hdrop]

/-- The start of a path shows in its first two characters. -/
theorem anchor_cons_cons (c d : Char) (t u : Text) : (⟨c :: d :: t⟩ : Path).anchor = (⟨c :: d :: u⟩ : Path).anchor := by
  by_cases hslash : c = '/'
  · rw [hslash]; rfl
  · by_cases hdot : c = '.' ∧ d = '/'
    · rw [hdot.1, hdot.2]; rfl
    · have hplain : ∀ rest, (⟨c :: d :: rest⟩ : Path).anchor = [] := by
        intro rest
        unfold anchor
        split
        · next h => exact absurd (List.cons.inj h).1 hslash
        · next h => cases (List.cons.inj h).2
        · next h => exact absurd ⟨(List.cons.inj h).1, (List.cons.inj (List.cons.inj h).2).1⟩ hdot
        · rfl
      rw [hplain, hplain]

theorem anchor_append_cons (front t u : Text) :
    (⟨front ++ '/' :: t⟩ : Path).anchor = (⟨front ++ '/' :: u⟩ : Path).anchor := by
  match front with
  | [] => rfl
  | [c] => exact anchor_cons_cons c '/' t u
  | c :: d :: front => exact anchor_cons_cons c d _ _

theorem anchor_ofParts_append {start : Text} {parts rest rest' : List Text} (hparts : parts ≠ []) (hrest : rest ≠ [])
    (hrest' : rest' ≠ []) : (ofParts start (parts ++ rest)).anchor = (ofParts start (parts ++ rest')).anchor := by
  rw [ofParts, ofParts, Text.join_append '/' hparts hrest, Text.join_append '/' hparts hrest', ← List.append_assoc,
    ← List.append_assoc]
  exact anchor_append_cons _ _ _

theorem parent?_anchor_join (p : Path) (hname : IsName name) :
    ((ofParts p.anchor []).join ⟨name⟩).parent? = some (ofParts p.anchor []) := by
  have hnone : ∀ part ∈ ([] : List Text), IsName part := by simp
  have habsolute := isAbsolute_name hname
  rcases anchor_cases p with h | h | h
  · rw [h, join_ofParts (Or.inl rfl) hnone habsolute]
    exact parent?_ofParts (Or.inl rfl) hnone hname
  · rw [h, join_ofParts (Or.inr rfl) hnone habsolute]
    exact parent?_ofParts (Or.inr rfl) hnone hname
  · have htext : Text.join ['/'] ([[]] ++ [name]) = '/' :: name := by
      rw [Text.join_concat '/' (List.cons_ne_nil [] []), Text.join_singleton, List.nil_append]
    have hjoin : (ofParts ['.'] []).join ⟨name⟩ = ofParts ['.'] ([[]] ++ [name]) := by
      rw [join, if_neg (by simp [habsolute]), ofParts, ofParts, htext]
      rfl
    rw [h, hjoin]
    exact parent?_ofParts_concat rfl (by simp) hname

/-- **The directory stays** when the name of a path in it is changed. -/
theorem exists_parent?_join_name (h : p.fileName? = some name) (hnew : IsName newName) :
    ∃ dir, p.parent? = some dir ∧ (dir.join ⟨newName⟩).parent? = some dir := by
  obtain ⟨-, before, after, hparts, hparent⟩ := exists_parts_of_fileName? h
  refine ⟨_, hparent, ?_⟩
  obtain ⟨voids, hvoids⟩ := List.rdropWhile_prefix isVoid (l := before)
  generalize hdirs : before.rdropWhile isVoid = dirs at hvoids ⊢
  rcases List.eq_nil_or_concat' dirs with rfl | ⟨front, last, rfl⟩
  · exact parent?_anchor_join p hnew
  have hslash : ∀ part ∈ front ++ [last], '/' ∉ part := by
    intro part hpart
    have hmem : part ∈ p.parts := by
      rw [hparts, ← hvoids, List.append_assoc]
      exact List.mem_append_left _ hpart
    exact Text.not_mem_of_mem_pieces hmem
  have hlast : last ≠ [] := by
    rintro rfl
    have hnot := List.rdropWhile_last_not isVoid before (by simp [hdirs])
    simp [hdirs, isVoid] at hnot
  have hanchor : (ofParts p.anchor (front ++ [last] ++ [newName])).anchor = p.anchor := by
    have hp := ofParts_anchor_parts p
    rw [hparts, ← hvoids, List.append_assoc] at hp
    have hsame : (ofParts p.anchor (front ++ [last] ++ [newName])).anchor = _ :=
      anchor_ofParts_append (by simp) (by simp) (by simp : voids ++ name :: after ≠ [])
    rw [hsame, hp]
  rw [join_ofParts_concat p.anchor front hlast (hslash last (by simp)) (isAbsolute_name hnew),
    parent?_ofParts_concat hanchor hslash hnew, ← hdirs, List.rdropWhile_idempotent]

/-! ## Changing the name -/

theorem fileName?_withFileName (p : Path) (hnew : IsName newName) :
    (p.withFileName newName).fileName? = some newName := by
  unfold withFileName
  split <;> exact fileName?_join_name _ hnew

theorem exists_parent?_withFileName (h : p.fileName? = some name) (hnew : IsName newName) :
    ∃ dir, p.parent? = some dir ∧ (p.withFileName newName).parent? = some dir := by
  obtain ⟨dir, hdir, hjoin⟩ := exists_parent?_join_name h hnew
  refine ⟨dir, hdir, ?_⟩
  rw [withFileName, h, hdir]
  exact hjoin

end Path
end DocExcerpt
