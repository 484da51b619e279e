import DocExcerpt.Proofs.Path.FileNames
import DocExcerpt.Proofs.Storage.Following
import DocExcerpt.Proofs.Storage.Names
/-!
# Paths from the working directory

A path leads from the working directory where it leads by itself (`Storage.resolve_join_working`), as long as it is
not too long when it is written out from there, and it names the same file (`Storage.fileName?_join`).
-/
namespace DocExcerpt
namespace Storage

variable {s : Storage} {here p q : Path}

theorem checkPath_eq_ok_iff :
    checkPath p = .ok () ↔ Char.ofNat 0 ∉ p.text ∧ p.text ≠ [] ∧ (Utf8.encode p.text).length < maxPath := by
  unfold checkPath
  split
  · next h => simp_all
  · next h =>
    split
    · next h' => simp_all
    · next h' =>
      split
      · next h'' => simp_all
      · next h'' => simp_all

theorem eq_append_of_follow {names there : List Text} {dir : List Text} (hnames : ∀ name ∈ names, Path.IsName name)
    (h : s.follow dir names = .ok there) : there = dir ++ names := by
  induction names generalizing dir with
  | nil =>
    rw [follow] at h
    rw [List.append_nil, Except.ok.inj h]
  | cons name names ih =>
    obtain ⟨hname, hnames⟩ := List.forall_mem_cons.1 hnames
    rw [← List.singleton_append, follow_append] at h
    obtain ⟨next, hnext, h⟩ := bind_eq_ok_iff.1 h
    rw [ih hnames h, eq_of_follow_name (Path.isVoid_of_isName hname) hname.2.2.1 hnext, List.append_assoc]
    rfl

/-- **A path put together from names** leads to what has these names. -/
theorem eq_of_resolve_ofParts {names dir : List Text} (hnames : ∀ name ∈ names, Path.IsName name)
    (h : s.resolve (Path.ofParts ['/'] names) = .ok dir) : dir = names := by
  rw [resolve_eq_follow (checkPath_of_resolve h), Path.ofParts, List.singleton_append, Text.pieces_cons_self] at h
  replace h : s.follow [] ([[]] ++ Text.pieces '/' (Text.join ['/'] names)) = .ok dir := h
  rw [follow_append] at h
  obtain ⟨root, hroot, h⟩ := bind_eq_ok_iff.1 h
  rw [eq_of_follow_void rfl hroot] at h
  cases names with
  | nil => exact eq_of_follow_void rfl h
  | cons name names =>
    rw [Text.pieces_join (fun name hname => (hnames name hname).slash_not_mem)] at h
    exact eq_append_of_follow hnames h

/-- The last piece of the path of a file names something. -/
theorem exists_pieces_of_isFile (h : s.isFile p = true) :
    ∃ before last, Text.pieces '/' p.text = before ++ [last] ∧ Path.isVoid last = false := by
  obtain ⟨before, last, hpieces⟩ := (List.eq_nil_or_concat' (Text.pieces '/' p.text)).resolve_left
    (Text.pieces_ne_nil '/' p.text)
  refine ⟨before, last, hpieces, ?_⟩
  obtain ⟨bytes, hlookup⟩ := lookup_of_isFile h
  obtain ⟨names, hnames, hget⟩ := bind_eq_ok_iff.1 hlookup
  rw [resolve_eq_follow (checkPath_of_resolve hnames), hpieces, follow_append] at hnames
  obtain ⟨dir, -, hlast⟩ := bind_eq_ok_iff.1 hnames
  rw [Bool.eq_false_iff]
  intro hvoid
  obtain rfl := eq_of_follow_void hvoid hlast
  rw [follow] at hlast
  split at hlast
  · cases hlast
  · cases hlast
  · next hdirectory =>
    rw [hdirectory] at hget
    cases hget

/-! ## Joining a path to that of a directory -/

theorem checkPath_of_checkPath_join (hp : p.text ≠ []) (hq : q.text ≠ []) (h : checkPath (p.join q) = .ok ()) :
    checkPath q = .ok () := by
  cases habsolute : q.isAbsolute with
  | true => rwa [Path.join_of_isAbsolute habsolute] at h
  | false =>
    obtain ⟨front, hjoin, -⟩ := Path.exists_text_join hp habsolute
    rw [checkPath_eq_ok_iff, hjoin] at h
    rw [checkPath_eq_ok_iff]
    obtain ⟨hnul, -, hlength⟩ := h
    refine ⟨fun hmem => hnul (by simp [hmem]), hq, ?_⟩
    simp only [Utf8.encode, List.flatMap_append, List.flatMap_cons, List.length_append] at hlength ⊢
    omega

/-- A path that can be looked up can be looked up from a directory, unless it is too long there. -/
theorem checkPath_join_iff (hp : checkPath p = .ok ()) (hq : checkPath q = .ok ()) :
    checkPath (p.join q) = .ok () ↔ (Utf8.encode (p.join q).text).length < maxPath := by
  cases habsolute : q.isAbsolute with
  | true =>
    rw [Path.join_of_isAbsolute habsolute]
    exact iff_of_true hq (checkPath_eq_ok_iff.1 hq).2.2
  | false =>
    obtain ⟨front, hjoin, hfront⟩ := Path.exists_text_join (text_ne_nil_of_checkPath hp) habsolute
    rw [checkPath_eq_ok_iff] at hp hq ⊢
    have hnul : Char.ofNat 0 ∉ front := fun hmem => hp.1 (by rcases hfront with h | h <;> simp [h, hmem])
    rw [hjoin]
    refine ⟨fun h => h.2.2, fun h => ⟨?_, by simp, h⟩⟩
    simp [hnul, hq.1]

/-- **From the working directory a path leads where it leads by itself.** -/
theorem resolve_join_working (hhere : s.resolve here = .ok s.workingDirectory) (hq : q.text ≠ [])
    (hcheck : checkPath (here.join q) = .ok ()) : s.resolve (here.join q) = s.resolve q := by
  cases habsolute : q.isAbsolute with
  | true => rw [Path.join_of_isAbsolute habsolute]
  | false =>
    have hherene := text_ne_nil_of_checkPath (checkPath_of_resolve hhere)
    rw [resolve_join hhere habsolute hcheck, resolve_eq_follow (checkPath_of_checkPath_join hherene hq hcheck), origin,
      if_neg (by simp [habsolute])]

theorem isFile_of_resolve (h : s.resolve p = s.resolve q) : s.isFile p = s.isFile q := by
  rw [isFile, isFile, lookup, lookup, h]

theorem checkPath_of_isFile (h : s.isFile p = true) : checkPath p = .ok () := by
  obtain ⟨bytes, hlookup⟩ := lookup_of_isFile h
  exact checkPath_of_lookup hlookup

theorem isFile_join_working (hhere : s.resolve here = .ok s.workingDirectory) (hq : q.text ≠ []) :
    s.isFile (here.join q) = true ↔ s.isFile q = true ∧ checkPath (here.join q) = .ok () := by
  constructor
  · intro h
    have hcheck := checkPath_of_isFile h
    rw [isFile_of_resolve (resolve_join_working hhere hq hcheck)] at h
    exact ⟨h, hcheck⟩
  · rintro ⟨h, hcheck⟩
    rwa [isFile_of_resolve (resolve_join_working hhere hq hcheck)]

theorem readText_join_working (hhere : s.resolve here = .ok s.workingDirectory) (hq : q.text ≠ [])
    (hcheck : checkPath (here.join q) = .ok ()) {t : Text} :
    s.readText (here.join q) = .ok t ↔ s.readText q = .ok t := by
  rw [← toOption_eq_some_iff, ← toOption_eq_some_iff,
    toOption_readText_of_resolve (resolve_join_working hhere hq hcheck)]

/-- Seen from a directory, the path of a file names the same file. -/
theorem fileName?_join (hp : p.text ≠ []) (h : s.isFile q = true) : (p.join q).fileName? = q.fileName? := by
  cases habsolute : q.isAbsolute with
  | true => rw [Path.join_of_isAbsolute habsolute]
  | false =>
    obtain ⟨before, last, hpieces, hvoid⟩ := exists_pieces_of_isFile h
    obtain ⟨front, hjoin, -⟩ := Path.exists_text_join hp habsolute
    rw [Path.fileName?_of_pieces hpieces hvoid]
    have hpieces' : Text.pieces '/' (p.join q).text = (Text.pieces '/' front ++ before) ++ [last] := by
      rw [hjoin, Text.pieces_append, hpieces, List.append_assoc]
    exact Path.fileName?_of_pieces hpieces' hvoid

end Storage
end DocExcerpt
