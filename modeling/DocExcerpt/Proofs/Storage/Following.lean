import DocExcerpt.Proofs.Fallible
import DocExcerpt.Proofs.Path.Parents
import DocExcerpt.Storage.TextFile
/-!
# Following paths

A path is followed part by part, so what follows a part starts from where the part leads
(`Storage.follow_append`).  A path seen from a directory leads to what its parts lead to from there
(`Storage.resolve_join`).
-/
namespace DocExcerpt
namespace Storage

variable {s : Storage} {p q : Path} {here : List Text}

theorem follow_append (s : Storage) (here parts rest : List Text) :
    s.follow here (parts ++ rest) = s.follow here parts >>= fun there => s.follow there rest := by
  induction parts generalizing here with
  | nil => rfl
  | cons part parts ih =>
    rw [List.cons_append, follow, follow]
    split
    · rfl
    · rfl
    · split
      · exact ih here
      · split
        · exact ih here.dropLast
        · split
          · rfl
          · exact ih (here ++ [part])

theorem eq_of_follow_void {part : Text} (hvoid : Path.isVoid part = true) {there : List Text}
    (h : s.follow here [part] = .ok there) : there = here := by
  rw [follow] at h
  split at h
  · cases h
  · cases h
  · rw [if_pos hvoid, follow] at h
    exact (Except.ok.inj h).symm

theorem eq_of_follow_name {part : Text} (hvoid : Path.isVoid part = false) (hdots : part ≠ ['.', '.'])
    {there : List Text} (h : s.follow here [part] = .ok there) : there = here ++ [part] := by
  rw [follow] at h
  split at h
  · cases h
  · cases h
  · rw [if_neg (by simp [hvoid]), if_neg hdots] at h
    split at h
    · cases h
    · rw [follow] at h
      exact (Except.ok.inj h).symm

/-- A part is followed from a directory only. -/
theorem get?_of_follow {part : Text} {parts there : List Text} (h : s.follow here (part :: parts) = .ok there) :
    s.get? here = some .directory := by
  rw [follow] at h
  split at h
  · cases h
  · cases h
  · next hget => exact hget

/-! ## Paths seen from a directory -/

theorem checkPath_of_resolve {names : List Text} (h : s.resolve p = .ok names) : checkPath p = .ok () := by
  obtain ⟨⟨⟩, hcheck, -⟩ := bind_eq_ok_iff.1 h
  exact hcheck

theorem text_ne_nil_of_checkPath (h : checkPath p = .ok ()) : p.text ≠ [] := by
  intro hnil
  simp [checkPath, hnil] at h

theorem resolve_eq_follow (h : checkPath p = .ok ()) :
    s.resolve p = s.follow (s.origin p) (Text.pieces '/' p.text) := by
  rw [resolve, h]
  rfl

/-- **A path seen from a directory** leads to what its parts lead to from there. -/
theorem resolve_join {dir : List Text} (hp : s.resolve p = .ok dir) (hq : q.isAbsolute = false)
    (hcheck : checkPath (p.join q) = .ok ()) : s.resolve (p.join q) = s.follow dir (Text.pieces '/' q.text) := by
  have hpcheck := checkPath_of_resolve hp
  have hpne := text_ne_nil_of_checkPath hpcheck
  obtain ⟨front, hjoin, hfront⟩ := Path.exists_text_join hpne hq
  have horigin : s.origin (p.join q) = s.origin p := by
    rw [origin, origin, Path.isAbsolute_join hpne, hq, Bool.or_false]
  rw [resolve_eq_follow hpcheck] at hp
  have hdir : s.follow (s.origin p) (Text.pieces '/' front) = .ok dir := by
    rcases hfront with htext | htext
    · rwa [htext] at hp
    · rw [htext, Text.pieces_append, follow_append] at hp
      obtain ⟨dir', hdir', hp⟩ := bind_eq_ok_iff.1 hp
      rw [hdir', eq_of_follow_void rfl hp]
  rw [resolve_eq_follow hcheck, horigin, hjoin, Text.pieces_append, follow_append, hdir]
  rfl

/-! ## Reading by path -/

theorem checkPath_of_lookup {e : Entry} (h : s.lookup p = .ok e) : checkPath p = .ok () := by
  obtain ⟨names, hnames, -⟩ := bind_eq_ok_iff.1 h
  exact checkPath_of_resolve hnames

theorem lookup_of_isFile (h : s.isFile p = true) : ∃ bytes, s.lookup p = .ok (.file bytes) := by
  unfold isFile at h
  split at h
  · next bytes hlookup => exact ⟨bytes, hlookup⟩
  · cases h

theorem lookup_of_isDirectory (h : s.isDirectory p = true) : s.lookup p = .ok .directory := by
  unfold isDirectory at h
  split at h
  · next hlookup => exact hlookup
  · cases h

theorem isFile_of_readText {t : Text} (h : s.readText p = .ok t) : s.isFile p = true := by
  rw [readText] at h
  split at h
  · cases h
  · next hread =>
    obtain ⟨e, he, hread⟩ := bind_eq_ok_iff.1 hread
    cases e with
    | directory => cases hread
    | file bytes => rw [isFile, he]

/-- Paths that lead to the same place lead to the same text. -/
theorem toOption_readText_of_resolve (h : s.resolve p = s.resolve q) :
    (s.readText p).toOption = (s.readText q).toOption := by
  have hread : s.read p = s.read q := by rw [read, read, lookup, lookup, h]
  rw [readText, readText, hread]
  cases s.read q with
  | error e => rfl
  | ok bytes =>
    simp only
    split
    · rfl
    · cases Utf8.decode bytes <;> rfl

end Storage
end DocExcerpt
