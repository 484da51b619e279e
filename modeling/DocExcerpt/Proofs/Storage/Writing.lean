import DocExcerpt.Proofs.Storage.Following
import DocExcerpt.Proofs.Storage.Names
/-!
# Writing files

What writing does to a file system.  Making directories adds directories and touches no file
(`Storage.addsDirectories_createDirectories`); a file that was written is found at its path with the bytes written,
and every other entry is as before (`Storage.written_of_write`).
-/
namespace DocExcerpt
namespace Storage

variable {s s' s'' : Storage} {p : Path} {bytes : List UInt8} {names here : List Text}

/-- A path that leads somewhere leads there also with another file in the file system. -/
theorem follow_put {there parts : List Text} (hnames : s.get? names ≠ some .directory) (e : Entry)
    (h : s.follow here parts = .ok there) : (s.put names e).follow here parts = .ok there := by
  induction parts generalizing here with
  | nil => exact h
  | cons part parts ih =>
    rw [follow] at h ⊢
    cases hget : s.get? here with
    | none => simp [hget] at h
    | some entry =>
      cases entry with
      | file content => simp [hget] at h
      | directory =>
        -- the way leads through directories only, so the other file is not on it
        have hne : here ≠ names := fun heq => hnames (heq ▸ hget)
        simp only [hget, get?_put_of_ne hne] at h ⊢
        split at h
        · next hvoid => rw [if_pos hvoid]; exact ih h
        · next hvoid =>
          rw [if_neg hvoid]
          split at h
          · next hdots => rw [if_pos hdots]; exact ih h
          · next hdots =>
            rw [if_neg hdots]
            split at h
            · cases h
            · next hlong => rw [if_neg hlong]; exact ih h

theorem pieces_of_splitLastPart {before : List Text} {last : Text} (h : splitLastPart p = (before, last, false))
    (hvoid : Path.isVoid last = false) : Text.pieces '/' p.text = before ++ [last] := by
  rw [splitLastPart] at h
  split at h
  · cases h
    cases hvoid
  · next part parts heq =>
    have hparts : (part :: parts).dropWhile List.isEmpty = if part.isEmpty then parts.dropWhile List.isEmpty
        else part :: parts := List.dropWhile_cons
    split at h
    · cases h
    · next hdrop =>
      cases hpart : part.isEmpty with
      | true => simp [hpart] at h
      | false =>
        rw [hdrop, hpart] at hparts
        obtain ⟨rfl, rfl⟩ := List.cons.inj hparts
        simp only [Prod.mk.injEq] at h
        obtain ⟨rfl, rfl, -⟩ := h
        rw [← List.reverse_inj, heq]
        simp

/-! ## Making directories -/

/-- **Nothing but directories is new**: every entry that was there is as it was. -/
structure AddsDirectories (s s' : Storage) : Prop where
  workingDirectory : s'.workingDirectory = s.workingDirectory
  home : s'.home = s.home
  get? : ∀ names, s'.get? names = s.get? names ∨ s.get? names = none ∧ s'.get? names = some .directory

theorem AddsDirectories.refl (s : Storage) : AddsDirectories s s := ⟨rfl, rfl, fun _ => Or.inl rfl⟩

theorem AddsDirectories.trans (h : AddsDirectories s s') (h' : AddsDirectories s' s'') : AddsDirectories s s'' := by
  refine ⟨h'.workingDirectory.trans h.workingDirectory, h'.home.trans h.home, fun names => ?_⟩
  rcases h'.get? names with heq | ⟨hnone, hsome⟩
  · rw [heq]
    exact h.get? names
  · rcases h.get? names with heq | ⟨-, hdirectory⟩
    · exact Or.inr ⟨heq ▸ hnone, hsome⟩
    · rw [hnone] at hdirectory
      cases hdirectory

theorem AddsDirectories.get?_eq_file_iff (h : AddsDirectories s s') (names : List Text) (bytes : List UInt8) :
    s'.get? names = some (.file bytes) ↔ s.get? names = some (.file bytes) := by
  rcases h.get? names with heq | ⟨hnone, hsome⟩
  · rw [heq]
  · simp [hnone, hsome]

theorem addsDirectories_createDirectory (h : s.createDirectory p = .ok s') : AddsDirectories s s' := by
  obtain ⟨target, htarget, h⟩ := bind_eq_ok_iff.1 h
  cases target with
  | none => cases h
  | some names =>
    simp only at h
    split at h
    · cases h
    · next hnone =>
      cases h
      simp only [Option.isSome_iff_ne_none, ne_eq, not_not] at hnone
      refine ⟨rfl, rfl, fun other => ?_⟩
      by_cases hother : other = names
      · have hne : names ≠ [] := fun hnil => by simp [hnil, get?_nil] at hnone
        exact Or.inr ⟨hother ▸ hnone, by rw [hother, get?_put_self hne]⟩
      · exact Or.inl (get?_put_of_ne hother _)

/-- **Making directories touches no file**, however far it comes. -/
theorem addsDirectories_createDirectories (s : Storage) (p : Path) : AddsDirectories s (s.createDirectories p).1 :=
  createDirectoriesUpTo_of_step (fun h hs => h.trans (addsDirectories_createDirectory hs)) (AddsDirectories.refl s)

/-! ## Writing a file -/

/-- **A file that was written**: its path leads to the bytes, and all else is as before. -/
structure Written (s s' : Storage) (p : Path) (bytes : List UInt8) : Prop where
  read : s'.read p = .ok bytes
  get? : ∀ names, s'.resolve p ≠ .ok names → s'.get? names = s.get? names

theorem written_of_write (h : s.write p bytes = .ok s') : Written s s' p bytes := by
  rcases hsplit : splitLastPart p with ⟨before, last, slash⟩
  rw [write, hsplit] at h
  obtain ⟨target, htarget, h⟩ := bind_eq_ok_iff.1 h
  cases target with
  | none => cases h
  | some names =>
    obtain ⟨hcheck, hvoid, hdots, dir, hdir, hlast⟩ := exists_dir_of_target hsplit htarget
    have hne : names ≠ [] := by simp [eq_of_follow_name hvoid hdots hlast]
    have hfollow : s.follow (s.origin p) (before ++ [last]) = .ok names := by
      rw [follow_append]
      exact bind_eq_ok_iff.2 ⟨dir, hdir, hlast⟩
    cases slash with
    | true => cases h
    | false =>
      have hs : s.get? names ≠ some .directory ∧ s.put names (.file bytes) = s' := by
        simp only [Bool.false_eq_true, if_false] at h
        split at h
        · cases h
        · next hdirectory => exact ⟨hdirectory, Except.ok.inj h⟩
      obtain ⟨hdirectory, rfl⟩ := hs
      have hresolve : (s.put names (.file bytes)).resolve p = .ok names := by
        rw [resolve, hcheck, pieces_of_splitLastPart hsplit hvoid]
        exact follow_put hdirectory _ hfollow
      refine ⟨?_, fun other hother => get?_put_of_ne ?_ _⟩
      · simp only [read, lookup, hresolve, bind, Except.bind, get?_put_self hne]
        rfl
      · rintro rfl
        exact hother hresolve

end Storage
end DocExcerpt
