import Mathlib.Data.List.Nodup
import DocExcerpt.Proofs.Fallible
import DocExcerpt.Proofs.Path.Components
import DocExcerpt.Proofs.Storage.Following
import DocExcerpt.Storage.Change
/-!
# Names in storage

The entries of a file system have names that can be told apart in a path, and stand in directories
(`Storage.HasNames`).  Nothing that is done to it takes that away (`HasNames.write`, `HasNames.createDirectories`,
`HasNames.remove`).  The files below a directory are listed by their names from it, each once
(`Storage.nodup_filesBelow`).
-/
namespace DocExcerpt
namespace Storage

/-- **Every entry is reached by its names.**  They are names that an entry can have, as are those of the working
directory, and what stands above an entry is a directory. -/
structure HasNames (s : Storage) : Prop where
  entries : ∀ e ∈ s.entries, ∀ name ∈ e.1, Path.IsName name
  workingDirectory : ∀ name ∈ s.workingDirectory, Path.IsName name
  above : ∀ e ∈ s.entries, ∀ n < e.1.length, s.get? (e.1.take n) = some .directory

variable {s s' : Storage} {p : Path} {names : List Text}

theorem get?_nil (s : Storage) : s.get? [] = some .directory := rfl

theorem get?_eq_some_iff (hne : names ≠ []) {e : Entry} : s.get? names = some e ↔ (names, e) ∈ s.entries := by
  rw [get?, if_neg (by simpa using hne), Option.map_eq_some_iff]
  constructor
  · rintro ⟨⟨names', e⟩, hfind, rfl⟩
    obtain rfl : names' = names := by simpa using List.find?_some hfind
    exact List.mem_of_find?_eq_some hfind
  · intro hmem
    have hsome : (s.entries.find? (fun e => e.1 == names)).isSome = true :=
      List.find?_isSome.2 ⟨(names, e), hmem, beq_self_eq_true names⟩
    obtain ⟨e', hfind⟩ := Option.isSome_iff_exists.1 hsome
    have hkey : e'.1 = names := by simpa using List.find?_some hfind
    have heq := List.inj_on_of_nodup_map s.distinct (List.mem_of_find?_eq_some hfind) hmem hkey
    exact ⟨e', hfind, by rw [heq]⟩

theorem get?_put_self (h : names ≠ []) (e : Entry) : (s.put names e).get? names = some e := by
  rw [get?_put s names e names h, if_pos rfl]

theorem get?_put_of_ne {other : List Text} (h : other ≠ names) (e : Entry) :
    (s.put names e).get? other = s.get? other := by
  by_cases hnil : other = []
  · rw [hnil, get?_nil, get?_nil]
  · rw [get?_put s names e other hnil, if_neg h]

theorem hasNames_empty (h : ∀ name ∈ names, Path.IsName name) : (empty names).HasNames :=
  ⟨fun _ he => absurd he List.not_mem_nil, h, fun _ he => absurd he List.not_mem_nil⟩

/-- What leads to a directory leads through directories. -/
theorem HasNames.get?_take (h : s.HasNames) (hget : s.get? names = some .directory) (n : Nat) :
    s.get? (names.take n) = some .directory := by
  by_cases hn : n < names.length
  · have hne : names ≠ [] := fun hnil => by simp [hnil] at hn
    exact h.above _ ((get?_eq_some_iff hne).1 hget) n hn
  · rwa [List.take_of_length_le (by omega)]

/-- Entries can be taken away as long as whatever stands above one that is kept is kept, too. -/
theorem HasNames.restrict (h : s.HasNames) {keep : List Text → Bool}
    (hkeep : ∀ names n, keep names = true → keep (names.take n) = true) : (s.restrict keep).HasNames := by
  refine ⟨fun e he => h.entries e (List.mem_filter.1 he).1, h.workingDirectory, fun e he n hn => ?_⟩
  obtain ⟨hmem, hkept⟩ := List.mem_filter.1 he
  by_cases hnil : e.1.take n = []
  · rw [hnil, get?_nil]
  · rw [get?_restrict s keep _ hnil, if_pos (hkeep e.1 n hkept)]
    exact h.above e hmem n hn

/-- An entry can be put into a directory, but no file in place of a directory. -/
theorem HasNames.put (h : s.HasNames) {dir : List Text} {last : Text} (hdir : s.get? dir = some .directory)
    (hnames : ∀ name ∈ dir ++ [last], Path.IsName name) {e : Entry}
    (he : s.get? (dir ++ [last]) = some .directory → e = .directory) : (s.put (dir ++ [last]) e).HasNames := by
  have hold : ∀ old ∈ (s.put (dir ++ [last]) e).entries, old ∈ s.entries ∨ old = (dir ++ [last], e) := by
    intro old hmem
    rcases List.mem_append.1 hmem with hmem | hmem
    · exact Or.inl (List.mem_filter.1 hmem).1
    · exact Or.inr (List.mem_singleton.1 hmem)
  have hstays : ∀ other, s.get? other = some .directory → (s.put (dir ++ [last]) e).get? other = some .directory := by
    intro other hother
    by_cases heq : other = dir ++ [last]
    · rw [heq, get?_put_self (by simp), he (heq ▸ hother)]
    · rwa [get?_put_of_ne heq]
  refine ⟨fun old hmem => ?_, h.workingDirectory, fun old hmem n hn => hstays _ ?_⟩
  · rcases hold old hmem with hmem | rfl
    · exact h.entries old hmem
    · exact hnames
  · rcases hold old hmem with hmem | rfl
    · exact h.above old hmem n hn
    · rw [List.length_append, List.length_singleton] at hn
      rw [List.take_append_of_le_length (by omega)]
      exact h.get?_take hdir n

theorem isName_of_follow {here parts names : List Text} (hparts : ∀ part ∈ parts, '/' ∉ part)
    (hhere : ∀ name ∈ here, Path.IsName name) (h : s.follow here parts = .ok names) :
    ∀ name ∈ names, Path.IsName name := by
  induction parts generalizing here with
  | nil =>
    rw [follow] at h
    exact Except.ok.inj h ▸ hhere
  | cons part parts ih =>
    obtain ⟨hpart, hparts⟩ := List.forall_mem_cons.1 hparts
    rw [follow] at h
    split at h
    · cases h
    · cases h
    · split at h
      · exact ih hparts hhere h
      · next hvoid =>
        split at h
        · exact ih hparts (fun name hname => hhere name (List.dropLast_subset _ hname)) h
        · next hdots =>
          split at h
          · cases h
          · refine ih hparts (fun name hname => ?_) h
            rcases List.mem_append.1 hname with hname | hname
            · exact hhere name hname
            · rw [List.mem_singleton.1 hname]
              simp only [Path.isVoid, Bool.or_eq_true, List.isEmpty_iff, beq_iff_eq, not_or] at hvoid
              exact ⟨hvoid.1, hvoid.2, hdots, hpart⟩

theorem not_mem_of_splitLastPart {before : List Text} {last : Text} {slash : Bool}
    (h : splitLastPart p = (before, last, slash)) : ∀ part ∈ before ++ [last], '/' ∉ part := by
  have hpieces : ∀ part ∈ (Text.pieces '/' p.text).reverse, '/' ∉ part :=
    fun part hpart => Text.not_mem_of_mem_pieces (List.mem_reverse.1 hpart)
  rw [splitLastPart] at h
  split at h
  · cases h
    simp
  · next heq =>
    rw [heq] at hpieces
    split at h
    · cases h
      simp
    · next hdrop =>
      cases h
      intro part' hpart'
      rw [List.mem_append, List.mem_reverse, List.mem_singleton, or_comm, ← List.mem_cons, ← hdrop] at hpart'
      exact hpieces part' ((List.dropWhile_sublist List.isEmpty).subset hpart')

/-- **Where a path to be made leads**: to a name of its own in a directory. -/
theorem exists_dir_of_target {before : List Text} {last : Text} {slash : Bool}
    (hsplit : splitLastPart p = (before, last, slash)) (h : s.target p = .ok (some names)) :
    checkPath p = .ok () ∧ Path.isVoid last = false ∧ last ≠ ['.', '.'] ∧
      ∃ dir, s.follow (s.origin p) before = .ok dir ∧ s.follow dir [last] = .ok names := by
  rw [target, hsplit] at h
  obtain ⟨⟨⟩, hcheck, h⟩ := bind_eq_ok_iff.1 h
  obtain ⟨dir, hdir, h⟩ := bind_eq_ok_iff.1 h
  split at h
  · cases h
  · next hname =>
    simp only [Bool.or_eq_true, not_or, Bool.not_eq_true, beq_eq_false_iff_ne] at hname
    obtain ⟨names', hnames, h⟩ := bind_eq_ok_iff.1 h
    cases h
    rw [follow_append] at hdir
    obtain ⟨there, hthere, hdir⟩ := bind_eq_ok_iff.1 hdir
    rw [eq_of_follow_void rfl hdir] at hnames
    exact ⟨hcheck, hname.1, hname.2, there, hthere, hnames⟩

/-- An entry can be put where a path to be made leads. -/
theorem HasNames.put_target (h : s.HasNames) (ht : s.target p = .ok (some names)) {e : Entry}
    (he : s.get? names = some .directory → e = .directory) : (s.put names e).HasNames := by
  rcases hsplit : splitLastPart p with ⟨before, last, slash⟩
  obtain ⟨-, hvoid, hdots, dir, hdir, hnames⟩ := exists_dir_of_target hsplit ht
  have hparts := not_mem_of_splitLastPart hsplit
  have horigin : ∀ name ∈ s.origin p, Path.IsName name := by
    rw [origin]
    split
    · exact fun _ hname => absurd hname List.not_mem_nil
    · exact h.workingDirectory
  have hdirnames := isName_of_follow (fun part hpart => hparts part (List.mem_append_left _ hpart)) horigin hdir
  have hisname := isName_of_follow (fun part hpart => hparts part (List.mem_append_right _ hpart)) hdirnames hnames
  have hget := get?_of_follow hnames
  obtain rfl := eq_of_follow_name hvoid hdots hnames
  exact h.put hget hisname he

theorem HasNames.createDirectory (h : s.HasNames) (hs : s.createDirectory p = .ok s') : s'.HasNames := by
  obtain ⟨target, htarget, hs⟩ := bind_eq_ok_iff.1 hs
  cases target with
  | none => cases hs
  | some names =>
    simp only at hs
    split at hs
    · cases hs
    · cases hs
      exact h.put_target htarget (fun _ => rfl)

/-- **What making one directory keeps, making several keeps**, however far that comes. -/
theorem createDirectoriesUpTo_of_step {Keeps : Storage → Prop}
    (hstep : ∀ {s s' : Storage} {p : Path}, Keeps s → s.createDirectory p = .ok s' → Keeps s') {depth : Nat}
    (h : Keeps s) : Keeps (createDirectoriesUpTo depth s p).1 := by
  induction depth generalizing s p with
  | zero =>
    rw [Storage.createDirectoriesUpTo]
    split
    · exact h
    · split
      · next hs => exact hstep h hs
      · split <;> exact h
  | succ depth ih =>
    rw [Storage.createDirectoriesUpTo]
    split
    · exact h
    · split
      · next hs => exact hstep h hs
      · split
        · cases p.parent? with
          | none => exact h
          | some dir =>
            -- the storage comes from the directories above, whether or not they could all be made
            have hdir := ih (p := dir) h
            dsimp only
            generalize Storage.createDirectoriesUpTo depth s dir = made at hdir ⊢
            obtain ⟨s', _ | e⟩ := made
            · dsimp only
              split
              · next hs => exact hstep hdir hs
              · exact hdir
            · exact hdir
        · exact h

/-- **Making directories keeps the names**, however far it comes. -/
theorem HasNames.createDirectories (h : s.HasNames) (p : Path) : (s.createDirectories p).1.HasNames :=
  createDirectoriesUpTo_of_step HasNames.createDirectory h

theorem HasNames.write {bytes : List UInt8} (h : s.HasNames) (hs : s.write p bytes = .ok s') : s'.HasNames := by
  obtain ⟨target, htarget, hs⟩ := bind_eq_ok_iff.1 hs
  cases target with
  | none => cases hs
  | some names =>
    simp only at hs
    split at hs
    · cases hs
    · split at hs
      · cases hs
      · next hdirectory =>
        cases hs
        exact h.put_target htarget (fun hget => absurd hget hdirectory)

theorem below?_eq_some_iff {dir names rest : List Text} : below? dir names = some rest ↔ names = dir ++ rest := by
  induction dir generalizing names with
  | nil => simp [below?, eq_comm]
  | cons d dir ih =>
    cases names with
    | nil => simp [below?]
    | cons n names =>
      rw [below?]
      split
      · next h => simp [h, ih]
      · next h => simp [Ne.symm h]

theorem HasNames.remove (h : s.HasNames) (p : Path) : (s.remove p).HasNames := by
  rw [Storage.remove]
  split
  · exact h
  · next removed _ =>
    refine h.restrict (fun names n hnames => ?_)
    rw [Option.isNone_iff_eq_none, Option.eq_none_iff_forall_not_mem] at hnames ⊢
    intro rest hrest
    refine hnames (rest ++ names.drop n) (below?_eq_some_iff.2 ?_)
    rw [← List.append_assoc, ← below?_eq_some_iff.1 hrest, List.take_append_drop]

theorem mem_filesBelow {s : Storage} {dir below : List Text} {bytes : List UInt8} :
    (below, bytes) ∈ s.filesBelow dir ↔ (dir ++ below, .file bytes) ∈ s.entries := by
  simp only [filesBelow, List.mem_filterMap, Prod.exists]
  constructor
  · rintro ⟨names, entry, hmem, heq⟩
    cases entry with
    | directory => cases heq
    | file content =>
      obtain ⟨rest, hrest, heq⟩ := Option.map_eq_some_iff.1 heq
      cases heq
      rwa [← below?_eq_some_iff.1 hrest]
  · intro hmem
    exact ⟨_, _, hmem, by simp [below?_eq_some_iff.2 rfl]⟩

theorem mem_filesBelow_of_get? {dir below : List Text} {bytes : List UInt8}
    (h : s.get? (dir ++ below) = some (.file bytes)) : (below, bytes) ∈ s.filesBelow dir := by
  by_cases hne : dir ++ below = []
  · rw [hne] at h
    cases h
  · exact mem_filesBelow.2 ((get?_eq_some_iff hne).1 h)

/-- **No file below a directory is listed twice.** -/
theorem nodup_filesBelow (s : Storage) (dir : List Text) : ((s.filesBelow dir).map Prod.fst).Nodup := by
  have hdistinct : s.entries.Pairwise (fun e e' => e.1 ≠ e'.1) := List.pairwise_map.1 s.distinct
  rw [List.Nodup, List.pairwise_map, filesBelow, List.pairwise_filterMap]
  refine hdistinct.imp (fun {e e'} hne p hp p' hp' heq => hne ?_)
  rcases e with ⟨names, bytes | _⟩
  · rcases e' with ⟨names', bytes' | _⟩
    · obtain ⟨rest, hrest, rfl⟩ := Option.map_eq_some_iff.1 hp
      obtain ⟨rest', hrest', rfl⟩ := Option.map_eq_some_iff.1 hp'
      rw [below?_eq_some_iff.1 hrest, below?_eq_some_iff.1 hrest', show rest = rest' from heq]
    · cases hp'
  · cases hp

end Storage
end DocExcerpt
