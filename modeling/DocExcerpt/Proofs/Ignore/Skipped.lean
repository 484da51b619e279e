import DocExcerpt.Proofs.Ignore.LiteralPaths
import DocExcerpt.Proofs.Storage.Following
/-!
# What a scan skips

The ignore file of the scanned directory is read for the paths it lists (`Skip.ofIgnoreFile_eq`).  With literal paths
there and in the configuration, a scan skips what a glob matches and what one of the paths runs through
(`Skip.exists_globs_eq`).
-/
namespace DocExcerpt
namespace Skip

/-- **The paths that the ignore file of a directory lists**: none if there is no such file. -/
def Lists (s : Storage) (dir listed : List Text) : Prop :=
  (s.get? (dir ++ [ignoreFileName]) = none ∧ listed = []) ∨
    ∃ bytes content, s.get? (dir ++ [ignoreFileName]) = some (.file bytes) ∧ Utf8.decode bytes = .ok content ∧
      listed = listedPaths content

variable {s : Storage} {root : Path} {dir listed : List Text} {ignore : Config.Ignore}

theorem resolve_ignoreFile (hdir : s.resolve root = .ok dir) (hget : s.get? dir = some .directory)
    (hcheck : Storage.checkPath (root.join ⟨ignoreFileName⟩) = .ok ()) :
    s.resolve (root.join ⟨ignoreFileName⟩) = .ok (dir ++ [ignoreFileName]) := by
  rw [Storage.resolve_join hdir rfl hcheck]
  have hpieces : Text.pieces '/' ignoreFileName = [ignoreFileName] := by decide
  rw [hpieces, Storage.follow, hget]
  rfl

/-- **The ignore file of a directory is read** for what it lists. -/
theorem ofIgnoreFile_eq (hdir : s.resolve root = .ok dir) (hget : s.get? dir = some .directory)
    (hopens : ∀ bytes, s.get? (dir ++ [ignoreFileName]) = some (.file bytes) →
      Storage.checkPath (root.join ⟨ignoreFileName⟩) = .ok ())
    (hlisted : Lists s dir listed) : ofIgnoreFile s root = .ok listed := by
  rcases hlisted with ⟨hnone, rfl⟩ | ⟨bytes, content, hfile, hdecode, rfl⟩
  · have hexists : s.exists? (root.join ⟨ignoreFileName⟩) = false := by
      rw [Bool.eq_false_iff]
      intro h
      rw [Storage.exists?] at h
      split at h
      · next e hlookup =>
        have hresolve := resolve_ignoreFile hdir hget (Storage.checkPath_of_lookup hlookup)
        simp [Storage.lookup, hresolve, hnone, bind, Except.bind] at hlookup
      · cases h
    simp [ofIgnoreFile, hexists]
  · have hlookup : s.lookup (root.join ⟨ignoreFileName⟩) = .ok (.file bytes) := by
      rw [Storage.lookup, resolve_ignoreFile hdir hget (hopens bytes hfile)]
      simp [bind, Except.bind, hfile, pure, Except.pure]
    simp [ofIgnoreFile, Storage.exists?, Storage.readUtf8, Storage.read, hlookup, bind, Except.bind, pure, Except.pure,
      hdecode, Except.map, Except.mapError]

theorem covers_append {gs hs : List Glob} {path : Text} : covers (gs ++ hs) path = (covers gs path || covers hs path) :=
  List.any_append

/-- **What the settings skip**: an entry that a glob matches, or with names that a literal path runs through. -/
def Skips (ignore : Config.Ignore) (listed way : List Text) : Prop :=
  (∃ t ∈ ignore.globs, ∃ glob, Glob.parse true t = .ok glob ∧ glob.matches (Text.join ['/'] way) = true) ∨
    ∃ raw ∈ ignore.paths ++ listed, ∃ names, IsLiteral raw names ∧ names <:+: way

/-- **A scan skips what the settings skip**, when their globs are valid and their paths literal. -/
theorem exists_globs_eq (hlisted : ofIgnoreFile s root = .ok listed)
    (hliterals : ∀ raw ∈ ignore.paths ++ listed, ∃ names, IsLiteral raw names)
    (hglobs : ∀ t ∈ ignore.globs, ∃ glob, Glob.parse true t = .ok glob) :
    ∃ skipped, globs s root ignore = .ok skipped ∧
      ∀ way, way ≠ [] → (∀ name ∈ way, '/' ∉ name) →
        (covers skipped (Text.join ['/'] way) = true ↔ Skips ignore listed way) := by
  have hpaths : ∀ raw ∈ ignore.paths, ∃ names, IsLiteral raw names :=
    fun raw hraw => hliterals raw (List.mem_append_left _ hraw)
  have hlines : ∀ raw ∈ listed, ∃ names, IsLiteral raw names :=
    fun raw hraw => hliterals raw (List.mem_append_right _ hraw)
  obtain ⟨fromPaths, hfromPaths⟩ := exists_parseGlobs_literals .configPaths hpaths
  obtain ⟨fromGlobs, hfromGlobs⟩ := exists_parseGlobs .configGlobs hglobs
  obtain ⟨fromFile, hfromFile⟩ := exists_parseGlobs_literals .ignoreFile hlines
  refine ⟨fromPaths ++ fromGlobs ++ fromFile, ?_, fun way hne hway => ?_⟩
  · simp [globs, hfromPaths, hfromGlobs, hlisted, hfromFile, bind, Except.bind, pure, Except.pure]
  · rw [covers_append, covers_append, Bool.or_eq_true, Bool.or_eq_true, covers_literals_iff hpaths hfromPaths hway hne,
      covers_iff_of_parseGlobs hfromGlobs, covers_literals_iff hlines hfromFile hway hne]
    simp only [Skips, List.mem_append, or_and_right, exists_or]
    rw [or_comm (a := ∃ raw ∈ ignore.paths, _), or_assoc]

/-- **Nothing is skipped on the way to a file** when no glob matches there and no literal path runs through the names
of the file.  A literal path that runs through those of a directory on the way runs through those of the file. -/
theorem forall_not_skips_iff {file : List Text} (hfile : file ≠ []) :
    (∀ way, way ≠ [] → way <+: file → ¬Skips ignore listed way) ↔
      (∀ t ∈ ignore.globs, ∀ glob, Glob.parse true t = .ok glob → ∀ way, way ≠ [] → way <+: file →
        glob.matches (Text.join ['/'] way) = false) ∧
      ∀ raw ∈ ignore.paths ++ listed, ∀ names, IsLiteral raw names → ¬names <:+: file := by
  constructor
  · intro h
    refine ⟨fun t ht glob hparse way hne hway => ?_, fun raw hraw names hnames hruns => ?_⟩
    · rw [Bool.eq_false_iff]
      exact fun hmatches => h way hne hway (Or.inl ⟨t, ht, glob, hparse, hmatches⟩)
    · exact h file hfile (List.prefix_refl _) (Or.inr ⟨raw, hraw, names, hnames, hruns⟩)
  · rintro ⟨hglobs, hliterals⟩ way hne hway (⟨t, ht, glob, hparse, hmatches⟩ | ⟨raw, hraw, names, hnames, hruns⟩)
    · rw [hglobs t ht glob hparse way hne hway] at hmatches
      cases hmatches
    · exact hliterals raw hraw names hnames (hruns.trans hway.isInfix)

end Skip
end DocExcerpt
