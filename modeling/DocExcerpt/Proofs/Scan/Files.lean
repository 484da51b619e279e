import DocExcerpt.Proofs.Storage.Names
import DocExcerpt.Sources
/-!
# The files of a scan

The files that a scan collects come strictly one before the other, component by component
(`Sources.pairwise_before_of_collect`), so none of them is collected twice, and they have the names of entries.
-/
namespace DocExcerpt
namespace Sources

variable {s : Storage} {config : Config} {maxSize : Nat} {root : Path} {files : List (List Text)}

/-- **The roots that stand for standard input** are a dash, and with slashes and dots after it. -/
theorem isStandardInput_iff :
    isStandardInput root = true ↔
      ∃ rest, Text.pieces '/' root.text = ['-'] :: rest ∧ ∀ part ∈ rest, Path.isVoid part = true := by
  obtain ⟨first, rest, hpieces⟩ := List.exists_cons_of_ne_nil (Text.pieces_ne_nil '/' root.text)
  have htext : root = ⟨Text.join ['/'] (first :: rest)⟩ := by rw [← hpieces, Text.join_pieces]
  cases hvoid : Path.isVoid first with
  | false =>
    have hslash : '/' ∉ first := Text.not_mem_of_mem_pieces (hpieces ▸ List.mem_cons_self)
    have hanchor : root.anchor = [] := by rw [htext, Path.anchor_join_of_isVoid hvoid hslash]
    simp [isStandardInput, Path.components, Path.parts, hanchor, hpieces, hvoid]
  | true =>
    -- a part that names nothing comes first after an anchor only, or in the empty path
    have hroot : root.anchor ≠ [] ∨ root.components = [] := by
      rw [htext]
      rcases Bool.or_eq_true_iff.1 hvoid with hempty | hdot
      · rw [List.isEmpty_iff.1 hempty]
        cases rest with
        | nil => exact Or.inr rfl
        | cons part rest => exact Or.inl (by rw [Text.join_cons_cons]; exact List.cons_ne_nil _ _)
      · rw [beq_iff_eq.1 hdot]
        cases rest with
        | nil => exact Or.inl (List.cons_ne_nil _ _)
        | cons part rest => exact Or.inl (by rw [Text.join_cons_cons]; exact List.cons_ne_nil _ _)
    refine iff_of_false (fun h => ?_) ?_
    · simp only [isStandardInput, Bool.and_eq_true, List.isEmpty_iff, beq_iff_eq] at h
      rcases hroot with hanchor | hcomponents
      · exact hanchor h.1
      · simp [hcomponents] at h
    · rintro ⟨rest', heq, -⟩
      rw [hpieces, List.cons.injEq] at heq
      rw [heq.1] at hvoid
      cases hvoid

example : isStandardInput ⟨"-/.".toList⟩ = true := rfl

theorem cases_of_collect (h : collect s config maxSize root = .ok files) :
    files = [] ∨ files = [[]] ∨ ∃ dir keep,
      files = (((s.filesBelow dir).filter keep).map Prod.fst).mergeSort Path.componentsLe := by
  cases hskip : Skip.globs s root config.ignore with
  | error e => simp [collect, bind, Except.bind, hskip] at h
  | ok skipped =>
    simp only [collect, bind, Except.bind, hskip] at h
    split at h
    · exact Or.inl (Except.ok.inj h).symm
    · split at h
      · exact Or.inl (Except.ok.inj h).symm
      · split at h
        · exact Or.inl (Except.ok.inj h).symm
        · replace h := Except.ok.inj h
          split at h
          · exact Or.inr (Or.inl h.symm)
          · exact Or.inl h.symm
        · exact Or.inr (Or.inr ⟨_, _, (Except.ok.inj h).symm⟩)

/-- Files are collected below a root that leads somewhere. -/
theorem exists_resolve_of_mem_collect {file : List Text} (h : collect s config maxSize root = .ok files)
    (hfile : file ∈ files) : ∃ dir, s.resolve root = .ok dir := by
  cases hroot : s.resolve root with
  | ok dir => exact ⟨dir, rfl⟩
  | error e =>
    cases hskip : Skip.globs s root config.ignore with
    | error e => simp [collect, bind, Except.bind, hskip] at h
    | ok skipped =>
      have hnil : collect s config maxSize root = .ok [] := by
        simp only [collect, bind, Except.bind, hskip, hroot]
        split <;> rfl
      rw [Except.ok.inj (h.symm.trans hnil)] at hfile
      exact absurd hfile List.not_mem_nil

/-- **The files collected come strictly one before the other.** -/
theorem pairwise_before_of_collect (h : collect s config maxSize root = .ok files) :
    files.Pairwise Path.Before := by
  rcases cases_of_collect h with rfl | rfl | ⟨dir, keep, rfl⟩
  · exact List.Pairwise.nil
  · exact List.pairwise_singleton _ _
  · exact Path.pairwise_before_mergeSort ((s.nodup_filesBelow dir).sublist (List.filter_sublist.map _))

theorem nodup_of_collect (h : collect s config maxSize root = .ok files) : files.Nodup := by
  refine (pairwise_before_of_collect h).imp (fun {file file'} hbefore heq => ?_)
  rw [heq] at hbefore
  exact Path.not_before_self file' hbefore

theorem isName_of_collect (hs : s.HasNames) (h : collect s config maxSize root = .ok files) :
    ∀ file ∈ files, ∀ name ∈ file, Path.IsName name := by
  intro file hfile
  rcases cases_of_collect h with rfl | rfl | ⟨dir, keep, rfl⟩
  · exact absurd hfile List.not_mem_nil
  · rw [List.mem_singleton.1 hfile]
    exact fun _ hname => absurd hname List.not_mem_nil
  · obtain ⟨⟨below, bytes⟩, hmem, rfl⟩ := List.mem_map.1 (List.mem_mergeSort.1 hfile)
    have hentry := Storage.mem_filesBelow.1 (List.mem_filter.1 hmem).1
    exact fun name hname => hs.entries _ hentry name (List.mem_append_right _ hname)

/-- **The files collected below a directory** are the sources that a walk from there comes to. -/
theorem mem_collect_iff {dir file : List Text} {skipped : List Glob} (h : collect s config maxSize root = .ok files)
    (hskipped : Skip.globs s root config.ignore = .ok skipped) (hdash : isStandardInput root = false)
    (hdir : s.resolve root = .ok dir) (hget : s.get? dir = some .directory) :
    file ∈ files ↔ ∃ bytes, (dir ++ file, .file bytes) ∈ s.entries ∧
      isSource config.scan.extensions maxSize (pathBelow root file) (seenBytes (pathBelow root file) bytes) = true ∧
        Filter.reaches ⟨IgnoreLevel.all s, .ofStorage s, skipped, config.showHidden⟩ root dir file = true := by
  simp only [collect, bind, Except.bind, hskipped, hdash, Bool.false_eq_true, if_false, hdir, hget] at h
  obtain rfl := Except.ok.inj h
  simp [List.mem_mergeSort, List.mem_filter, Storage.mem_filesBelow]

end Sources
end DocExcerpt
