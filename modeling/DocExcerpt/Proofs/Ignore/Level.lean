import DocExcerpt.Ignore.Level
import DocExcerpt.Proofs.Storage.Names
/-!
# Trees without ignore rules

Where no directory above an entry has a file with ignore rules, nothing is said of the entry
(`IgnoreLevel.decide?_eq_none`), be it in a repository or not (`IgnoreLevel.inRepository_eq_false`).
-/
namespace DocExcerpt
namespace IgnoreLevel

/-- The files that may hold rules for what lies in a directory, by their names from there. -/
def ruleFiles : List (List Text) :=
  [[".ignore".toList], [".gitignore".toList], [".git".toList, "info".toList, "exclude".toList]]

/-- **A directory without rules**: it has none of the files that may hold some. -/
def HasNoRules (s : Storage) (dir : List Text) : Prop :=
  ∀ names ∈ ruleFiles, ∀ bytes, s.get? (dir ++ names) ≠ some (.file bytes)

variable {s : Storage} {names dir : List Text} {level : IgnoreLevel × Text} {levels : List (IgnoreLevel × Text)}

theorem hasNoRules_of_getLast? (h : ∀ e ∈ s.entries, ∀ names ∈ ruleFiles, e.1.getLast? ≠ names.getLast?)
    (dir : List Text) : HasNoRules s dir := by
  intro names hnames bytes hget
  have hne : names ≠ [] := by
    rintro rfl
    revert hnames
    decide
  have hmem := (Storage.get?_eq_some_iff (List.append_ne_nil_of_right_ne_nil dir hne)).1 hget
  refine h _ hmem names hnames ?_
  rw [List.getLast?_append, Option.or_of_isSome (List.getLast?_isSome.2 hne)]

theorem rulesAt_eq_nil (h : ∀ bytes, s.get? names ≠ some (.file bytes)) : rulesAt s names = [] := by
  rw [rulesAt]
  split
  · next bytes hget => exact absurd hget (h bytes)
  · rfl

/-- The levels above an entry are those of directories that it lies in. -/
theorem exists_of_mem_above (h : level ∈ above (all s) names) : ∃ dir, dir <+: names ∧ level.1 = ofDirectory s dir := by
  obtain ⟨l, hl, hlevel⟩ := List.mem_filterMap.1 (List.mem_mergeSort.1 h)
  obtain ⟨dir, -, rfl⟩ := List.mem_map.1 hl
  split at hlevel
  · next n rest hbelow =>
    cases hlevel
    exact ⟨dir, ⟨n :: rest, (Storage.below?_eq_some_iff.1 hbelow).symm⟩, rfl⟩
  · cases hlevel

theorem mem_of_mem_uptoRepository (h : level ∈ uptoRepository levels) : level ∈ levels := by
  induction levels with
  | nil => cases h
  | cons l outer ih =>
    rw [uptoRepository] at h
    split at h
    · exact List.mem_singleton.1 h ▸ List.mem_cons_self
    · rcases List.mem_cons.1 h with rfl | h
      · exact List.mem_cons_self
      · exact List.mem_cons_of_mem _ (ih h)

/-- **A directory that is no repository.** -/
def IsNoRepository (s : Storage) (dir : List Text) : Prop := ∀ name ∈ repositoryNames, s.get? (dir ++ [name]) = none

theorem isNoRepository_of_getLast? (h : ∀ e ∈ s.entries, ∀ name ∈ repositoryNames, e.1.getLast? ≠ some name)
    (dir : List Text) : IsNoRepository s dir := by
  intro name hname
  refine Option.eq_none_iff_forall_not_mem.2 (fun e he => ?_)
  have hmem := (Storage.get?_eq_some_iff (by simp)).1 he
  exact h _ hmem name hname List.getLast?_concat

theorem inRepository_eq_false (h : ∀ dir, dir <+: names → IsNoRepository s dir) :
    inRepository (all s) names = false := by
  rw [inRepository, List.any_eq_false]
  intro level hlevel
  obtain ⟨dir, hdir, heq⟩ := exists_of_mem_above hlevel
  rw [heq, Bool.not_eq_true, ofDirectory, List.any_eq_false]
  exact fun name hname => by simp [h dir hdir name hname]

/-- **Where no directory has rules, nothing is said of an entry.** -/
theorem decide?_eq_none (h : ∀ dir, dir <+: names → HasNoRules s dir) (isDirectory : Bool) :
    decide? (all s) names isDirectory = none := by
  have hnone : ∀ {rules : IgnoreLevel → List IgnoreRule} {levels : List (IgnoreLevel × Text)},
      (∀ dir, HasNoRules s dir → rules (ofDirectory s dir) = []) → (∀ l ∈ levels, l ∈ above (all s) names) →
        levels.findSome? (fun l => IgnoreRule.decide? (rules l.1) l.2 isDirectory) = none := by
    intro rules levels hrules hlevels
    refine List.findSome?_eq_none_iff.2 (fun l hl => ?_)
    obtain ⟨dir, hdir, heq⟩ := exists_of_mem_above (hlevels l hl)
    rw [heq, hrules dir (h dir hdir)]
    rfl
  simp only [decide?]
  rw [hnone (fun dir hdir => rulesAt_eq_nil (hdir _ (by simp [ruleFiles]))) (fun _ hl => hl),
    hnone (fun dir hdir => rulesAt_eq_nil (hdir _ (by simp [ruleFiles]))) (fun _ => mem_of_mem_uptoRepository),
    hnone (fun dir hdir => rulesAt_eq_nil (hdir _ (by simp [ruleFiles]))) (fun _ => mem_of_mem_uptoRepository)]
  split <;> rfl

end IgnoreLevel
end DocExcerpt
