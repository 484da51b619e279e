import DocExcerpt.Proofs.Path.FileNames
import DocExcerpt.Proofs.Scan.DefaultExample
/-!
# The names of default examples

The default example of a source has the name of the source with the suffix before its extension, or at its end when it
has none (`Scan.siblingName_cases`).  Names are never confused by that (`Scan.siblingName_injective`), whatever dots
there are in them or in the suffix: so each source has an example of its own beside it
(`Scan.defaultPath_names_apart`).
-/
namespace DocExcerpt
namespace Scan

open DocExcerpt.Path (IsName Splits)

variable {suffix name name' stem stem' extension : Text} {source : Path}

/-- **Where the suffix stands.** -/
theorem siblingName_cases (suffix name : Text) :
    (∃ stem extension, Splits name stem (some extension) ∧
        siblingName suffix name = stem ++ '.' :: suffix ++ '.' :: extension) ∨
      Splits name name none ∧ siblingName suffix name = name ++ '.' :: suffix := by
  have hsplits := Path.splits_splitName name
  unfold siblingName
  split
  · next stem extension hsplit =>
    rw [hsplit] at hsplits
    exact Or.inl ⟨stem, extension, hsplits, rfl⟩
  · next stem hsplit =>
    rw [hsplit] at hsplits
    cases hsplits with
    | whole hdots => exact Or.inr ⟨.whole hdots, rfl⟩

theorem length_siblingName (suffix name : Text) :
    (siblingName suffix name).length = name.length + suffix.length + 1 := by
  rcases siblingName_cases suffix name with ⟨stem, extension, hsplits, heq⟩ | ⟨-, heq⟩
  · cases hsplits with
    | extended hname =>
      rw [heq, hname]
      simp only [List.length_append, List.length_cons]
      omega
  · rw [heq]
    simp only [List.length_append, List.length_cons]
    omega

theorem siblingName_ne (suffix name : Text) : siblingName suffix name ≠ name := by
  intro heq
  have hlength := length_siblingName suffix name
  rw [heq] at hlength
  omega

theorem slash_not_mem_siblingName (hsuffix : '/' ∉ suffix) (hname : '/' ∉ name) : '/' ∉ siblingName suffix name := by
  rcases siblingName_cases suffix name with ⟨stem, extension, ⟨rfl, -, -⟩, heq⟩ | ⟨-, heq⟩
  · rw [List.mem_append, List.mem_cons, not_or, not_or] at hname
    simp [heq, hsuffix, hname]
  · simp [heq, hsuffix, hname]

theorem isName_siblingName (hsuffix : '/' ∉ suffix) (hname : IsName name) : IsName (siblingName suffix name) := by
  have hlength := length_siblingName suffix name
  have hpos := List.length_pos_of_ne_nil hname.1
  refine ⟨fun heq => ?_, fun heq => ?_, fun heq => ?_, slash_not_mem_siblingName hsuffix hname.slash_not_mem⟩
  · simp [heq] at hlength
  · rw [heq, List.length_singleton] at hlength
    omega
  · -- only a name of one character leaves room for no more than two, and this is then no dot
    rw [heq, List.length_cons, List.length_singleton] at hlength
    obtain ⟨c, rfl⟩ := List.length_eq_one_iff.1 (by omega : name.length = 1)
    rcases siblingName_cases suffix [c] with ⟨stem, extension, ⟨hcut, hstem, -⟩, -⟩ | ⟨-, hsibling⟩
    · obtain ⟨d, stem, rfl⟩ := List.exists_cons_of_ne_nil hstem
      simp at hcut
    · obtain rfl : '.' = c := (List.cons.inj (heq.symm.trans hsibling)).1
      exact hname.2.1 rfl

/-! ## Names that are never confused -/

/-- **The two forms are apart**: the name of a source with an extension has a dot where one without has none. -/
theorem append_suffix_ne (hdots : ∀ stem rest, name = stem ++ '.' :: rest → stem = []) (hstem : stem ≠ []) :
    name ++ '.' :: suffix ≠ stem ++ '.' :: suffix ++ '.' :: extension := by
  intro heq
  rw [List.append_assoc, List.append_eq_append_iff] at heq
  rcases heq with ⟨rest, -, hrest⟩ | ⟨rest, hname, hrest⟩
  · have hlength := congrArg List.length hrest
    simp only [List.length_append, List.length_cons] at hlength
    omega
  · cases rest with
    | nil =>
      have hlength := congrArg List.length hrest
      simp only [List.length_append, List.length_cons, List.length_nil] at hlength
      omega
    | cons c rest =>
      obtain rfl : '.' = c := (List.cons.inj hrest).1
      exact hstem (hdots stem rest hname)

/-- **Different names have different default examples.** -/
theorem siblingName_injective (suffix : Text) : Function.Injective (siblingName suffix) := by
  intro name name' heq
  rcases siblingName_cases suffix name with ⟨stem, extension, ⟨hcut, hstem, hdot⟩, hname⟩ | ⟨_ | hdots, hname⟩ <;>
    rcases siblingName_cases suffix name' with
      ⟨stem', extension', ⟨hcut', hstem', hdot'⟩, hname'⟩ | ⟨_ | hdots', hname'⟩ <;>
    rw [hname, hname'] at heq
  · have h := (Text.cutLast?_eq_some_iff.2 ⟨rfl, hdot⟩).symm.trans (Text.cutLast?_eq_some_iff.2 ⟨heq, hdot'⟩)
    obtain ⟨hbefore, rfl⟩ := Prod.mk.inj (Option.some.inj h)
    rw [hcut, hcut', List.append_cancel_right hbefore]
  · exact absurd heq.symm (append_suffix_ne hdots' hstem)
  · exact absurd heq (append_suffix_ne hdots hstem')
  · exact List.append_cancel_right heq

/-! ## The paths of default examples -/

theorem fileName?_defaultPath (hsuffix : '/' ∉ suffix) (hname : source.fileName? = some name) :
    (Example.defaultPath suffix source).fileName? = some (siblingName suffix name) := by
  rw [defaultPath_eq_withFileName hname]
  exact Path.fileName?_withFileName source (isName_siblingName hsuffix (Path.isName_of_fileName? hname))

theorem exists_parent?_defaultPath (hsuffix : '/' ∉ suffix) (hname : source.fileName? = some name) :
    ∃ dir, source.parent? = some dir ∧ (Example.defaultPath suffix source).parent? = some dir := by
  rw [defaultPath_eq_withFileName hname]
  exact Path.exists_parent?_withFileName hname (isName_siblingName hsuffix (Path.isName_of_fileName? hname))

/-- **Every source has a default example of its own.**  It lies in the directory of the source under another name, which
has the suffix between the stem and the extension of the source and so keeps the extension; and a source with another
name has an example with another name. -/
theorem defaultPath_names_apart (hsuffix : '/' ∉ suffix) (hname : source.fileName? = some name) :
    let path := Example.defaultPath suffix source
    (∃ dir, source.parent? = some dir ∧ path.parent? = some dir) ∧ path.fileName? ≠ source.fileName? ∧
      ((∃ stem extension, Splits name stem (some extension) ∧ source.stem? = some stem ∧
          source.extension? = some extension ∧ path.fileName? = some (stem ++ '.' :: suffix ++ '.' :: extension) ∧
          ∀ excerpt, Example.language? ⟨path, excerpt⟩ = some extension) ∨
        Splits name name none ∧ source.stem? = some name ∧ source.extension? = none ∧
          path.fileName? = some (name ++ '.' :: suffix)) ∧
      ∀ other name', other.fileName? = some name' → name' ≠ name →
        (Example.defaultPath suffix other).fileName? ≠ path.fileName? := by
  intro path
  have hpath : path.fileName? = some (siblingName suffix name) := fileName?_defaultPath hsuffix hname
  refine ⟨exists_parent?_defaultPath hsuffix hname, ?_, ?_, ?_⟩
  · rw [hpath, hname]
    exact fun heq => siblingName_ne suffix name (Option.some.inj heq)
  · rcases siblingName_cases suffix name with ⟨stem, extension, hsplits, hsibling⟩ | ⟨hsplits, hsibling⟩
    · rw [hsibling] at hpath
      exact Or.inl ⟨stem, extension, hsplits, Path.stem?_of_splits hname hsplits,
        Path.extension?_of_splits hname hsplits, hpath,
        fun _ => Path.extension?_of_splits hpath (hsplits.append_suffix suffix)⟩
    · exact Or.inr ⟨hsplits, Path.stem?_of_splits hname hsplits, Path.extension?_of_splits hname hsplits,
        hsibling ▸ hpath⟩
  · intro other name' hother hne
    rw [fileName?_defaultPath hsuffix hother, hpath]
    exact fun heq => hne (siblingName_injective suffix (Option.some.inj heq))

/-- A name that starts and ends with a dot and has the suffix in it, beside one that differs in the last dot only. -/
theorem defaultPath_names_apart_dotFile :
    let source : Path := ⟨"lib//.a.b./".toList⟩
    let path := Example.defaultPath "b".toList source
    '/' ∉ "b".toList ∧ source.fileName? = some ".a.b.".toList ∧ path.parent? = some ⟨"lib".toList⟩ ∧
      path.fileName? = some ".a.b.b.".toList ∧ (∀ excerpt, Example.language? ⟨path, excerpt⟩ = some []) ∧
      (Example.defaultPath "b".toList ⟨"lib/.a.b".toList⟩).fileName? ≠ path.fileName? := by
  intro source path
  have hsuffix : '/' ∉ "b".toList := by decide
  have hname : source.fileName? = some ".a.b.".toList := by decide
  have hparent : source.parent? = some ⟨"lib".toList⟩ := by decide
  have hstem : source.stem? = some ".a.b".toList := by decide
  have hextension : source.extension? = some [] := by decide
  obtain ⟨⟨dir, hdir, hpath⟩, -, hnamed, hapart⟩ := defaultPath_names_apart hsuffix hname
  refine ⟨hsuffix, hname, ?_, ?_⟩
  · rw [← hparent, hdir]
    exact hpath
  · rcases hnamed with ⟨stem, extension, -, hstem', hextension', hnamed, hlanguage⟩ | ⟨-, -, hnone, -⟩
    · cases hstem.symm.trans hstem'
      cases hextension.symm.trans hextension'
      exact ⟨hnamed, hlanguage, hapart ⟨"lib/.a.b".toList⟩ ".a.b".toList (by decide) (by decide)⟩
    · rw [hextension] at hnone
      cases hnone

end Scan
end DocExcerpt
