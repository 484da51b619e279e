import DocExcerpt.Example
import DocExcerpt.Proofs.Storage.Working
import DocExcerpt.Proofs.Text.Trim
/-!
# Examples of a source

Which example a tag with a value names depends on the directory of the source and not on how its path is written: the
path from the working directory finds what the path from the root finds (`Example.load_join_iff`), unless the path of
the example is too long when it is written from the root.
-/
namespace DocExcerpt

/-! ## The path in a tag -/

theorem TagParts.path_ne_nil_of_parse {value : Text} {parts : TagParts} (hvalue : Text.trim value ≠ [])
    (h : TagParts.parse value = .ok parts) : parts.path ≠ [] := by
  unfold TagParts.parse at h
  dsimp only at h
  split at h
  · split at h
    · cases h
    · cases h
      exact hvalue
  · split at h
    · cases h
    · split at h
      · cases h
      · next hpath =>
        split at h
        · cases h
        · cases h
          simp only [Bool.or_eq_true, List.isEmpty_iff, not_or] at hpath
          exact hpath.1.1

/-- **The default path is for blank values**: any other value names the same file with and without one. -/
theorem Tag.parse_of_ne_nil {value : Text} (hvalue : Text.trim value ≠ []) (default? default?' : Option Path) :
    Tag.parse value default? = Tag.parse value default?' := by
  unfold Tag.parse
  cases hparts : TagParts.parse value with
  | error e => rfl
  | ok parts =>
    have hpath : parts.path.isEmpty = false := List.isEmpty_eq_false_iff.2 (TagParts.path_ne_nil_of_parse hvalue hparts)
    simp only [bind, Except.bind, hpath, Bool.false_eq_true, if_false]

theorem Tag.path_ne_nil_of_parse {value : Text} {default? : Option Path} {tag : Tag} (hvalue : Text.trim value ≠ [])
    (h : Tag.parse value default? = .ok tag) : tag.path.text ≠ [] := by
  unfold Tag.parse at h
  obtain ⟨parts, hparts, h⟩ := bind_eq_ok_iff.1 h
  have hpath := TagParts.path_ne_nil_of_parse hvalue hparts
  split at h
  · split at h
    · cases h
    · cases h
      rwa [if_neg (by simpa using hpath)]
  · obtain ⟨selector, -, h⟩ := bind_eq_ok_iff.1 h
    cases h
    exact hpath

namespace Example

variable {s : Storage} {base : Path} {suffix value : Text} {source? : Option Path} {e : Example}

/-- **What it takes to load an example**: a tag, the first of its places that is a file, its text, and its lines. -/
theorem load_eq_ok_iff :
    load s base suffix source? value = .ok e ↔
      ∃ tag content, Tag.parse value (source?.map (defaultPath suffix)) = .ok tag ∧
        (candidates base source? tag.path).find? s.isFile = some e.path ∧ s.readText e.path = .ok content ∧
          Excerpt.ofContent content tag.selector? = .ok e.excerpt := by
  have hlocate : ∀ path file, locate s base source? path = .ok file ↔
      (candidates base source? path).find? s.isFile = some file := by
    intro path file
    rw [locate]
    cases (candidates base source? path).find? s.isFile <;> simp
  simp only [load, bind_eq_ok_iff, mapError_eq_ok_iff, hlocate]
  constructor
  · rintro ⟨tag, htag, path, hpath, content, hcontent, excerpt, hexcerpt, ⟨⟩⟩
    exact ⟨tag, content, htag, hpath, hcontent, hexcerpt⟩
  · rintro ⟨tag, content, htag, hpath, hcontent, hexcerpt⟩
    exact ⟨tag, htag, e.path, hpath, content, hcontent, e.excerpt, hexcerpt, rfl⟩

theorem isFile_path_of_load (h : load s base suffix source? value = .ok e) : s.isFile e.path = true := by
  obtain ⟨tag, content, -, hfile, -, -⟩ := load_eq_ok_iff.1 h
  exact List.find?_some hfile

theorem language?_join {dir : Path} (hdir : dir.text ≠ []) (h : s.isFile e.path = true) :
    language? ⟨dir.join e.path, e.excerpt⟩ = e.language? := by
  rw [language?, language?, Path.extension?, Path.extension?, Storage.fileName?_join hdir h]

theorem find?_pair {α : Type} {f : α → Bool} {a b c : α} :
    [a, b].find? f = some c ↔ f a = true ∧ a = c ∨ f a = false ∧ f b = true ∧ b = c := by
  by_cases ha : f a = true
  · simp [ha]
  · by_cases hb : f b = true <;> simp [ha, hb]

variable {dirs : List Text} {name : Text} {q : Path}

/-- **The two places of a path in a tag**, for a source that is written with its names from some start. -/
theorem candidates_ofParts {start : Text} (hstart : start = [] ∨ start = ['/'])
    (hdirs : ∀ dir ∈ dirs, Path.IsName dir) (hname : Path.IsName name) :
    candidates base (some (Path.ofParts start (dirs ++ [name]))) q =
      [base.join q, (Path.ofParts start dirs).join q] := by
  rw [candidates, Option.bind_some, Path.parent?_ofParts hstart hdirs hname]
  rfl

/-- From the root a file is found at the place where it is found from the working directory, written from the root. -/
theorem find?_join_working {here p : Path} (hhere : s.resolve here = .ok s.workingDirectory)
    (habsolute : here.isAbsolute = true) (hp : p.text ≠ []) {file : Path} :
    [here.join q, here.join p].find? s.isFile = some file ↔
      ∃ file', [here.join q, p].find? s.isFile = some file' ∧ Storage.checkPath (here.join file') = .ok () ∧
        file = here.join file' := by
  have hjoin : here.join (here.join q) = here.join q := by
    refine Path.join_of_isAbsolute ?_
    rw [Path.isAbsolute_join (Path.text_ne_nil_of_isAbsolute habsolute), habsolute, Bool.true_or]
  constructor
  · intro h
    rcases find?_pair.1 h with ⟨hq, rfl⟩ | ⟨hq, hfile, rfl⟩
    · exact ⟨here.join q, find?_pair.2 (Or.inl ⟨hq, rfl⟩), by rw [hjoin, Storage.checkPath_of_isFile hq], hjoin.symm⟩
    · obtain ⟨hfile, hcheck⟩ := (Storage.isFile_join_working hhere hp).1 hfile
      exact ⟨p, find?_pair.2 (Or.inr ⟨hq, hfile, rfl⟩), hcheck, rfl⟩
  · rintro ⟨file', h, hcheck, rfl⟩
    rcases find?_pair.1 h with ⟨hq, rfl⟩ | ⟨hq, hfile, rfl⟩
    · rw [hjoin]
      exact find?_pair.2 (Or.inl ⟨hq, rfl⟩)
    · exact find?_pair.2 (Or.inr ⟨hq, (Storage.isFile_join_working hhere hp).2 ⟨hfile, hcheck⟩, rfl⟩)

/-- **The same example for a source written from the working directory and from the root.**  What is found from the
working directory is found from the root, at the same place and with the same lines, unless its path is too long when
it is written from the root; and nothing else is found from the root. -/
theorem load_join_iff {here : Path} (hhere : here = Path.ofParts ['/'] s.workingDirectory)
    (hworking : ∀ name ∈ s.workingDirectory, Path.IsName name) (hresolve : s.resolve here = .ok s.workingDirectory)
    (hdirs : ∀ dir ∈ dirs, Path.IsName dir) (hname : Path.IsName name) (hvalue : Text.trim value ≠ []) :
    load s here suffix (some (Path.ofParts ['/'] (s.workingDirectory ++ dirs ++ [name]))) value = .ok e ↔
      ∃ e', load s here suffix (some (Path.ofParts [] (dirs ++ [name]))) value = .ok e' ∧
        Storage.checkPath (here.join e'.path) = .ok () ∧ e = ⟨here.join e'.path, e'.excerpt⟩ := by
  have hall : ∀ dir ∈ s.workingDirectory ++ dirs, Path.IsName dir := by
    intro dir hdir
    exact (List.mem_append.1 hdir).elim (hworking dir) (hdirs dir)
  have hfind : ∀ {q file : Path}, q.text ≠ [] →
      ([here.join q, (Path.ofParts ['/'] (s.workingDirectory ++ dirs)).join q].find? s.isFile = some file ↔
        ∃ file', [here.join q, (Path.ofParts [] dirs).join q].find? s.isFile = some file' ∧
          Storage.checkPath (here.join file') = .ok () ∧ file = here.join file') := by
    intro q file hq
    rw [← Path.join_join_ofParts hworking hdirs, ← hhere]
    exact find?_join_working hresolve (hhere ▸ rfl) (Path.text_join_ne_nil hq)
  simp only [load_eq_ok_iff, candidates_ofParts (Or.inl rfl) hdirs hname, candidates_ofParts (Or.inr rfl) hall hname]
  constructor
  · rintro ⟨tag, content, htag, hfile, hread, hexcerpt⟩
    obtain ⟨file, hfile, hcheck, heq⟩ := (hfind (Tag.path_ne_nil_of_parse hvalue htag)).1 hfile
    have hfilene := Storage.text_ne_nil_of_checkPath (Storage.checkPath_of_isFile (List.find?_some hfile))
    rw [heq, Storage.readText_join_working hresolve hfilene hcheck] at hread
    refine ⟨⟨file, e.excerpt⟩, ⟨tag, content, ?_, hfile, hread, hexcerpt⟩, hcheck, ?_⟩
    · rw [← htag]
      exact Tag.parse_of_ne_nil hvalue _ _
    · rw [← heq]
  · rintro ⟨e', ⟨tag, content, htag, hfile, hread, hexcerpt⟩, hcheck, rfl⟩
    have hfilene := Storage.text_ne_nil_of_checkPath (Storage.checkPath_of_isFile (List.find?_some hfile))
    refine ⟨tag, content, ?_, (hfind (Tag.path_ne_nil_of_parse hvalue htag)).2 ⟨e'.path, hfile, hcheck, rfl⟩,
      (Storage.readText_join_working hresolve hfilene hcheck).2 hread, hexcerpt⟩
    rw [← htag]
    exact Tag.parse_of_ne_nil hvalue _ _

end Example
end DocExcerpt
