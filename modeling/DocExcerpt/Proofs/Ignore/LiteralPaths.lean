import DocExcerpt.Ignore.Skip
import DocExcerpt.Proofs.Fallible
import DocExcerpt.Proofs.Glob.Literal
import DocExcerpt.Proofs.Path.Components
import DocExcerpt.Proofs.Text.Trim
/-!
# Literal paths to skip

A path to skip that is written without special characters (`Skip.IsLiteral`) covers the entries that it runs through:
those that have its names, one after the other, among their own (`Skip.covers_literals_iff`).
-/
namespace DocExcerpt
namespace Skip

open Glob (literalText IsPlain RunsThrough)

/-- **A literal path**: plain names put together with slashes, with any slashes around them, and any blanks around
these. -/
structure IsLiteral (raw : Text) (names : List Text) : Prop where
  ne_nil : names ≠ []
  isName : ∀ name ∈ names, Path.IsName name
  isPlain : ∀ name ∈ names, IsPlain name
  written : ∃ left before after right, raw = left ++ (before ++ Text.join ['/'] names ++ after) ++ right ∧
    Text.IsBlankText left ∧ Text.IsBlankText right ∧ (∀ c ∈ before, c = '/') ∧ (∀ c ∈ after, c = '/') ∧
      Text.trim (before ++ Text.join ['/'] names ++ after) = before ++ Text.join ['/'] names ++ after

variable {raw path : Text} {raws texts : List Text} {names way : List Text} {source : SkipSource} {globs : List Glob}

/-! ## The names of a literal path -/

/-- What is no slash at the ends is left when the slashes around it are taken off. -/
theorem dropWhile_slashes {before t after : Text} (hbefore : ∀ c ∈ before, c = '/') (hafter : ∀ c ∈ after, c = '/')
    (ht : t ≠ []) (hhead : t.head? ≠ some '/') (hlast : t.getLast? ≠ some '/') :
    (((before ++ t ++ after).dropWhile (· == '/')).reverse.dropWhile (· == '/')).reverse = t := by
  have hstart : (t ++ after).dropWhile (· == '/') = t ++ after := by
    obtain ⟨c, cs, rfl⟩ := List.exists_cons_of_ne_nil ht
    rw [List.cons_append, List.dropWhile_cons_of_neg]
    simpa using hhead
  have hend : t.reverse.dropWhile (· == '/') = t.reverse := by
    obtain ⟨cs, c, rfl⟩ := (List.eq_nil_or_concat' t).resolve_left ht
    rw [List.reverse_append, List.reverse_singleton, List.singleton_append, List.dropWhile_cons_of_neg]
    simpa using hlast
  rw [List.append_assoc, List.dropWhile_append_of_pos (by simpa using hbefore), hstart, List.reverse_append,
    List.dropWhile_append_of_pos (by simpa using hafter), hend, List.reverse_reverse]

theorem IsLiteral.join_ne_nil (h : IsLiteral raw names) : Text.join ['/'] names ≠ [] :=
  Text.join_ne_nil '/' h.ne_nil (fun name hname => (h.isName name hname).1)

/-- **A literal path is read as its names.** -/
theorem IsLiteral.bare_eq (h : IsLiteral raw names) : bare raw = Text.join ['/'] names := by
  obtain ⟨left, before, after, right, rfl, hleft, hright, hbefore, hafter, htrim⟩ := h.written
  have hhead : (Text.join ['/'] names).head? ≠ some '/' := by
    obtain ⟨name, names, rfl⟩ := List.exists_cons_of_ne_nil h.ne_nil
    have hname := h.isName name List.mem_cons_self
    rw [Text.head?_join '/' hname.1]
    exact fun heq => hname.slash_not_mem (List.mem_of_head? heq)
  have hlast : (Text.join ['/'] names).getLast? ≠ some '/' := by
    obtain ⟨dirs, name, rfl⟩ := (List.eq_nil_or_concat' names).resolve_left h.ne_nil
    have hname := h.isName name (by simp)
    rw [Text.getLast?_join '/' dirs hname.1]
    exact fun heq => hname.slash_not_mem (List.mem_of_getLast? heq)
  rw [bare, Text.trim_append hleft hright, htrim]
  exact dropWhile_slashes hbefore hafter h.join_ne_nil hhead hlast

theorem IsLiteral.isPlain_join (h : IsLiteral raw names) : IsPlain (Text.join ['/'] names) := by
  intro c hc
  rcases Text.mem_join hc with rfl | ⟨name, hname, hc⟩
  · decide
  · exact h.isPlain name hname c hc

/-- The globs of a literal path are those of the plain text of its names. -/
theorem IsLiteral.mem_globTexts_iff (h : IsLiteral raw names) {t : Text} :
    t ∈ globTexts raw ↔ ∃ before after, t = literalText before after (Text.join ['/'] names) := by
  have hne : (Text.join ['/'] names).isEmpty = false := List.isEmpty_eq_false_iff.2 h.join_ne_nil
  simp only [globTexts, h.bare_eq, hne, Bool.false_eq_true, if_false, List.mem_cons, List.not_mem_nil, or_false,
    literalText, Bool.exists_bool, if_true, List.nil_append, List.append_nil]
  exact or_assoc.symm

/-! ## Globs that were read -/

theorem covers_iff_of_parseGlobs (h : parseGlobs source texts = .ok globs) :
    covers globs path = true ↔ ∃ t ∈ texts, ∃ glob, Glob.parse true t = .ok glob ∧ glob.matches path = true := by
  simp only [covers, List.any_eq_true, mem_iff_of_mapM_eq_ok h, mapError_eq_ok_iff]
  constructor
  · rintro ⟨glob, ⟨t, ht, hparse⟩, hmatches⟩
    exact ⟨t, ht, glob, hparse, hmatches⟩
  · rintro ⟨t, ht, glob, hparse, hmatches⟩
    exact ⟨glob, ⟨t, ht, hparse⟩, hmatches⟩

theorem exists_parseGlobs (source : SkipSource) (h : ∀ t ∈ texts, ∃ glob, Glob.parse true t = .ok glob) :
    ∃ globs, parseGlobs source texts = .ok globs := by
  refine exists_mapM_eq_ok (fun t ht => ?_)
  obtain ⟨glob, hglob⟩ := h t ht
  exact ⟨glob, mapError_eq_ok_iff.2 hglob⟩

/-- The globs of a literal path can be read, and they match what the path runs through. -/
theorem IsLiteral.exists_matches_iff (h : IsLiteral raw names) :
    (∃ t ∈ globTexts raw, ∃ glob, Glob.parse true t = .ok glob ∧ glob.matches path = true) ↔
      RunsThrough (Text.join ['/'] names) path := by
  simp only [← Glob.literal_matches_iff, h.mem_globTexts_iff]
  constructor
  · rintro ⟨_, ⟨before, after, rfl⟩, glob, hparse, hmatches⟩
    rw [Glob.parse_literalText before after h.isPlain_join h.join_ne_nil] at hparse
    exact ⟨before, after, Except.ok.inj hparse ▸ hmatches⟩
  · rintro ⟨before, after, hmatches⟩
    exact ⟨_, ⟨before, after, rfl⟩, _, Glob.parse_literalText before after h.isPlain_join h.join_ne_nil, hmatches⟩

theorem exists_parseGlobs_literals (source : SkipSource) (h : ∀ raw ∈ raws, ∃ names, IsLiteral raw names) :
    ∃ globs, parseGlobs source (raws.flatMap globTexts) = .ok globs := by
  refine exists_parseGlobs source (fun t ht => ?_)
  obtain ⟨raw, hraw, ht⟩ := List.mem_flatMap.1 ht
  obtain ⟨names, hnames⟩ := h raw hraw
  obtain ⟨before, after, rfl⟩ := hnames.mem_globTexts_iff.1 ht
  exact ⟨_, Glob.parse_literalText before after hnames.isPlain_join hnames.join_ne_nil⟩

/-- **Literal paths cover what they run through**: the entries with the names of one of them among their own. -/
theorem covers_literals_iff (h : ∀ raw ∈ raws, ∃ names, IsLiteral raw names)
    (hglobs : parseGlobs source (raws.flatMap globTexts) = .ok globs) (hway : ∀ name ∈ way, '/' ∉ name)
    (hne : way ≠ []) :
    covers globs (Text.join ['/'] way) = true ↔ ∃ raw ∈ raws, ∃ names, IsLiteral raw names ∧ names <:+: way := by
  have hruns : ∀ {raw names}, IsLiteral raw names →
      (RunsThrough (Text.join ['/'] names) (Text.join ['/'] way) ↔ names <:+: way) := by
    intro raw names hnames
    exact Glob.runsThrough_join_iff (fun name hname => (hnames.isName name hname).slash_not_mem) hnames.ne_nil hway hne
  simp only [covers_iff_of_parseGlobs hglobs, List.mem_flatMap]
  constructor
  · rintro ⟨t, ⟨raw, hraw, ht⟩, hglob⟩
    obtain ⟨names, hnames⟩ := h raw hraw
    exact ⟨raw, hraw, names, hnames, (hruns hnames).1 (hnames.exists_matches_iff.1 ⟨t, ht, hglob⟩)⟩
  · rintro ⟨raw, hraw, names, hnames, hmem⟩
    obtain ⟨t, ht, hglob⟩ := hnames.exists_matches_iff.2 ((hruns hnames).2 hmem)
    exact ⟨t, ⟨raw, hraw, ht⟩, hglob⟩

end Skip
end DocExcerpt
