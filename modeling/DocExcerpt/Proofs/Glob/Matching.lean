import DocExcerpt.Glob.Basic
import DocExcerpt.Proofs.Text.Utf8
/-!
# What globs match

Atoms one after the other take the bytes of a path one part after the other (`Glob.Atom.matchAll_append_iff`), and so
do tokens (`Glob.matchesTokens_cons_iff`): characters their bytes, and the tokens for directories what lies before or
after a slash.
-/
namespace DocExcerpt
namespace Glob

open Utf8 (encode slash)

variable {k : ByteClass} {atoms atoms' : List Atom} {path bytes rest : List UInt8} {tokens : List Token}

/-! ## Atoms -/

theorem ByteClass.contains_just_iff {b b' : UInt8} : (ByteClass.just b).contains b' = true ↔ b' = b := by
  simp [ByteClass.contains, ByteClass.just, UInt8.le_antisymm_iff, and_comm]

theorem ByteClass.contains_all (b : UInt8) : ByteClass.all.contains b = true := rfl

/-- What may be left of some bytes is what follows bytes of the class. -/
theorem ByteClass.mem_rests_iff :
    rest ∈ k.rests path ↔ ∃ front, path = front ++ rest ∧ ∀ b ∈ front, k.contains b = true := by
  induction path with
  | nil =>
    rw [rests, List.mem_singleton]
    constructor
    · rintro rfl
      exact ⟨[], rfl, fun _ hb => absurd hb List.not_mem_nil⟩
    · rintro ⟨front, heq, -⟩
      exact (List.append_eq_nil_iff.1 heq.symm).2
  | cons b path ih =>
    rw [rests, List.mem_cons]
    constructor
    · rintro (rfl | h)
      · exact ⟨[], rfl, fun _ hb => absurd hb List.not_mem_nil⟩
      · split at h
        · next hb =>
          obtain ⟨front, rfl, hfront⟩ := ih.1 h
          exact ⟨b :: front, rfl, List.forall_mem_cons.2 ⟨hb, hfront⟩⟩
        · cases h
    · rintro ⟨front, heq, hfront⟩
      cases front with
      | nil => exact Or.inl heq.symm
      | cons b' front =>
        obtain ⟨rfl, rfl⟩ := List.cons.inj heq
        obtain ⟨hb, hfront⟩ := List.forall_mem_cons.1 hfront
        rw [if_pos hb]
        exact Or.inr (ih.2 ⟨front, rfl, hfront⟩)

namespace Atom

theorem matchAll_nil_iff : matchAll [] path = true ↔ path = [] := by
  rw [matchAll, List.isEmpty_iff]

theorem matchAll_one_iff :
    matchAll (.one k :: atoms) path = true ↔
      ∃ b rest, path = b :: rest ∧ k.contains b = true ∧ matchAll atoms rest = true := by
  cases path with
  | nil => simp [matchAll]
  | cons b path =>
    rw [matchAll, Bool.and_eq_true]
    constructor
    · exact fun h => ⟨b, path, rfl, h⟩
    · rintro ⟨b', rest, heq, h⟩
      obtain ⟨rfl, rfl⟩ := List.cons.inj heq
      exact h

theorem matchAll_many_iff :
    matchAll (.many k :: atoms) path = true ↔
      ∃ front rest, path = front ++ rest ∧ (∀ b ∈ front, k.contains b = true) ∧ matchAll atoms rest = true := by
  rw [matchAll, List.any_eq_true]
  constructor
  · rintro ⟨rest, hrest, h⟩
    obtain ⟨front, hpath, hfront⟩ := ByteClass.mem_rests_iff.1 hrest
    exact ⟨front, rest, hpath, hfront, h⟩
  · rintro ⟨front, rest, hpath, hfront, h⟩
    exact ⟨rest, ByteClass.mem_rests_iff.2 ⟨front, hpath, hfront⟩, h⟩

/-- **Atoms one after the other** take a path in two parts. -/
theorem matchAll_append_iff :
    matchAll (atoms ++ atoms') path = true ↔
      ∃ front rest, path = front ++ rest ∧ matchAll atoms front = true ∧ matchAll atoms' rest = true := by
  induction atoms generalizing path with
  | nil =>
    constructor
    · exact fun h => ⟨[], path, rfl, matchAll_nil_iff.2 rfl, h⟩
    · rintro ⟨front, rest, rfl, hfront, h⟩
      rwa [matchAll_nil_iff.1 hfront]
  | cons atom atoms ih =>
    cases atom with
    | one k =>
      simp only [List.cons_append, matchAll_one_iff, ih]
      constructor
      · rintro ⟨b, _, rfl, hb, front, rest, rfl, h, h'⟩
        exact ⟨b :: front, rest, rfl, ⟨b, front, rfl, hb, h⟩, h'⟩
      · rintro ⟨_, rest, rfl, ⟨b, front, rfl, hb, h⟩, h'⟩
        exact ⟨b, front ++ rest, rfl, hb, front, rest, rfl, h, h'⟩
    | many k =>
      simp only [List.cons_append, matchAll_many_iff, ih]
      constructor
      · rintro ⟨row, _, rfl, hrow, front, rest, rfl, h, h'⟩
        exact ⟨row ++ front, rest, (List.append_assoc ..).symm, ⟨row, front, rfl, hrow, h⟩, h'⟩
      · rintro ⟨_, rest, rfl, ⟨row, front, rfl, hrow, h⟩, h'⟩
        exact ⟨row, front ++ rest, List.append_assoc .., hrow, front, rest, rfl, h, h'⟩

theorem matchAll_just_iff : matchAll (bytes.map (fun b => .one (.just b))) path = true ↔ path = bytes := by
  induction bytes generalizing path with
  | nil => exact matchAll_nil_iff
  | cons b bytes ih =>
    simp only [List.map_cons, matchAll_one_iff, ByteClass.contains_just_iff, ih]
    constructor
    · rintro ⟨_, _, rfl, rfl, rfl⟩
      rfl
    · rintro rfl
      exact ⟨b, bytes, rfl, rfl, rfl⟩

end Atom

/-! ## Tokens -/

/-- Whether a token that crosses slashes takes exactly the given bytes. -/
def Token.Takes (t : Token) (bytes : List UInt8) : Prop :=
  ∃ atoms ∈ t.alternatives true, Atom.matchAll atoms bytes = true

/-- Whether tokens that cross slashes take exactly the given bytes. -/
def MatchesTokens (tokens : List Token) (path : List UInt8) : Prop :=
  ∃ atoms ∈ Token.spellOut true tokens, Atom.matchAll atoms path = true

theorem matchesTokens_nil_iff : MatchesTokens [] path ↔ path = [] := by
  simp [MatchesTokens, Token.spellOut, Atom.matchAll_nil_iff]

/-- **Tokens one after the other** take a path part by part. -/
theorem matchesTokens_cons_iff {t : Token} :
    MatchesTokens (t :: tokens) path ↔
      ∃ front rest, path = front ++ rest ∧ t.Takes front ∧ MatchesTokens tokens rest := by
  have hspell : Token.spellOut true (t :: tokens) =
      (t.alternatives true).flatMap (fun atoms => (Token.spellOut true tokens).map (atoms ++ ·)) := rfl
  simp only [MatchesTokens, Token.Takes, hspell, List.mem_flatMap, List.mem_map]
  constructor
  · rintro ⟨_, ⟨atoms, hatoms, atoms', hatoms', rfl⟩, h⟩
    obtain ⟨front, rest, hpath, hfront, hrest⟩ := Atom.matchAll_append_iff.1 h
    exact ⟨front, rest, hpath, ⟨atoms, hatoms, hfront⟩, atoms', hatoms', hrest⟩
  · rintro ⟨front, rest, hpath, ⟨atoms, hatoms, hfront⟩, atoms', hatoms', hrest⟩
    exact ⟨_, ⟨atoms, hatoms, atoms', hatoms', rfl⟩, Atom.matchAll_append_iff.2 ⟨front, rest, hpath, hfront, hrest⟩⟩

theorem Token.takes_char_iff {c : Char} : (char c).Takes bytes ↔ bytes = String.utf8EncodeChar c := by
  simp [Takes, alternatives, Atom.matchAll_just_iff]

theorem Token.takes_dirsBefore_iff : dirsBefore.Takes bytes ↔ bytes = [] ∨ ∃ dirs, bytes = dirs ++ [slash] := by
  have hslash : ∀ rest, Atom.matchAll ([slash].map (fun b => .one (.just b))) rest = true ↔ rest = [slash] :=
    fun _ => Atom.matchAll_just_iff
  simp only [List.map_cons, List.map_nil] at hslash
  change ∀ rest, Atom.matchAll [.one .slash] rest = true ↔ _ at hslash
  simp [Takes, alternatives, Atom.matchAll_nil_iff, Atom.matchAll_many_iff, ByteClass.contains_all, hslash]

theorem Token.takes_dirsAfter_iff : dirsAfter.Takes bytes ↔ ∃ inside, bytes = slash :: inside := by
  simp [Takes, alternatives, Atom.matchAll_nil_iff, Atom.matchAll_one_iff, Atom.matchAll_many_iff,
    ByteClass.contains_all, ByteClass.slash, ByteClass.contains_just_iff, slash]

/-- **Characters take their bytes.** -/
theorem matchesTokens_chars_iff (t : Text) :
    MatchesTokens (t.map .char ++ tokens) path ↔ ∃ rest, path = encode t ++ rest ∧ MatchesTokens tokens rest := by
  induction t generalizing path with
  | nil => simp [encode]
  | cons c t ih =>
    have hencode : encode (c :: t) = String.utf8EncodeChar c ++ encode t := rfl
    simp only [List.map_cons, List.cons_append, matchesTokens_cons_iff, Token.takes_char_iff, ih, hencode]
    constructor
    · rintro ⟨_, _, rfl, rfl, rest, rfl, h⟩
      exact ⟨rest, (List.append_assoc ..).symm, h⟩
    · rintro ⟨rest, rfl, h⟩
      exact ⟨_, _, List.append_assoc .., rfl, rest, rfl, h⟩

end Glob

theorem Glob.matches_iff {tokens : List Glob.Token} {path : Text} :
    Glob.matches ⟨Glob.Token.spellOut true tokens⟩ path = true ↔ Glob.MatchesTokens tokens (Utf8.encode path) := by
  rw [Glob.matches, List.any_eq_true, Glob.MatchesTokens]

end DocExcerpt
