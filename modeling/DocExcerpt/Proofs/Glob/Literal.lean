import DocExcerpt.Glob.Parser
import DocExcerpt.Proofs.Glob.Matching
import DocExcerpt.Proofs.Text.Pieces
/-!
# Globs of plain text

A text without special characters is read as itself, and so are two stars before or after it as any directories
(`Glob.parse_literalText`).  The four globs that a path to skip is made into match just the paths it lies in
(`Glob.literal_matches_iff`).
-/
namespace DocExcerpt
namespace Glob

open Utf8 (encode slash)

/-- The characters that a glob does not read as themselves. -/
def specialChars : List Char := ['?', '*', '[', '\x7b', '\x7d', '\\']

def IsPlain (t : Text) : Prop := ∀ c ∈ t, c ∉ specialChars

instance : DecidablePred IsPlain := fun t => List.decidableBAll (· ∉ specialChars) t

variable {previous? : Option Char} {tokens : List Token} {t rest : Text}

/-- The text of a glob for a plain text, with any directories before it or after it. -/
def literalText (before after : Bool) (t : Text) : Text :=
  (if before then "**/".toList else []) ++ t ++ (if after then "/**".toList else [])

def literalTokens (before after : Bool) (t : Text) : List Token :=
  (if before then [.dirsBefore] else []) ++ t.map .char ++ (if after then [.dirsAfter] else [])

/-! ## Reading -/

/-- **Plain characters are read as themselves.** -/
theorem parseFrom_plain (h : IsPlain t) :
    parseFrom true ⟨previous?, 0, none, tokens, []⟩ (t ++ rest) =
      parseFrom true ⟨t.getLast?.or previous?, 0, none, (t.map .char).reverse ++ tokens, []⟩ rest := by
  induction t generalizing previous? tokens with
  | nil => rfl
  | cons c t ih =>
    obtain ⟨hc, ht⟩ := List.forall_mem_cons.1 h
    have hread : ReadState.read true ⟨previous?, 0, none, tokens, []⟩ c (t ++ rest) =
        .ok ⟨some c, 0, none, .char c :: tokens, []⟩ := by
      simp only [specialChars, List.mem_cons, List.not_mem_nil, or_false, not_or] at hc
      obtain ⟨hany, hstar, hclass, hopen, hclose, hescape⟩ := hc
      simp only [ReadState.read, ReadState.readPlain, hany, hstar, hclass, hopen, hclose, hescape, if_false]
      split
      · next hcomma => rw [hcomma]; rfl
      · rfl
    have hlast : t.getLast?.or (some c) = (c :: t).getLast?.or previous? := by
      rw [List.getLast?_cons]
      cases t.getLast? <;> rfl
    have htokens : (t.map Token.char).reverse ++ .char c :: tokens = ((c :: t).map Token.char).reverse ++ tokens := by
      rw [List.map_cons, List.reverse_cons, List.append_assoc, List.singleton_append]
    rw [List.cons_append, parseFrom, hread, ← hlast, ← htokens]
    exact ih ht

/-- Two stars and a slash at the start are read as any directories. -/
theorem parseFrom_before (rest : Text) :
    parseFrom true ReadState.start ("**/".toList ++ rest) =
      parseFrom true ⟨some '/', 0, none, [.dirsBefore], []⟩ rest := rfl

/-- A slash and two stars at the end are read as everything inside. -/
theorem parseFrom_after (previous? : Option Char) (t : Token) (tokens : List Token) :
    parseFrom true ⟨previous?, 0, none, t :: tokens, []⟩ "/**".toList = .ok ((t :: tokens).reverse ++ [.dirsAfter]) :=
  congrArg Except.ok List.reverse_cons

theorem parseFrom_nil (previous? : Option Char) (tokens : List Token) :
    parseFrom true ⟨previous?, 0, none, tokens, []⟩ [] = .ok tokens.reverse := rfl

theorem parseFrom_literalText (before after : Bool) (h : IsPlain t) (ht : t ≠ []) :
    parseFrom true ReadState.start (literalText before after t) = .ok (literalTokens before after t) := by
  have hstart : ∃ previous?, parseFrom true ReadState.start (literalText before after t) =
      parseFrom true ⟨previous?, 0, none, if before then [.dirsBefore] else [], []⟩
        (t ++ if after then "/**".toList else []) := by
    rw [literalText, List.append_assoc]
    cases before with
    | true => exact ⟨_, parseFrom_before _⟩
    | false => exact ⟨none, rfl⟩
  obtain ⟨previous?, hstart⟩ := hstart
  rw [hstart, parseFrom_plain h, literalTokens]
  cases after with
  | false =>
    rw [if_neg Bool.false_ne_true, if_neg Bool.false_ne_true, parseFrom_nil, List.reverse_append, List.reverse_reverse,
      List.append_nil]
    cases before <;> rfl
  | true =>
    have hchars : (t.map Token.char).reverse ++ (if before then [.dirsBefore] else []) ≠ [] := by simp [ht]
    obtain ⟨last, tokens, htokens⟩ := List.exists_cons_of_ne_nil hchars
    rw [if_pos rfl, if_pos rfl, htokens, parseFrom_after, ← htokens, List.reverse_append, List.reverse_reverse]
    cases before <;> rfl

/-- **Plain text is read as itself**, with the directories before and after it. -/
theorem parse_literalText (before after : Bool) (h : IsPlain t) (ht : t ≠ []) :
    parse true (literalText before after t) = .ok ⟨Token.spellOut true (literalTokens before after t)⟩ := by
  have hne : literalTokens before after t ≠ [.dirsBefore] := by
    obtain ⟨c, cs, rfl⟩ := List.exists_cons_of_ne_nil ht
    have hmem : Token.char c ∈ literalTokens before after (c :: cs) := by simp [literalTokens]
    intro heq
    rw [heq] at hmem
    cases List.mem_singleton.1 hmem
  rw [parse, parseFrom_literalText before after h ht]
  exact congrArg (fun alternatives => Except.ok (Glob.mk alternatives)) (if_neg hne)

/-! ## Matching -/

/-- A text with nothing or something inside it, as the end of a path. -/
theorem matchesTokens_after_iff (after : Bool) {tail : Text} :
    MatchesTokens (t.map .char ++ if after then [.dirsAfter] else []) (encode tail) ↔
      if after then ∃ inside, tail = t ++ '/' :: inside else tail = t := by
  rw [matchesTokens_chars_iff]
  cases after with
  | false =>
    simp only [if_neg Bool.false_ne_true, matchesTokens_nil_iff, exists_eq_right, List.append_nil]
    exact ⟨Utf8.encode_injective, congrArg encode⟩
  | true =>
    simp only [if_true, matchesTokens_cons_iff, matchesTokens_nil_iff, Token.takes_dirsAfter_iff]
    constructor
    · rintro ⟨_, hpath, _, _, rfl, ⟨inside, rfl⟩, rfl⟩
      rw [List.append_nil] at hpath
      obtain ⟨front, rest, rfl, hfront, -⟩ := Utf8.encode_eq_append_slash_iff.1 hpath
      exact ⟨rest, by rw [Utf8.encode_injective hfront]⟩
    · rintro ⟨inside, rfl⟩
      exact ⟨_, Utf8.encode_append _ _, _, [], (List.append_nil _).symm, ⟨encode inside, rfl⟩, rfl⟩

/-- What is matched behind any directories is matched at the start or behind a slash. -/
theorem matchesTokens_before_iff {path : Text} :
    MatchesTokens (.dirsBefore :: tokens) (encode path) ↔
      ∃ tail, (path = tail ∨ ∃ dirs, path = dirs ++ '/' :: tail) ∧ MatchesTokens tokens (encode tail) := by
  simp only [matchesTokens_cons_iff, Token.takes_dirsBefore_iff]
  constructor
  · rintro ⟨_, rest, hpath, rfl | ⟨dirs, rfl⟩, h⟩
    · exact ⟨path, Or.inl rfl, hpath ▸ h⟩
    · rw [List.append_assoc, List.singleton_append] at hpath
      obtain ⟨front, tail, rfl, -, rfl⟩ := Utf8.encode_eq_append_slash_iff.1 hpath
      exact ⟨tail, Or.inr ⟨front, rfl⟩, h⟩
  · rintro ⟨tail, rfl | ⟨dirs, rfl⟩, h⟩
    · exact ⟨[], _, rfl, Or.inl rfl, h⟩
    · refine ⟨encode dirs ++ [slash], encode tail, ?_, Or.inr ⟨_, rfl⟩, h⟩
      rw [Utf8.encode_append, Utf8.encode_slash_cons, List.append_assoc, List.singleton_append]

/-- **A text that a path runs through**, between slashes or the ends of the path. -/
def RunsThrough (t path : Text) : Prop :=
  ∃ tail, (path = tail ∨ ∃ dirs, path = dirs ++ '/' :: tail) ∧ (tail = t ∨ ∃ inside, tail = t ++ '/' :: inside)

/-- **The four globs of a plain text** match the paths that run through it. -/
theorem literal_matches_iff {path : Text} :
    (∃ before after, Glob.matches ⟨Token.spellOut true (literalTokens before after t)⟩ path = true) ↔
      RunsThrough t path := by
  have hafter : ∀ tail,
      (∃ after : Bool, MatchesTokens (t.map .char ++ if after then [.dirsAfter] else []) (encode tail)) ↔
        (tail = t ∨ ∃ inside, tail = t ++ '/' :: inside) := by
    intro tail
    simp only [matchesTokens_after_iff, Bool.exists_bool, if_neg Bool.false_ne_true, if_true]
  simp only [Glob.matches_iff, literalTokens, List.append_assoc]
  constructor
  · rintro ⟨before, after, h⟩
    cases before with
    | false => exact ⟨path, Or.inl rfl, (hafter path).1 ⟨after, h⟩⟩
    | true =>
      obtain ⟨tail, hpath, h⟩ := matchesTokens_before_iff.1 h
      exact ⟨tail, hpath, (hafter tail).1 ⟨after, h⟩⟩
  · rintro ⟨tail, hpath, htail⟩
    obtain ⟨after, h⟩ := (hafter tail).2 htail
    exact ⟨true, after, matchesTokens_before_iff.2 ⟨tail, hpath, h⟩⟩

/-- **A path runs through names put together** exactly when its own names do. -/
theorem runsThrough_join_iff {names way : List Text} (hnames : ∀ name ∈ names, '/' ∉ name) (hne : names ≠ [])
    (hway : ∀ name ∈ way, '/' ∉ name) (hwayne : way ≠ []) :
    RunsThrough (Text.join ['/'] names) (Text.join ['/'] way) ↔ names <:+: way := by
  have hpieces : ∀ {ts : List Text}, (∀ name ∈ ts, '/' ∉ name) → ts ≠ [] →
      Text.pieces '/' (Text.join ['/'] ts) = ts := by
    intro ts hts htsne
    obtain ⟨u, us, rfl⟩ := List.exists_cons_of_ne_nil htsne
    exact Text.pieces_join hts
  constructor
  · rintro ⟨tail, hpath, htail⟩
    have hafter : ∃ after, Text.pieces '/' tail = names ++ after := by
      rcases htail with rfl | ⟨inside, rfl⟩
      · exact ⟨[], by rw [hpieces hnames hne, List.append_nil]⟩
      · exact ⟨_, by rw [Text.pieces_append, hpieces hnames hne]⟩
    obtain ⟨after, hafter⟩ := hafter
    rw [← hpieces hway hwayne]
    rcases hpath with hpath | ⟨dirs, hpath⟩
    · exact ⟨[], after, by rw [hpath, hafter, List.nil_append]⟩
    · exact ⟨Text.pieces '/' dirs, after, by rw [hpath, Text.pieces_append, hafter, List.append_assoc]⟩
  · rintro ⟨before, after, rfl⟩
    have htail : Text.join ['/'] (names ++ after) = Text.join ['/'] names ∨
        ∃ inside, Text.join ['/'] (names ++ after) = Text.join ['/'] names ++ '/' :: inside := by
      by_cases hafter : after = []
      · exact Or.inl (by rw [hafter, List.append_nil])
      · exact Or.inr ⟨_, Text.join_append '/' hne hafter⟩
    refine ⟨Text.join ['/'] (names ++ after), ?_, htail⟩
    rw [List.append_assoc]
    by_cases hbefore : before = []
    · exact Or.inl (by rw [hbefore, List.nil_append])
    · exact Or.inr ⟨_, Text.join_append '/' hbefore (List.append_ne_nil_of_left_ne_nil hne after)⟩

end Glob
end DocExcerpt
