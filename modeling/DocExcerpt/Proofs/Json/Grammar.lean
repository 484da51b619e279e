import DocExcerpt.Json.Value
import DocExcerpt.Toml.Scalar
/-!
# The grammar of JSON

Which texts are JSON, and the value that each of them writes (`Json.IsText`): blanks between tokens are free, a
string may escape any of its characters, and of the numbers only the natural ones are values here.  A text writes one
value at most (`Json.IsText.unique`).
-/
namespace DocExcerpt
namespace Json

open Toml (hexNumber?)

def isSpace (c : Char) : Bool := c == ' ' || c == '\t' || c == '\n' || c == '\r'

def skip (t : Text) : Text := t.dropWhile isSpace

def shortEscape? : Char → Option Char
  | '"' => some '"'
  | '\\' => some '\\'
  | '/' => some '/'
  | 'b' => some (Char.ofNat 0x08)
  | 'f' => some (Char.ofNat 0x0C)
  | 'n' => some '\n'
  | 'r' => some '\r'
  | 't' => some '\t'
  | _ => none

/-- `ReadsString t s rest`: what follows an opening quote is a string with the characters `s`, and then `rest`. -/
inductive ReadsString : Text → Text → Text → Prop
  | close {rest : Text} : ReadsString ('"' :: rest) [] rest
  | plain {c : Char} {t s rest : Text} (quote : c ≠ '"') (backslash : c ≠ '\\') (control : 0x20 ≤ c.toNat)
      (more : ReadsString t s rest) : ReadsString (c :: t) (c :: s) rest
  | short {e c : Char} {t s rest : Text} (escape : shortEscape? e = some c) (more : ReadsString t s rest) :
      ReadsString ('\\' :: e :: t) (c :: s) rest
  | code {a b c d : Char} {n : Nat} {t s rest : Text} (digits : hexNumber? [a, b, c, d] = some n)
      (valid : n.isValidChar) (more : ReadsString t s rest) :
      ReadsString ('\\' :: 'u' :: a :: b :: c :: d :: t) (Char.ofNat n :: s) rest
  /-- A character beyond the four digits is written as two surrogates. -/
  | pair {a b c d a' b' c' d' : Char} {high low : Nat} {t s rest : Text}
      (highDigits : hexNumber? [a, b, c, d] = some high) (highRange : 0xD800 ≤ high ∧ high < 0xDC00)
      (lowDigits : hexNumber? [a', b', c', d'] = some low) (lowRange : 0xDC00 ≤ low ∧ low < 0xE000)
      (more : ReadsString t s rest) :
      ReadsString ('\\' :: 'u' :: a :: b :: c :: d :: '\\' :: 'u' :: a' :: b' :: c' :: d' :: t)
        (Char.ofNat (0x10000 + (high - 0xD800) * 0x400 + (low - 0xDC00)) :: s) rest

mutual

/-- `Reads t v rest`: the text `t` is a value that writes `v`, and then `rest`. -/
inductive Reads : Text → Json → Text → Prop
  | null {rest : Text} : Reads ('n' :: 'u' :: 'l' :: 'l' :: rest) .null rest
  | yes {rest : Text} : Reads ('t' :: 'r' :: 'u' :: 'e' :: rest) (.bool true) rest
  | no {rest : Text} : Reads ('f' :: 'a' :: 'l' :: 's' :: 'e' :: rest) (.bool false) rest
  /-- No digit follows a zero in front, and none is left out. -/
  | number {d : Char} {t : Text} (digit : d.isDigit = true) (leading : d = '0' → t.takeWhile Char.isDigit = []) :
      Reads (d :: t) (.number (Text.ofDigits (d :: t.takeWhile Char.isDigit))) (t.dropWhile Char.isDigit)
  | string {t s rest : Text} (characters : ReadsString t s rest) : Reads ('"' :: t) (.string s) rest
  | emptyArray {t rest : Text} (close : skip t = ']' :: rest) : Reads ('[' :: t) (.array []) rest
  | array {t rest : Text} {vs : List Json} (items : ReadsItems t vs rest) : Reads ('[' :: t) (.array vs) rest
  | emptyObject {t rest : Text} (close : skip t = '\x7d' :: rest) : Reads ('\x7b' :: t) (.object []) rest
  | object {t rest : Text} {ms : List (Text × Json)} (members : ReadsMembers t ms rest) :
      Reads ('\x7b' :: t) (.object ms) rest

inductive ReadsItems : Text → List Json → Text → Prop
  | last {t u rest : Text} {v : Json} (item : Reads (skip t) v u) (close : skip u = ']' :: rest) :
      ReadsItems t [v] rest
  | cons {t u u' rest : Text} {v : Json} {vs : List Json} (item : Reads (skip t) v u) (comma : skip u = ',' :: u')
      (more : ReadsItems u' vs rest) : ReadsItems t (v :: vs) rest

inductive ReadsMember : Text → Text × Json → Text → Prop
  | mk {t t' s u u' rest : Text} {v : Json} (quote : skip t = '"' :: t') (name : ReadsString t' s u)
      (colon : skip u = ':' :: u') (value : Reads (skip u') v rest) : ReadsMember t (s, v) rest

inductive ReadsMembers : Text → List (Text × Json) → Text → Prop
  | last {t u rest : Text} {m : Text × Json} (member : ReadsMember t m u) (close : skip u = '\x7d' :: rest) :
      ReadsMembers t [m] rest
  | cons {t u u' rest : Text} {m : Text × Json} {ms : List (Text × Json)} (member : ReadsMember t m u)
      (comma : skip u = ',' :: u') (more : ReadsMembers u' ms rest) : ReadsMembers t (m :: ms) rest

end

/-- **A JSON text and the value it writes.** -/
def IsText (t : Text) (v : Json) : Prop := ∃ rest, Reads (skip t) v rest ∧ skip rest = []

/-! ## A text writes one value -/

theorem ReadsString.unique {t s s' rest rest' : Text} (h : ReadsString t s rest) (h' : ReadsString t s' rest') :
    s = s' ∧ rest = rest' := by
  induction h generalizing s' rest' with
  | close =>
    cases h' with
    | close => exact ⟨rfl, rfl⟩
    | plain quote => exact absurd rfl quote
  | plain quote backslash control _ ih =>
    cases h' with
    | close => exact absurd rfl quote
    | plain _ _ _ more' =>
      obtain ⟨rfl, rfl⟩ := ih more'
      exact ⟨rfl, rfl⟩
    | short | code | pair => exact absurd rfl backslash
  | short escape _ ih =>
    cases h' with
    | plain _ backslash => exact absurd rfl backslash
    | short escape' more' =>
      obtain ⟨rfl, rfl⟩ := ih more'
      exact ⟨by rw [Option.some.inj (escape.symm.trans escape')], rfl⟩
    | code | pair => cases escape
  | code digits valid _ ih =>
    cases h' with
    | plain _ backslash => exact absurd rfl backslash
    | short escape' => cases escape'
    | code digits' _ more' =>
      obtain ⟨rfl, rfl⟩ := ih more'
      exact ⟨by rw [Option.some.inj (digits.symm.trans digits')], rfl⟩
    | pair digits' range' =>
      -- a surrogate is no character
      have heq := Option.some.inj (digits.symm.trans digits')
      simp only [Nat.isValidChar] at valid
      omega
  | pair highDigits highRange lowDigits _ _ ih =>
    cases h' with
    | plain _ backslash => exact absurd rfl backslash
    | short escape' => cases escape'
    | code digits' valid' =>
      have heq := Option.some.inj (highDigits.symm.trans digits')
      simp only [Nat.isValidChar] at valid'
      omega
    | pair highDigits' _ lowDigits' _ more' =>
      obtain ⟨rfl, rfl⟩ := ih more'
      rw [Option.some.inj (highDigits.symm.trans highDigits'), Option.some.inj (lowDigits.symm.trans lowDigits')]
      exact ⟨rfl, rfl⟩

theorem not_reads_close {u rest : Text} {v : Json} : ¬Reads (']' :: u) v rest := by
  intro h
  cases h with
  | number digit => exact absurd digit (by decide)

theorem ReadsItems.skip_ne {t u rest : Text} {vs : List Json} (h : ReadsItems t vs rest) : skip t ≠ ']' :: u := by
  intro heq
  cases h with
  | last item | cons item => exact not_reads_close (heq ▸ item)

theorem ReadsMembers.skip_ne {t u rest : Text} {ms : List (Text × Json)} (h : ReadsMembers t ms rest) :
    skip t ≠ '\x7d' :: u := by
  intro heq
  cases h with
  | last member | cons member =>
    cases member with
    | mk quote => exact absurd (quote.symm.trans heq) (by simp)

/-! A value is told by its first character, so each rule meets only itself; a digit is none of the others. -/

mutual

theorem Reads.unique {t rest rest' : Text} {v w : Json} (h : Reads t v rest) (h' : Reads t w rest') :
    v = w ∧ rest = rest' := by
  cases h with
  | null | yes | no =>
    cases h' with
    | number digit => exact absurd digit (by decide)
    | _ => exact ⟨rfl, rfl⟩
  | number digit leading =>
    cases h' with
    | number => exact ⟨rfl, rfl⟩
    | _ => exact absurd digit (by decide)
  | string characters =>
    cases h' with
    | number digit => exact absurd digit (by decide)
    | string characters' =>
      obtain ⟨rfl, rfl⟩ := characters.unique characters'
      exact ⟨rfl, rfl⟩
  | emptyArray close =>
    cases h' with
    | number digit => exact absurd digit (by decide)
    | emptyArray close' => exact ⟨rfl, (List.cons.inj (close.symm.trans close')).2⟩
    | array items' => exact absurd close items'.skip_ne
  | array items =>
    cases h' with
    | number digit => exact absurd digit (by decide)
    | emptyArray close' => exact absurd close' items.skip_ne
    | array items' =>
      obtain ⟨rfl, rfl⟩ := ReadsItems.unique items items'
      exact ⟨rfl, rfl⟩
  | emptyObject close =>
    cases h' with
    | number digit => exact absurd digit (by decide)
    | emptyObject close' => exact ⟨rfl, (List.cons.inj (close.symm.trans close')).2⟩
    | object members' => exact absurd close members'.skip_ne
  | object members =>
    cases h' with
    | number digit => exact absurd digit (by decide)
    | emptyObject close' => exact absurd close' members.skip_ne
    | object members' =>
      obtain ⟨rfl, rfl⟩ := ReadsMembers.unique members members'
      exact ⟨rfl, rfl⟩

theorem ReadsItems.unique {t rest rest' : Text} {vs ws : List Json} (h : ReadsItems t vs rest)
    (h' : ReadsItems t ws rest') : vs = ws ∧ rest = rest' := by
  cases h with
  | last item close =>
    cases h' with
    | last item' close' =>
      obtain ⟨rfl, rfl⟩ := Reads.unique item item'
      exact ⟨rfl, (List.cons.inj (close.symm.trans close')).2⟩
    | cons item' comma' =>
      obtain ⟨rfl, rfl⟩ := Reads.unique item item'
      exact absurd (close.symm.trans comma') (by simp)
  | cons item comma more =>
    cases h' with
    | last item' close' =>
      obtain ⟨rfl, rfl⟩ := Reads.unique item item'
      exact absurd (comma.symm.trans close') (by simp)
    | cons item' comma' more' =>
      obtain ⟨rfl, rfl⟩ := Reads.unique item item'
      obtain rfl := (List.cons.inj (comma.symm.trans comma')).2
      obtain ⟨rfl, rfl⟩ := ReadsItems.unique more more'
      exact ⟨rfl, rfl⟩

theorem ReadsMember.unique {t rest rest' : Text} {m m' : Text × Json} (h : ReadsMember t m rest)
    (h' : ReadsMember t m' rest') : m = m' ∧ rest = rest' := by
  cases h with
  | mk quote name colon value =>
    cases h' with
    | mk quote' name' colon' value' =>
      obtain rfl := (List.cons.inj (quote.symm.trans quote')).2
      obtain ⟨rfl, rfl⟩ := name.unique name'
      obtain rfl := (List.cons.inj (colon.symm.trans colon')).2
      obtain ⟨rfl, rfl⟩ := Reads.unique value value'
      exact ⟨rfl, rfl⟩

theorem ReadsMembers.unique {t rest rest' : Text} {ms ms' : List (Text × Json)} (h : ReadsMembers t ms rest)
    (h' : ReadsMembers t ms' rest') : ms = ms' ∧ rest = rest' := by
  cases h with
  | last member close =>
    cases h' with
    | last member' close' =>
      obtain ⟨rfl, rfl⟩ := ReadsMember.unique member member'
      exact ⟨rfl, (List.cons.inj (close.symm.trans close')).2⟩
    | cons member' comma' =>
      obtain ⟨rfl, rfl⟩ := ReadsMember.unique member member'
      exact absurd (close.symm.trans comma') (by simp)
  | cons member comma more =>
    cases h' with
    | last member' close' =>
      obtain ⟨rfl, rfl⟩ := ReadsMember.unique member member'
      exact absurd (comma.symm.trans close') (by simp)
    | cons member' comma' more' =>
      obtain ⟨rfl, rfl⟩ := ReadsMember.unique member member'
      obtain rfl := (List.cons.inj (comma.symm.trans comma')).2
      obtain ⟨rfl, rfl⟩ := ReadsMembers.unique more more'
      exact ⟨rfl, rfl⟩

end

/-- **A text writes one value at most.** -/
theorem IsText.unique {t : Text} {v w : Json} (h : IsText t v) (h' : IsText t w) : v = w := by
  obtain ⟨_, hv, -⟩ := h
  obtain ⟨_, hw, -⟩ := h'
  exact (Reads.unique hv hw).1

end Json
end DocExcerpt
