import DocExcerpt.Toml.Value
import DocExcerpt.Text.Digit
/-!
# TOML scalars

Strings in their four forms, and the words that stand for numbers, truth values, dates and times.
-/
namespace DocExcerpt
namespace Toml

def apostrophe : Char := Char.ofNat 0x27

def isSpace (c : Char) : Bool := c == ' ' || c == '\t'

def skipSpace (t : Text) : Text := t.dropWhile isSpace

def afterNewline? : Text → Option Text
  | '\n' :: rest => some rest
  | '\r' :: '\n' :: rest => some rest
  | _ => none

def isPlain (c : Char) : Bool := c == '\t' || (0x20 ≤ c.toNat && c.toNat ≠ 0x7F)

def isCommentChar (c : Char) : Bool := c == '\t' || 0x20 ≤ c.toNat

def simpleEscape? : Char → Option Char
  | 'b' => some (Char.ofNat 0x08)
  | 't' => some '\t'
  | 'n' => some '\n'
  | 'f' => some (Char.ofNat 0x0C)
  | 'r' => some '\r'
  | '"' => some '"'
  | '\\' => some '\\'
  | _ => none

def hexValue? (c : Char) : Option Nat :=
  if '0' ≤ c ∧ c ≤ '9' then some (c.toNat - 0x30)
  else if 'a' ≤ c ∧ c ≤ 'f' then some (c.toNat - 0x61 + 10)
  else if 'A' ≤ c ∧ c ≤ 'F' then some (c.toNat - 0x41 + 10)
  else none

def hexNumber? (digits : Text) : Option Nat :=
  digits.foldl (fun n? c => do return (← n?) * 16 + (← hexValue? c)) (some 0)

def codeEscape? (digits : Text) : Option Char := do
  let n ← hexNumber? digits
  if n.isValidChar then some (Char.ofNat n) else none

def escape? : Text → Option (Char × Text)
  | 'u' :: a :: b :: c :: d :: rest => (codeEscape? [a, b, c, d]).map (·, rest)
  | 'U' :: a :: b :: c :: d :: e :: f :: g :: h :: rest => (codeEscape? [a, b, c, d, e, f, g, h]).map (·, rest)
  | c :: rest => (simpleEscape? c).map (·, rest)
  | [] => none

theorem length_escape?_lt {t rest : Text} {c : Char} (h : escape? t = some (c, rest)) :
    rest.length < t.length := by
  unfold escape? at h
  split at h
  · obtain ⟨_, _, hr⟩ := Option.map_eq_some_iff.1 h
    cases hr; simp only [List.length_cons]; omega
  · obtain ⟨_, _, hr⟩ := Option.map_eq_some_iff.1 h
    cases hr; simp only [List.length_cons]; omega
  · obtain ⟨_, _, hr⟩ := Option.map_eq_some_iff.1 h
    cases hr; simp only [List.length_cons]; omega
  · cases h

/-- Reads a string between double quotes on one line, after its opening quote.  The first `taken` characters
belong to an escape that is read already. -/
def basicStringFrom? : Nat → Text → Text → Option (Text × Text)
  | _, _, [] => none
  | taken + 1, read, _ :: rest => basicStringFrom? taken read rest
  | 0, read, c :: rest =>
    if c = '"' then some (read.reverse, rest)
    else if c = '\\' then
      match escape? rest with
      | some (e, after) => basicStringFrom? (rest.length - after.length) (e :: read) rest
      | none => none
    else if isPlain c then basicStringFrom? 0 (c :: read) rest
    else none

def basicString? (t : Text) : Option (Text × Text) := basicStringFrom? 0 [] t

/-- Reads a string between apostrophes on one line, after its opening apostrophe. -/
def literalString? (read : Text) : Text → Option (Text × Text)
  | [] => none
  | c :: rest =>
    if c = apostrophe then some (read.reverse, rest)
    else if isPlain c then literalString? (c :: read) rest
    else none

/-- The quotes at the end of a string of several lines: how many belong to it, when `count` quotes in a row
are found. -/
def closingQuotes? (count : Nat) : Option Nat := if count < 3 then none else some (min (count - 3) 2)

/-- Skips the line ends and blanks after a backslash at the end of a line. -/
def skipBreaks (t : Text) : Text := t.dropWhile (fun c => isSpace c || c == '\n' || c == '\r')

/-- Whether every carriage return at the start of `t`, up to the first character that is no break, stands
before a line feed. -/
def breaksAreWhole : Text → Bool
  | '\r' :: '\n' :: rest => breaksAreWhole rest
  | '\r' :: _ => false
  | c :: rest => if isSpace c || c == '\n' then breaksAreWhole rest else true
  | [] => true

/-- Reads a string of several lines after its opening quotes.  `quote` tells which kind it is, and only between
double quotes a backslash escapes. -/
def linesString? (quote : Char) (read : Text) (t : Text) : Option (Text × Text) :=
  match t with
  | [] => none
  | '\r' :: '\n' :: rest => linesString? quote ('\n' :: read) rest
  | '\n' :: rest => linesString? quote ('\n' :: read) rest
  | c :: rest =>
    if c = quote then
      let more := rest.takeWhile (· == quote)
      match closingQuotes? (more.length + 1) with
      | some inside => some (read.reverse ++ List.replicate inside quote, (c :: rest).drop (inside + 3))
      | none => linesString? quote (more ++ quote :: read) (rest.drop more.length)
    else if c = '\\' ∧ quote = '"' then
      if (afterNewline? (skipSpace rest)).isSome then
        if breaksAreWhole rest then linesString? quote read (skipBreaks rest) else none
      else
        match _h : escape? rest with
        | some (e, rest) => linesString? quote (e :: read) rest
        | none => none
    else if isPlain c then linesString? quote (c :: read) rest
    else none
termination_by t.length
decreasing_by
  all_goals simp only [List.length_cons]
  · omega
  · omega
  · simp only [List.length_drop]; omega
  · have := (List.dropWhile_sublist (l := rest) (fun c => isSpace c || c == '\n' || c == '\r')).length_le
    simp only [skipBreaks]; omega
  · have := length_escape?_lt _h; omega
  · omega

def withoutFirstBreak (t : Text) : Text := (afterNewline? t).getD t

def string? : Text → Option (Text × Text)
  | '"' :: '"' :: '"' :: rest => linesString? '"' [] (withoutFirstBreak rest)
  | '"' :: rest => basicString? rest
  | c :: rest =>
    if c = apostrophe then
      match rest with
      | a :: b :: inner =>
        if a = apostrophe ∧ b = apostrophe then linesString? apostrophe [] (withoutFirstBreak inner)
        else literalString? [] rest
      | _ => literalString? [] rest
    else none
  | [] => none

def isWordChar (c : Char) : Bool := c.isAlphanum || c == '_' || c == '+' || c == '-' || c == ':' || c == '.'

/-- Digits, of which two may have an underscore between them; gives the digits without it. -/
def digitGroup? (isDigit : Char → Bool) (t : Text) : Option Text :=
  let groups := Text.pieces '_' t
  if groups.all (fun g => !g.isEmpty && g.all isDigit) then some groups.flatten else none

/-- A decimal integer without sign: no zero in front of other digits. -/
def unsigned? (t : Text) : Option Nat := do
  let digits ← digitGroup? Char.isDigit t
  match digits with
  | '0' :: _ :: _ => none
  | _ => some (Text.ofDigits digits)

def isExponent : Text → Bool
  | '+' :: t => (digitGroup? Char.isDigit t).isSome
  | '-' :: t => (digitGroup? Char.isDigit t).isSome
  | t => (digitGroup? Char.isDigit t).isSome

def cutExponent? (t : Text) : Option (Text × Text) := Text.cutFirst? 'e' t <|> Text.cutFirst? 'E' t

def isFloat (t : Text) : Bool :=
  if t == "inf".toList || t == "nan".toList then true
  else
    let (mantissa, exponentGood, hasExponent) := match cutExponent? t with
      | some (m, e) => (m, isExponent e, true)
      | none => (t, true, false)
    exponentGood && match Text.cutFirst? '.' mantissa with
      | some (whole, fraction) => (unsigned? whole).isSome && (digitGroup? Char.isDigit fraction).isSome
      | none => hasExponent && (unsigned? mantissa).isSome

/-- The value of digits in a base of at most sixteen. -/
def based? (base : Nat) (t : Text) : Option Nat := do
  let digits ← digitGroup? (fun c => match hexValue? c with
    | some v => decide (v < base)
    | none => false) t
  return digits.foldl (fun n c => n * base + (hexValue? c).getD 0) 0

/-- An integer word.  It has to fit a signed 64-bit word. -/
def integer? (t : Text) : Option Int := do
  let n : Int ← match t with
    | '0' :: 'x' :: digits => (based? 16 digits).map Int.ofNat
    | '0' :: 'o' :: digits => (based? 8 digits).map Int.ofNat
    | '0' :: 'b' :: digits => (based? 2 digits).map Int.ofNat
    | '+' :: digits => (unsigned? digits).map Int.ofNat
    | '-' :: digits => (unsigned? digits).map (fun n => -Int.ofNat n)
    | digits => (unsigned? digits).map Int.ofNat
  if -0x8000000000000000 ≤ n ∧ n < 0x8000000000000000 then some n else none

def fixedNumber? (width : Nat) (t : Text) : Option Nat :=
  if t.length = width ∧ t.all Char.isDigit then some (Text.ofDigits t) else none

def daysIn (year month : Nat) : Nat :=
  if month = 2 then
    if year % 4 = 0 ∧ (year % 100 ≠ 0 ∨ year % 400 = 0) then 29 else 28
  else if month = 4 ∨ month = 6 ∨ month = 9 ∨ month = 11 then 30
  else 31

def isDate (t : Text) : Bool :=
  match Text.pieces '-' t with
  | [y, m, d] =>
    match fixedNumber? 4 y, fixedNumber? 2 m, fixedNumber? 2 d with
    | some year, some month, some day =>
      decide (1 ≤ month ∧ month ≤ 12 ∧ 1 ≤ day ∧ day ≤ daysIn year month)
    | _, _, _ => false
  | _ => false

def isPair (top : Nat) (t : Text) : Bool :=
  match fixedNumber? 2 t with
  | some n => decide (n ≤ top)
  | none => false

/-- Whether a text is a time of day, with seconds and possibly a fraction. -/
def isTime (t : Text) : Bool :=
  match Text.pieces ':' t with
  | [h, m, s] =>
    let (whole, fractionGood) := match Text.cutFirst? '.' s with
      | some (whole, fraction) => (whole, Text.isNumeral fraction)
      | none => (s, true)
    isPair 23 h && isPair 59 m && isPair 60 whole && fractionGood
  | _ => false

/-- Whether a text is a time of day with an offset, or without. -/
def isTimeWithOffset (t : Text) : Bool :=
  match t.reverse with
  | 'Z' :: r => isTime r.reverse
  | 'z' :: r => isTime r.reverse
  | b :: a :: ':' :: d :: c :: sign :: r =>
    if sign == '+' || sign == '-' then isPair 23 [c, d] && isPair 59 [a, b] && isTime r.reverse
    else isTime t
  | _ => isTime t

/-- Whether a word is a date, a time or both with a letter between. -/
def isDateWord (t : Text) : Bool :=
  isDate t || isTime t ||
    (isDate (t.take 10) && match t.drop 10 with
      | 'T' :: time => isTimeWithOffset time
      | 't' :: time => isTimeWithOffset time
      | _ => false)

def word? (t : Text) : Option Value :=
  if t == "true".toList then some (.boolean true)
  else if t == "false".toList then some (.boolean false)
  else if isDateWord t then some .date
  else
    match integer? t with
    | some n => some (.integer n)
    | none =>
      let body := match t with
        | '+' :: rest => rest
        | '-' :: rest => rest
        | rest => rest
      if isFloat body then some .float else none

/-- Reads a word.  A date and a time may have one blank between them. -/
def scalarWord? (t : Text) : Option (Value × Text) :=
  let word := t.takeWhile isWordChar
  let rest := t.dropWhile isWordChar
  match rest with
  | ' ' :: a :: more =>
    if isDate word && a.isDigit then
      if isTimeWithOffset ((a :: more).takeWhile isWordChar) then
        some (.date, (a :: more).dropWhile isWordChar)
      else none
    else (word? word).map (·, rest)
  | _ => (word? word).map (·, rest)

end Toml
end DocExcerpt
