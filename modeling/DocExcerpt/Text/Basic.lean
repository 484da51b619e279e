/-!
# Text as a list of characters

Everything this library reads and writes is a `Text`.  The operations below cut a text at a character
(`pieces`, `cutFirst?`, `cutLast?`), at a word (`cutAt?`), or take a known start or end off it
(`after?`, `before?`).  Each walks the text with the list operators of core, so a long file costs no stack.
-/
namespace DocExcerpt

abbrev Text := List Char

namespace Text

/-- The parts of a text between the occurrences of `sep`; there is always at least one. -/
def pieces (sep : Char) (t : Text) : List Text :=
  t.foldr (fun c ps =>
    if c = sep then [] :: ps
    else match ps with
      | [] => [[c]]
      | p :: rest => (c :: p) :: rest) [[]]

def join (sep : Text) (ts : List Text) : Text := sep.intercalate ts

theorem pieces_cons_self (sep : Char) (t : Text) : pieces sep (sep :: t) = [] :: pieces sep t := by
  simp [pieces]

theorem pieces_ne_nil (sep : Char) (t : Text) : pieces sep t ≠ [] := by
  induction t with
  | nil => simp [pieces]
  | cons c t ih =>
    rw [pieces, List.foldr_cons, ← pieces]
    split
    · simp
    · split <;> simp

theorem pieces_cons_of_ne {sep c : Char} (h : c ≠ sep) {t p : Text} {ps : List Text}
    (ht : pieces sep t = p :: ps) : pieces sep (c :: t) = (c :: p) :: ps := by
  rw [pieces, List.foldr_cons, ← pieces, ht, if_neg h]

/-- Cutting loses nothing but the separators. -/
theorem join_pieces (sep : Char) (t : Text) : join [sep] (pieces sep t) = t := by
  induction t with
  | nil => rfl
  | cons c t ih =>
    obtain ⟨p, ps, hp⟩ := List.exists_cons_of_ne_nil (pieces_ne_nil sep t)
    by_cases h : c = sep
    · subst h
      rw [pieces_cons_self, hp, join, List.intercalate_cons_cons, ← join, ← hp, ih]
      rfl
    · rw [hp] at ih
      rw [pieces_cons_of_ne h hp]
      cases ps with
      | nil => simpa [join] using ih
      | cons q qs =>
        simp only [join, List.intercalate_cons_cons] at ih ⊢
        rw [← ih]
        simp

theorem not_mem_of_mem_pieces {sep : Char} {t p : Text} (h : p ∈ pieces sep t) : sep ∉ p := by
  induction t generalizing p with
  | nil => simp_all [pieces]
  | cons c t ih =>
    obtain ⟨q, qs, hq⟩ := List.exists_cons_of_ne_nil (pieces_ne_nil sep t)
    by_cases hc : c = sep
    · subst hc
      rw [pieces_cons_self] at h
      rcases List.mem_cons.1 h with rfl | h
      · exact List.not_mem_nil
      · exact ih h
    · rw [pieces_cons_of_ne hc hq] at h
      rw [hq] at ih
      rcases List.mem_cons.1 h with rfl | h
      · intro hmem
        rcases List.mem_cons.1 hmem with rfl | hmem
        · exact hc rfl
        · exact ih List.mem_cons_self hmem
      · exact ih (List.mem_cons_of_mem _ h)

/-- What follows `start`, when the text begins with it. -/
def after? : Text → Text → Option Text
  | [], t => some t
  | _ :: _, [] => none
  | s :: ss, c :: cs => if s = c then after? ss cs else none

theorem after?_eq_some_iff {start t rest : Text} : after? start t = some rest ↔ t = start ++ rest := by
  induction start generalizing t with
  | nil => simp [after?]
  | cons s ss ih =>
    cases t with
    | nil => simp [after?]
    | cons c cs =>
      simp only [after?]
      split
      · next h => rw [ih, h, List.cons_append, List.cons.injEq, and_iff_right rfl]
      · next h => simp [Ne.symm h]

def startsWith (start t : Text) : Bool := (after? start t).isSome

/-- What precedes `ending`, when the text ends with it. -/
def before? (ending t : Text) : Option Text :=
  (after? ending.reverse t.reverse).map List.reverse

theorem before?_eq_some_iff {ending t rest : Text} : before? ending t = some rest ↔ t = rest ++ ending := by
  rw [before?, Option.map_eq_some_iff]
  constructor
  · rintro ⟨r, hr, rfl⟩
    have := congrArg List.reverse (after?_eq_some_iff.1 hr)
    simpa using this
  · rintro rfl
    exact ⟨rest.reverse, after?_eq_some_iff.2 (by simp), by simp⟩

def endsWith (ending t : Text) : Bool := (before? ending t).isSome

def cutFirst? (sep : Char) (t : Text) : Option (Text × Text) :=
  match t.dropWhile (fun c => !(c == sep)) with
  | [] => none
  | _ :: rest => some (t.takeWhile (fun c => !(c == sep)), rest)

theorem cutFirst?_cons (sep c : Char) (t : Text) :
    cutFirst? sep (c :: t) = if c = sep then some ([], t)
      else (cutFirst? sep t).map (fun p => (c :: p.1, p.2)) := by
  by_cases h : c = sep
  · simp [cutFirst?, h]
  · simp only [cutFirst?, List.dropWhile_cons, List.takeWhile_cons, h, not_false_eq_true,
      Bool.not_eq_true', beq_eq_false_iff_ne, ne_eq, if_true, if_false]
    split <;> rfl

theorem cutFirst?_eq_some_iff {sep : Char} {t before rest : Text} :
    cutFirst? sep t = some (before, rest) ↔ t = before ++ sep :: rest ∧ sep ∉ before := by
  induction t generalizing before with
  | nil => simp [cutFirst?]
  | cons c t ih =>
    rw [cutFirst?_cons]
    split
    · next h => cases before <;> simp [h]; grind
    · next h =>
      rw [Option.map_eq_some_iff]
      constructor
      · rintro ⟨p, hp, heq⟩
        cases heq
        obtain ⟨rfl, hn⟩ := ih.1 hp
        exact ⟨rfl, by simp [Ne.symm h, hn]⟩
      · rintro ⟨ht, hn⟩
        cases before with
        | nil => exact absurd (List.cons.inj ht).1 h
        | cons b bs =>
          obtain ⟨rfl, rfl⟩ := List.cons.inj ht
          exact ⟨(bs, rest), ih.2 ⟨rfl, fun hm => hn (List.mem_cons_of_mem _ hm)⟩, rfl⟩

theorem cutFirst?_eq_none_iff {sep : Char} {t : Text} : cutFirst? sep t = none ↔ sep ∉ t := by
  induction t with
  | nil => simp [cutFirst?]
  | cons c t ih =>
    rw [cutFirst?_cons]
    split
    · next h => simp [h]
    · next h => simp [ih, Ne.symm h]

def cutLast? (sep : Char) (t : Text) : Option (Text × Text) :=
  (cutFirst? sep t.reverse).map (fun p => (p.2.reverse, p.1.reverse))

theorem cutLast?_eq_some_iff {sep : Char} {t before rest : Text} :
    cutLast? sep t = some (before, rest) ↔ t = before ++ sep :: rest ∧ sep ∉ rest := by
  rw [cutLast?, Option.map_eq_some_iff]
  constructor
  · rintro ⟨⟨a, b⟩, h, heq⟩
    obtain ⟨ht, hn⟩ := cutFirst?_eq_some_iff.1 h
    cases heq
    exact ⟨by simpa using congrArg List.reverse ht, by simpa using hn⟩
  · rintro ⟨rfl, hn⟩
    exact ⟨(rest.reverse, before.reverse), cutFirst?_eq_some_iff.2 ⟨by simp, by simpa using hn⟩, by simp⟩

theorem cutLast?_eq_none_iff {sep : Char} {t : Text} : cutLast? sep t = none ↔ sep ∉ t := by
  rw [cutLast?, Option.map_eq_none_iff, cutFirst?_eq_none_iff, List.mem_reverse]

/-- `cutAt?` with the characters already passed over, latest first. -/
def cutAtFrom? (word : Text) : Text → Text → Option (Text × Text)
  | passed, t =>
    match after? word t with
    | some rest => some (passed.reverse, rest)
    | none =>
      match t with
      | [] => none
      | c :: cs => cutAtFrom? word (c :: passed) cs

def cutAt? (word t : Text) : Option (Text × Text) := cutAtFrom? word [] t

def replaceAll (old new : Char) (t : Text) : Text := t.map (fun c => if c = old then new else c)

def replaceFirst (old new : Char) : Text → Text
  | [] => []
  | c :: cs => if c = old then new :: cs else c :: replaceFirst old new cs

/-- ASCII letters in lower case, all else unchanged. -/
def asciiLower (t : Text) : Text := t.map Char.toLower

def sameIgnoringCase (s t : Text) : Bool := asciiLower s == asciiLower t

/-- Order by code point at the first difference, a shorter text before its extensions.  This is also the
order of the UTF-8 bytes. -/
def le (s t : Text) : Bool := decide (¬ t < s)

theorem le_trans {s t u : Text} (h₁ : le s t = true) (h₂ : le t u = true) : le s u = true := by
  simp only [le, decide_eq_true_eq, List.not_lt] at *
  exact List.le_trans h₁ h₂

theorem le_total (s t : Text) : (le s t || le t s) = true := by
  simp only [le, Bool.or_eq_true, decide_eq_true_eq, List.not_lt]
  exact List.le_total s t

theorem le_antisymm {s t : Text} (h₁ : le s t = true) (h₂ : le t s = true) : s = t := by
  simp only [le, decide_eq_true_eq, List.not_lt] at *
  exact List.le_antisymm h₁ h₂

end Text
end DocExcerpt
