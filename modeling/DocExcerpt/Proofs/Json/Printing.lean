import DocExcerpt.Proofs.Json.Grammar
import DocExcerpt.Proofs.Text.Pieces
/-!
# Printed JSON

The printed form of a value is a JSON text that writes this value (`Json.isText_print`), so different values are
printed differently (`Json.print_injective`).
-/
namespace DocExcerpt

/-! ## Numbers -/

/-- **A numeral starts with a zero only if it is that.** -/
theorem Text.eq_nil_of_decimal_eq_zero_cons {n : Nat} {t : Text} (h : Text.decimal n = '0' :: t) : t = [] := by
  induction n using Nat.strongRecOn generalizing t with
  | ind n ih =>
    by_cases hn : n < 10
    · rw [Text.decimal, Nat.toDigits_of_lt_base hn] at h
      exact (List.cons.inj h).2.symm
    · rw [Text.decimal, Nat.toDigits_of_base_le (by decide) (by omega)] at h
      cases hfront : Nat.toDigits 10 (n / 10) with
      | nil => exact absurd hfront Nat.toDigits_ne_nil
      | cons c cs =>
        -- the front is a numeral of its own that starts with a zero, so it is zero
        rw [hfront] at h
        obtain ⟨rfl, -⟩ := List.cons.inj h
        have hcs := ih (n / 10) (by omega) hfront
        have hzero : Text.ofDigits (Text.decimal (n / 10)) = 0 := by
          rw [Text.decimal, hfront, hcs]
          rfl
        rw [Text.ofDigits_decimal] at hzero
        omega

namespace Json

/-- What may follow a number. -/
def EndsNumber (rest : Text) : Prop := rest.takeWhile Char.isDigit = []

theorem endsNumber_nil : EndsNumber [] := rfl

theorem endsNumber_cons {c : Char} (h : c.isDigit = false) (rest : Text) : EndsNumber (c :: rest) := by
  simp [EndsNumber, h]

theorem takeWhile_isDigit_append {digits rest : Text} (hdigits : ∀ c ∈ digits, c.isDigit = true)
    (hrest : EndsNumber rest) :
    (digits ++ rest).takeWhile Char.isDigit = digits ∧ (digits ++ rest).dropWhile Char.isDigit = rest := by
  have htake : (digits ++ rest).takeWhile Char.isDigit = digits := by
    rw [List.takeWhile_append_of_pos hdigits, hrest, List.append_nil]
  refine ⟨htake, ?_⟩
  have hsplit := List.takeWhile_append_dropWhile (p := Char.isDigit) (l := digits ++ rest)
  rw [htake] at hsplit
  exact List.append_cancel_left hsplit

theorem reads_decimal (n : Nat) {rest : Text} (h : EndsNumber rest) :
    Reads (Text.decimal n ++ rest) (.number n) rest := by
  have hdigits : ∀ c ∈ Text.decimal n, c.isDigit = true := fun _ => Text.isDigit_of_mem_decimal
  obtain ⟨d, t, hd⟩ := List.exists_cons_of_ne_nil (l := Text.decimal n) Nat.toDigits_ne_nil
  have hnumber := Text.ofDigits_decimal n
  rw [hd] at hdigits hnumber ⊢
  obtain ⟨htake, hdrop⟩ := takeWhile_isDigit_append (fun c hc => hdigits c (List.mem_cons_of_mem _ hc)) h
  have hreads := Reads.number (t := t ++ rest) (hdigits d List.mem_cons_self) (fun hzero => by
    rw [htake]
    exact Text.eq_nil_of_decimal_eq_zero_cons (hzero ▸ hd))
  rwa [htake, hdrop, hnumber] at hreads

/-! ## Strings -/

theorem hexNumber?_hexPair : ∀ n < 0x20, Toml.hexNumber? ('0' :: '0' :: hexPair n) = some n := by decide

theorem readsString_escapeChar (c : Char) {t s rest : Text} (h : ReadsString t s rest) :
    ReadsString (escapeChar c ++ t) (c :: s) rest := by
  have hcode : ∀ {n : Nat}, c.toNat = n → c = Char.ofNat n := fun heq => by rw [← heq, Char.ofNat_toNat]
  unfold escapeChar
  split
  · next hc => exact .short (by rw [hc]; rfl) h
  · next hquote =>
    split
    · next hc => exact .short (by rw [hc]; rfl) h
    · next hbackslash =>
      split
      · next hc => exact .short (by rw [hcode hc]; rfl) h
      · split
        · next hc => exact .short (by rw [hcode hc]; rfl) h
        · split
          · next hc => exact .short (by rw [hc]; rfl) h
          · split
            · next hc => exact .short (by rw [hc]; rfl) h
            · split
              · next hc => exact .short (by rw [hc]; rfl) h
              · split
                · next hcontrol =>
                  have hreads := ReadsString.code (hexNumber?_hexPair c.toNat hcontrol) c.valid h
                  rwa [Char.ofNat_toNat] at hreads
                · next hcontrol => exact .plain hquote hbackslash (by omega) h

theorem readsString_escaped (s rest : Text) : ReadsString (s.flatMap escapeChar ++ '"' :: rest) s rest := by
  induction s with
  | nil => exact .close
  | cons c s ih =>
    rw [List.flatMap_cons, List.append_assoc]
    exact readsString_escapeChar c ih

theorem quote_append (s rest : Text) : quote s ++ rest = '"' :: (s.flatMap escapeChar ++ '"' :: rest) := by
  simp [quote]

/-! ## Blanks between tokens -/

theorem skip_cons {c : Char} (h : isSpace c = false) (t : Text) : skip (c :: t) = c :: t := by
  simp [skip, h]

theorem skip_newline (level : Nat) (t : Text) : skip (newline level ++ t) = skip t := by
  refine List.dropWhile_append_of_pos (fun c hc => ?_)
  rcases List.mem_cons.1 hc with rfl | hc
  · rfl
  · rw [(List.mem_replicate.1 hc).2]
    rfl

theorem exists_printAt_eq_cons (level : Nat) (v : Json) : ∃ c t, printAt level v = c :: t ∧ isSpace c = false := by
  cases v with
  | null => exact ⟨_, _, rfl, rfl⟩
  | bool b => cases b <;> exact ⟨_, _, rfl, rfl⟩
  | number n =>
    obtain ⟨d, t, hd⟩ := List.exists_cons_of_ne_nil (l := Text.decimal n) Nat.toDigits_ne_nil
    have hdigit : d.isDigit = true := Text.isDigit_of_mem_decimal (hd ▸ List.mem_cons_self)
    refine ⟨d, t, hd, ?_⟩
    cases hspace : isSpace d with
    | false => rfl
    | true =>
      simp only [isSpace, Bool.or_eq_true, beq_iff_eq] at hspace
      rcases hspace with ((rfl | rfl) | rfl) | rfl <;> exact absurd hdigit (by decide)
  | string t => exact ⟨_, _, rfl, rfl⟩
  | array items => cases items <;> exact ⟨_, _, rfl, rfl⟩
  | object members => cases members <;> exact ⟨_, _, rfl, rfl⟩

theorem skip_printAt (level : Nat) (v : Json) (rest : Text) :
    skip (printAt level v ++ rest) = printAt level v ++ rest := by
  obtain ⟨c, t, hprint, hspace⟩ := exists_printAt_eq_cons level v
  rw [hprint, List.cons_append, skip_cons hspace]

/-! ## Values -/

theorem enclose_cons (opening closing : Char) (level : Nat) (item : Text) (items : List Text) (rest : Text) :
    enclose opening closing level (item :: items) ++ rest =
      opening :: (Text.join [','] ((item :: items).map (newline (level + 1) ++ ·)) ++
        (newline level ++ closing :: rest)) := by
  simp [enclose]

theorem endsNumber_newline (level : Nat) (rest : Text) : EndsNumber (newline level ++ rest) :=
  endsNumber_cons (by decide) _

theorem skip_newline_cons {c : Char} (h : isSpace c = false) (level : Nat) (rest : Text) :
    skip (newline level ++ c :: rest) = c :: rest := by
  rw [skip_newline, skip_cons h]

/-- The first item of a list in brackets stands on a line of its own, and what follows it comes after a comma. -/
theorem join_append (level : Nat) (item : Text) (items : List Text) (close : Text) :
    Text.join [','] ((item :: items).map (newline level ++ ·)) ++ close =
      newline level ++ (item ++
        match items with
        | [] => close
        | _ :: _ => ',' :: (Text.join [','] (items.map (newline level ++ ·)) ++ close)) := by
  cases items with
  | nil =>
    rw [List.map_cons, List.map_nil, Text.join_singleton, List.append_assoc]
  | cons next items =>
    rw [List.map_cons, List.map_cons, Text.join_cons_cons]
    simp

theorem readsMember_of_reads (level : Nat) (name : Text) {v : Json} {close : Text}
    (h : Reads (printAt level v ++ close) v close) :
    ReadsMember (newline level ++ ((quote name ++ ':' :: ' ' :: printAt level v) ++ close)) (name, v) close := by
  have hquote : (quote name ++ ':' :: ' ' :: printAt level v) ++ close =
      '"' :: (name.flatMap escapeChar ++ '"' :: ':' :: ' ' :: (printAt level v ++ close)) := by
    rw [List.append_assoc, quote_append]
    rfl
  rw [hquote]
  refine .mk (skip_newline_cons rfl level _) (readsString_escaped name _) (skip_cons rfl _) ?_
  have hblank : skip (' ' :: (printAt level v ++ close)) = skip (printAt level v ++ close) := rfl
  rwa [hblank, skip_printAt]

mutual

/-- **What is printed for a value writes this value**, whatever follows that is no digit. -/
theorem reads_printAt (level : Nat) : ∀ (v : Json) {rest : Text}, EndsNumber rest →
    Reads (printAt level v ++ rest) v rest
  | .null, _, _ => by rw [printAt]; exact .null
  | .bool true, _, _ => by rw [printAt]; exact .yes
  | .bool false, _, _ => by rw [printAt]; exact .no
  | .number n, _, h => by rw [printAt]; exact reads_decimal n h
  | .string t, rest, _ => by
    rw [printAt, quote_append]
    exact .string (readsString_escaped t rest)
  | .array vs, rest, _ => by
    have hitems := @readsItems_printItems (level + 1) vs (newline level ++ ']' :: rest) rest
    rw [printAt]
    cases vs with
    | nil => exact .emptyArray (skip_cons rfl _)
    | cons v vs =>
      rw [printItems, enclose_cons, ← printItems]
      exact .array (hitems (by simp) (skip_newline_cons rfl level rest) (endsNumber_newline level _))
  | .object ms, rest, _ => by
    have hmembers := @readsMembers_printMembers (level + 1) ms (newline level ++ '\x7d' :: rest) rest
    rw [printAt]
    cases ms with
    | nil => exact .emptyObject (skip_cons rfl _)
    | cons m ms =>
      rw [printMembers, enclose_cons, ← printMembers]
      exact .object (hmembers (by simp) (skip_newline_cons rfl level rest) (endsNumber_newline level _))

theorem readsItems_printItems (level : Nat) : ∀ (vs : List Json) {close rest : Text}, vs ≠ [] →
    skip close = ']' :: rest → EndsNumber close →
      ReadsItems (Text.join [','] ((printItems level vs).map (newline level ++ ·)) ++ close) vs rest
  | [], _, _, hne, _, _ => absurd rfl hne
  | [v], close, _, _, hclose, hends => by
    have hitem := reads_printAt level v hends
    rw [printItems, join_append, printItems]
    refine .last ?_ hclose
    rwa [skip_newline, skip_printAt]
  | v :: w :: vs, _, _, _, hclose, hends => by
    have hmore := readsItems_printItems level (w :: vs) (by simp) hclose hends
    rw [printItems, join_append, printItems]
    refine .cons ?_ (skip_cons rfl _) hmore
    rw [skip_newline, skip_printAt]
    exact reads_printAt level v (endsNumber_cons (by decide) _)

theorem readsMembers_printMembers (level : Nat) : ∀ (ms : List (Text × Json)) {close rest : Text}, ms ≠ [] →
    skip close = '\x7d' :: rest → EndsNumber close →
      ReadsMembers (Text.join [','] ((printMembers level ms).map (newline level ++ ·)) ++ close) ms rest
  | [], _, _, hne, _, _ => absurd rfl hne
  | [(name, v)], _, _, _, hclose, hends => by
    have hvalue := reads_printAt level v hends
    rw [printMembers, join_append, printMembers]
    exact .last (readsMember_of_reads level name hvalue) hclose
  | (name, v) :: (name', w) :: ms, _, _, _, hclose, hends => by
    have hmore := readsMembers_printMembers level ((name', w) :: ms) (by simp) hclose hends
    rw [printMembers, join_append, printMembers]
    refine .cons (readsMember_of_reads level name ?_) (skip_cons rfl _) hmore
    exact reads_printAt level v (endsNumber_cons (by decide) _)

end

/-- **The printed form of a value is a text that writes it.** -/
theorem isText_print (v : Json) : IsText (print v) v := by
  have hreads := reads_printAt 0 v endsNumber_nil
  have hskip := skip_printAt 0 v []
  rw [List.append_nil] at hreads hskip
  exact ⟨[], by rwa [print, hskip], rfl⟩

theorem isText_print_iff {v w : Json} : IsText (print v) w ↔ w = v :=
  ⟨fun h => h.unique (isText_print v), fun h => h ▸ isText_print v⟩

/-- **Different values are printed differently.** -/
theorem print_injective {v w : Json} (h : print v = print w) : v = w :=
  isText_print_iff.1 (h ▸ isText_print v)

end Json
end DocExcerpt
