import Mathlib.Order.Bounds.Basic
import DocExcerpt.Proofs.Text.Utf8
/-!
# Decoding UTF-8

Bytes are well-formed when some text is encoded as them: so no character has a longer form than it needs, none is a
surrogate or above `10FFFF`, and none is cut off.  Decoding gives back exactly that text (`Utf8.decode_eq_ok_iff`), and for
other bytes the length of their longest well-formed start (`Utf8.decode_eq_error_iff`).
-/
namespace DocExcerpt
namespace Utf8

/-- **Bytes that encode some text.** -/
def IsWellFormed (bytes : List UInt8) : Prop := ∃ t : Text, encode t = bytes

/-! ## One character -/

theorem isTail_iff {b : UInt8} : isTail b = true ↔ 0x80 ≤ b.toNat ∧ b.toNat ≤ 0xBF := by
  simp only [isTail, Bool.and_eq_true, decide_eq_true_iff, UInt8.le_iff_toNat_le, UInt8.reduceToNat]

/-- Which bytes may follow the lowest and the highest first byte of a length, and the ones between these. -/
theorem narrowed_iff {lead b low high least most : UInt8} (hlead : low.toNat ≠ high.toNat)
    (hleast : 0x80 ≤ least.toNat) (hmost : most.toNat ≤ 0xBF) :
    (if lead == low then decide (least ≤ b) && decide (b ≤ 0xBF)
      else if lead == high then decide (0x80 ≤ b) && decide (b ≤ most) else isTail b) = true ↔
    (0x80 ≤ b.toNat ∧ b.toNat ≤ 0xBF) ∧ (lead.toNat = low.toNat → least.toNat ≤ b.toNat) ∧
      (lead.toNat = high.toNat → b.toNat ≤ most.toNat) := by
  simp only [beq_iff_eq, ← UInt8.toNat_inj]
  split
  · simp only [Bool.and_eq_true, decide_eq_true_iff, UInt8.le_iff_toNat_le, UInt8.reduceToNat]
    omega
  · split
    · simp only [Bool.and_eq_true, decide_eq_true_iff, UInt8.le_iff_toNat_le, UInt8.reduceToNat]
      omega
    · rw [isTail_iff]
      omega

theorem fitsThree_iff {lead b : UInt8} : fitsThree lead b = true ↔ (0x80 ≤ b.toNat ∧ b.toNat ≤ 0xBF) ∧
    (lead.toNat = 0xE0 → 0xA0 ≤ b.toNat) ∧ (lead.toNat = 0xED → b.toNat ≤ 0x9F) :=
  narrowed_iff (by decide) (by decide) (by decide)

theorem fitsFour_iff {lead b : UInt8} : fitsFour lead b = true ↔ (0x80 ≤ b.toNat ∧ b.toNat ≤ 0xBF) ∧
    (lead.toNat = 0xF0 → 0x90 ≤ b.toNat) ∧ (lead.toNat = 0xF4 → b.toNat ≤ 0x8F) :=
  narrowed_iff (by decide) (by decide) (by decide)

theorem toNat_byte {n : Nat} (h : n < 256) : (UInt8.ofNat n).toNat = n := by
  rw [UInt8.toNat_ofNat', Nat.mod_eq_of_lt h]

theorem utf8EncodeChar_ofNat {n : Nat} (h : n.isValidChar) :
    String.utf8EncodeChar (Char.ofNat n) =
      if n ≤ 0x7F then [UInt8.ofNat n]
      else if n ≤ 0x7FF then [UInt8.ofNat (n / 64 % 32 + 192), UInt8.ofNat (n % 64 + 128)]
      else if n ≤ 0xFFFF then
        [UInt8.ofNat (n / 4096 % 16 + 224), UInt8.ofNat (n / 64 % 64 + 128), UInt8.ofNat (n % 64 + 128)]
      else [UInt8.ofNat (n / 262144 % 8 + 240), UInt8.ofNat (n / 4096 % 64 + 128), UInt8.ofNat (n / 64 % 64 + 128),
        UInt8.ofNat (n % 64 + 128)] := by
  have hval : (Char.ofNat n).val.toNat = n := by
    rw [Char.ofNat, dif_pos h]
    rfl
  unfold String.utf8EncodeChar
  rw [hval]

theorem eq_ofNat_of_toNat {b : UInt8} {n : Nat} (h : b.toNat = n) : UInt8.ofNat n = b := by
  rw [← h, UInt8.ofNat_toNat]

theorem utf8EncodeChar_two {lead b : UInt8} (hlead : 0xC2 ≤ lead.toNat ∧ lead.toNat < 0xE0) (hb : isTail b = true) :
    String.utf8EncodeChar (Char.ofNat ((lead.toNat - 0xC0) * 0x40 + payload b)) = [lead, b] := by
  rw [isTail_iff] at hb
  unfold payload
  rw [utf8EncodeChar_ofNat (Or.inl (by omega)), if_neg (by omega), if_pos (by omega),
    eq_ofNat_of_toNat (b := lead) (by omega), eq_ofNat_of_toNat (b := b) (by omega)]

theorem utf8EncodeChar_three {lead b c : UInt8} (hlead : 0xE0 ≤ lead.toNat ∧ lead.toNat < 0xF0)
    (hb : fitsThree lead b = true) (hc : isTail c = true) :
    String.utf8EncodeChar (Char.ofNat ((lead.toNat - 0xE0) * 0x1000 + payload b * 0x40 + payload c)) = [lead, b, c] := by
  rw [fitsThree_iff] at hb
  rw [isTail_iff] at hc
  unfold payload
  rw [utf8EncodeChar_ofNat (by unfold Nat.isValidChar; omega), if_neg (by omega), if_neg (by omega),
    if_pos (by omega), eq_ofNat_of_toNat (b := lead) (by omega), eq_ofNat_of_toNat (b := b) (by omega),
    eq_ofNat_of_toNat (b := c) (by omega)]

theorem utf8EncodeChar_four {lead b c d : UInt8} (hlead : 0xF0 ≤ lead.toNat ∧ lead.toNat < 0xF5)
    (hb : fitsFour lead b = true) (hc : isTail c = true) (hd : isTail d = true) :
    String.utf8EncodeChar (Char.ofNat ((lead.toNat - 0xF0) * 0x40000 + payload b * 0x1000 + payload c * 0x40 + payload d)) =
      [lead, b, c, d] := by
  rw [fitsFour_iff] at hb
  rw [isTail_iff] at hc hd
  unfold payload
  rw [utf8EncodeChar_ofNat (by unfold Nat.isValidChar; omega), if_neg (by omega), if_neg (by omega),
    if_neg (by omega), eq_ofNat_of_toNat (b := lead) (by omega), eq_ofNat_of_toNat (b := b) (by omega),
    eq_ofNat_of_toNat (b := c) (by omega), eq_ofNat_of_toNat (b := d) (by omega)]

/-- **What is read as a character is its encoding.** -/
theorem utf8EncodeChar_of_charAt? {lead : UInt8} {rest : List UInt8} {c : Char} {more : Nat}
    (h : charAt? lead rest = some (c, more)) :
    ∃ tail after, rest = tail ++ after ∧ tail.length = more ∧ String.utf8EncodeChar c = lead :: tail := by
  unfold charAt? at h
  simp only [UInt8.lt_iff_toNat_lt, UInt8.reduceToNat] at h
  split_ifs at h with hone hlow htwo hthree hfour
  · obtain ⟨rfl, rfl⟩ := Prod.mk.inj (Option.some.inj h)
    refine ⟨[], rest, rfl, rfl, ?_⟩
    rw [utf8EncodeChar_ofNat (Or.inl (by omega)), if_pos (by omega), UInt8.ofNat_toNat]
  · split at h
    · next b after =>
      obtain ⟨hb, h⟩ := Option.ite_none_right_eq_some.1 h
      obtain ⟨rfl, rfl⟩ := Prod.mk.inj (Option.some.inj h)
      exact ⟨[b], after, rfl, rfl, utf8EncodeChar_two ⟨by omega, htwo⟩ hb⟩
    · cases h
  · split at h
    · next b c after =>
      obtain ⟨hbytes, h⟩ := Option.ite_none_right_eq_some.1 h
      obtain ⟨rfl, rfl⟩ := Prod.mk.inj (Option.some.inj h)
      obtain ⟨hb, hc⟩ := Bool.and_eq_true_iff.1 hbytes
      exact ⟨[b, c], after, rfl, rfl, utf8EncodeChar_three ⟨by omega, hthree⟩ hb hc⟩
    · cases h
  · split at h
    · next b c d after =>
      obtain ⟨hbytes, h⟩ := Option.ite_none_right_eq_some.1 h
      obtain ⟨rfl, rfl⟩ := Prod.mk.inj (Option.some.inj h)
      obtain ⟨hbytes, hd⟩ := Bool.and_eq_true_iff.1 hbytes
      obtain ⟨hb, hc⟩ := Bool.and_eq_true_iff.1 hbytes
      exact ⟨[b, c, d], after, rfl, rfl, utf8EncodeChar_four ⟨by omega, hfour⟩ hb hc hd⟩
    · cases h

theorem charAt?_two {n : Nat} {lead b : UInt8} (rest : List UInt8) (hn : 0x80 ≤ n ∧ n ≤ 0x7FF)
    (hlead : lead.toNat = n / 64 % 32 + 192) (hb : b.toNat = n % 64 + 128) :
    charAt? lead (b :: rest) = some (Char.ofNat n, 1) := by
  have hvalue : (lead.toNat - 0xC0) * 0x40 + (b.toNat - 0x80) = n := by omega
  unfold charAt? payload
  simp only [UInt8.lt_iff_toNat_lt, UInt8.reduceToNat]
  rw [if_neg (by omega), if_neg (by omega), if_pos (by omega), if_pos (isTail_iff.2 (by omega)), hvalue]

theorem charAt?_three {n : Nat} {lead b c : UInt8} (rest : List UInt8) (hn : 0x800 ≤ n ∧ n ≤ 0xFFFF)
    (hvalid : n.isValidChar) (hlead : lead.toNat = n / 4096 % 16 + 224) (hb : b.toNat = n / 64 % 64 + 128)
    (hc : c.toNat = n % 64 + 128) : charAt? lead (b :: c :: rest) = some (Char.ofNat n, 2) := by
  unfold Nat.isValidChar at hvalid
  have hvalue : (lead.toNat - 0xE0) * 0x1000 + (b.toNat - 0x80) * 0x40 + (c.toNat - 0x80) = n := by omega
  have hbytes : (fitsThree lead b && isTail c) = true :=
    Bool.and_eq_true_iff.2 ⟨fitsThree_iff.2 (by omega), isTail_iff.2 (by omega)⟩
  unfold charAt? payload
  simp only [UInt8.lt_iff_toNat_lt, UInt8.reduceToNat]
  rw [if_neg (by omega), if_neg (by omega), if_neg (by omega), if_pos (by omega), if_pos hbytes, hvalue]

theorem charAt?_four {n : Nat} {lead b c d : UInt8} (rest : List UInt8) (hn : 0x10000 ≤ n ∧ n < 0x110000)
    (hlead : lead.toNat = n / 262144 % 8 + 240) (hb : b.toNat = n / 4096 % 64 + 128)
    (hc : c.toNat = n / 64 % 64 + 128) (hd : d.toNat = n % 64 + 128) :
    charAt? lead (b :: c :: d :: rest) = some (Char.ofNat n, 3) := by
  have hvalue : (lead.toNat - 0xF0) * 0x40000 + (b.toNat - 0x80) * 0x1000 + (c.toNat - 0x80) * 0x40 +
      (d.toNat - 0x80) = n := by omega
  have hbytes : (fitsFour lead b && isTail c && isTail d) = true :=
    Bool.and_eq_true_iff.2 ⟨Bool.and_eq_true_iff.2 ⟨fitsFour_iff.2 (by omega), isTail_iff.2 (by omega)⟩,
      isTail_iff.2 (by omega)⟩
  unfold charAt? payload
  simp only [UInt8.lt_iff_toNat_lt, UInt8.reduceToNat]
  rw [if_neg (by omega), if_neg (by omega), if_neg (by omega), if_neg (by omega), if_pos (by omega), if_pos hbytes,
    hvalue]

/-- **The encoding of a character is read as that character**, whatever follows. -/
theorem charAt?_of_utf8EncodeChar {lead : UInt8} {tail : List UInt8} {c : Char}
    (h : String.utf8EncodeChar c = lead :: tail) (rest : List UInt8) :
    charAt? lead (tail ++ rest) = some (c, tail.length) := by
  obtain ⟨n, hvalid, rfl⟩ : ∃ n : Nat, n.isValidChar ∧ Char.ofNat n = c := ⟨c.toNat, c.valid, Char.ofNat_toNat c⟩
  have hmax : n < 0x110000 := by
    unfold Nat.isValidChar at hvalid
    omega
  rw [utf8EncodeChar_ofNat hvalid] at h
  split_ifs at h with hone htwo hthree
  · obtain ⟨rfl, rfl⟩ := List.cons.inj h
    have hlead := toNat_byte (n := n) (by omega)
    unfold charAt?
    rw [if_pos (by rw [UInt8.lt_iff_toNat_lt, hlead]; exact Nat.lt_succ_of_le hone), hlead]
    rfl
  · rw [List.cons.injEq] at h
    rw [← h.1, ← h.2]
    exact charAt?_two rest (by omega) (toNat_byte (by omega)) (toNat_byte (by omega))
  · rw [List.cons.injEq] at h
    rw [← h.1, ← h.2]
    exact charAt?_three rest (by omega) hvalid (toNat_byte (by omega)) (toNat_byte (by omega)) (toNat_byte (by omega))
  · rw [List.cons.injEq] at h
    rw [← h.1, ← h.2]
    exact charAt?_four rest (by omega) (toNat_byte (by omega)) (toNat_byte (by omega)) (toNat_byte (by omega))
      (toNat_byte (by omega))

/-! ## A text and what follows it -/

/-- Whether bytes begin with no character. -/
def Breaks (bytes : List UInt8) : Prop := ∃ lead rest, bytes = lead :: rest ∧ charAt? lead rest = none

theorem exists_cons_utf8EncodeChar (c : Char) : ∃ lead tail, String.utf8EncodeChar c = lead :: tail := by
  unfold String.utf8EncodeChar
  dsimp only
  split
  · exact ⟨_, _, rfl⟩
  · split
    · exact ⟨_, _, rfl⟩
    · split <;> exact ⟨_, _, rfl⟩

theorem encode_cons (c : Char) (t : Text) : encode (c :: t) = String.utf8EncodeChar c ++ encode t := rfl

/-- No character is encoded as the start of another one. -/
theorem utf8EncodeChar_append_inj {c d : Char} {rest rest' : List UInt8}
    (h : String.utf8EncodeChar c ++ rest = String.utf8EncodeChar d ++ rest') : c = d ∧ rest = rest' := by
  obtain ⟨lead, tail, hc⟩ := exists_cons_utf8EncodeChar c
  obtain ⟨lead', tail', hd⟩ := exists_cons_utf8EncodeChar d
  have hread := charAt?_of_utf8EncodeChar hc rest
  have hread' := charAt?_of_utf8EncodeChar hd rest'
  have hbytes := h
  rw [hc, hd, List.cons_append, List.cons_append, List.cons.injEq] at hbytes
  rw [hbytes.1, hbytes.2, hread', Option.some.injEq, Prod.mk.injEq] at hread
  obtain rfl := hread.1
  exact ⟨rfl, List.append_cancel_left h⟩

theorem not_breaks_encode_cons (c : Char) (t : Text) (rest : List UInt8) : ¬Breaks (encode (c :: t) ++ rest) := by
  rintro ⟨lead, rest', hbytes, hnone⟩
  obtain ⟨lead', tail, hc⟩ := exists_cons_utf8EncodeChar c
  rw [encode_cons, hc, List.cons_append, List.cons_append, List.append_assoc, List.cons.injEq] at hbytes
  rw [← hbytes.1, ← hbytes.2, charAt?_of_utf8EncodeChar hc] at hnone
  cases hnone

/-- **Up to where bytes break, no longer text is encoded.** -/
theorem isPrefix_of_encode_append {t u : Text} {rest after : List UInt8} (hrest : rest = [] ∨ Breaks rest)
    (h : encode u ++ after = encode t ++ rest) : u <+: t := by
  induction t generalizing u with
  | nil =>
    cases u with
    | nil => exact List.prefix_rfl
    | cons c u =>
      have hbytes : encode (c :: u) ++ after = rest := h
      rcases hrest with rfl | hbreaks
      · obtain ⟨lead, tail, hc⟩ := exists_cons_utf8EncodeChar c
        rw [encode_cons, hc] at hbytes
        cases hbytes
      · exact absurd (hbytes ▸ hbreaks) (not_breaks_encode_cons c u after)
  | cons d t ih =>
    cases u with
    | nil => exact List.nil_prefix
    | cons c u =>
      rw [encode_cons, encode_cons, List.append_assoc, List.append_assoc] at h
      obtain ⟨rfl, hafter⟩ := utf8EncodeChar_append_inj h
      exact (List.prefix_cons_inj c).2 (ih hafter)

/-- Bytes are a text up to where they break, if they do. -/
theorem exists_eq_encode_append (bytes : List UInt8) :
    ∃ t rest, bytes = encode t ++ rest ∧ (rest = [] ∨ Breaks rest) := by
  induction hlength : bytes.length using Nat.strongRecOn generalizing bytes with
  | ind n ih =>
    cases bytes with
    | nil => exact ⟨[], [], rfl, .inl rfl⟩
    | cons lead bytes =>
      cases hread : charAt? lead bytes with
      | none => exact ⟨[], lead :: bytes, rfl, .inr ⟨lead, bytes, rfl, hread⟩⟩
      | some p =>
        obtain ⟨c, more⟩ := p
        obtain ⟨tail, after, rfl, -, hc⟩ := utf8EncodeChar_of_charAt? hread
        have hlt : after.length < n := by
          rw [← hlength, List.length_cons, List.length_append]
          omega
        obtain ⟨t, rest, rfl, hrest⟩ := ih after.length hlt after rfl
        refine ⟨c :: t, rest, ?_, hrest⟩
        rw [encode_cons, hc, List.cons_append, List.cons_append, List.append_assoc]

/-! ## Decoding -/

theorem decodeFrom_append {count : Nat} {read : Text} (taken rest : List UInt8) :
    decodeFrom taken.length count read (taken ++ rest) = decodeFrom 0 count read rest := by
  induction taken with
  | nil => rfl
  | cons b taken ih => exact ih

theorem decodeFrom_utf8EncodeChar_append {count : Nat} {read : Text} (c : Char) (rest : List UInt8) :
    decodeFrom 0 count read (String.utf8EncodeChar c ++ rest) =
      decodeFrom 0 (count + (String.utf8EncodeChar c).length) (c :: read) rest := by
  obtain ⟨lead, tail, hc⟩ := exists_cons_utf8EncodeChar c
  rw [hc, List.cons_append, decodeFrom, charAt?_of_utf8EncodeChar hc, List.length_cons]
  dsimp only
  rw [decodeFrom_append, Nat.add_assoc, Nat.add_comm 1]

/-- **A text is decoded from its encoding**, character by character, before the rest is looked at. -/
theorem decodeFrom_encode_append {count : Nat} {read : Text} (t : Text) (rest : List UInt8) :
    decodeFrom 0 count read (encode t ++ rest) =
      decodeFrom 0 (count + (encode t).length) (t.reverse ++ read) rest := by
  induction t generalizing count read with
  | nil => rfl
  | cons c t ih =>
    rw [encode_cons, List.append_assoc, decodeFrom_utf8EncodeChar_append, ih, List.length_append, Nat.add_assoc,
      List.reverse_cons, List.append_assoc]
    rfl

theorem decode_encode (t : Text) : decode (encode t) = .ok t := by
  have h : decodeFrom 0 0 [] (encode t ++ []) = _ := decodeFrom_encode_append t []
  rw [List.append_nil] at h
  rw [decode, h, decodeFrom, List.append_nil, List.reverse_reverse]

theorem decode_encode_append {rest : List UInt8} (h : Breaks rest) (t : Text) :
    decode (encode t ++ rest) = .error (encode t).length := by
  obtain ⟨lead, rest, rfl, hnone⟩ := h
  rw [decode, decodeFrom_encode_append, decodeFrom, hnone, Nat.zero_add]

/-- **Decoding gives the text that is encoded.** -/
theorem decode_eq_ok_iff {bytes : List UInt8} {t : Text} : decode bytes = .ok t ↔ encode t = bytes := by
  constructor
  · intro h
    obtain ⟨u, rest, rfl, rfl | hbreaks⟩ := exists_eq_encode_append bytes
    · rw [List.append_nil, decode_encode] at h
      rw [Except.ok.inj h, List.append_nil]
    · rw [decode_encode_append hbreaks] at h
      cases h
  · rintro rfl
    exact decode_encode t

theorem length_encode_le_of_isPrefix {t u : Text} (h : u <+: t) : (encode u).length ≤ (encode t).length := by
  obtain ⟨v, rfl⟩ := h
  rw [encode_append, List.length_append]
  exact Nat.le_add_right _ _

theorem isGreatest_of_breaks {rest : List UInt8} (h : Breaks rest) (t : Text) :
    IsGreatest {m | m ≤ (encode t ++ rest).length ∧ IsWellFormed ((encode t ++ rest).take m)} (encode t).length := by
  refine ⟨⟨by rw [List.length_append]; exact Nat.le_add_right _ _, t, List.take_left.symm⟩, ?_⟩
  rintro m ⟨hm, u, hu⟩
  have hbytes : encode u ++ (encode t ++ rest).drop m = encode t ++ rest := by rw [hu, List.take_append_drop]
  have hle := length_encode_le_of_isPrefix (isPrefix_of_encode_append (.inr h) hbytes)
  rwa [hu, List.length_take_of_le hm] at hle

/-- **Decoding fails at the end of the longest well-formed start.** -/
theorem decode_eq_error_iff {bytes : List UInt8} {n : Nat} :
    decode bytes = .error n ↔
      ¬IsWellFormed bytes ∧ IsGreatest {m | m ≤ bytes.length ∧ IsWellFormed (bytes.take m)} n := by
  obtain ⟨t, rest, rfl, rfl | hbreaks⟩ := exists_eq_encode_append bytes
  · rw [List.append_nil, decode_encode]
    exact iff_of_false (fun h => by cases h) (fun h => h.1 ⟨t, rfl⟩)
  · have hgreatest := isGreatest_of_breaks hbreaks t
    have hill : ¬IsWellFormed (encode t ++ rest) := by
      rintro ⟨u, hu⟩
      have h := decode_encode_append hbreaks t
      rw [← hu, decode_encode] at h
      cases h
    rw [decode_encode_append hbreaks, Except.error.injEq]
    constructor
    · rintro rfl
      exact ⟨hill, hgreatest⟩
    · exact fun h => hgreatest.unique h.2

/-- After a letter: two bytes for a character that needs one, a character that is cut off, and one above the last. -/
example : [[0x61, 0xC0, 0x80], [0x61, 0xE2, 0x82], [0x61, 0xF4, 0x90, 0x80, 0x80]].map decode =
    [.error 1, .error 1, .error 1] := by decide

end Utf8
end DocExcerpt
