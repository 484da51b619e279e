import DocExcerpt.Text.Basic
/-!
# Digits and numerals

`isDecimalDigit` is Unicode's general category Nd; a numeral that is read or written has ASCII digits only
(`ofDigits`, `decimal`).
-/
namespace DocExcerpt

/-- The zeros of the digit rows of Unicode 16; each begins ten consecutive decimal digits. -/
def digitRows : List Nat :=
  [0x30, 0x660, 0x6F0, 0x7C0, 0x966, 0x9E6, 0xA66, 0xAE6, 0xB66, 0xBE6, 0xC66, 0xCE6, 0xD66, 0xDE6, 0xE50,
   0xED0, 0xF20, 0x1040, 0x1090, 0x17E0, 0x1810, 0x1946, 0x19D0, 0x1A80, 0x1A90, 0x1B50, 0x1BB0, 0x1C40,
   0x1C50, 0xA620, 0xA8D0, 0xA900, 0xA9D0, 0xA9F0, 0xAA50, 0xABF0, 0xFF10, 0x104A0, 0x10D30, 0x10D40,
   0x11066, 0x110F0, 0x11136, 0x111D0, 0x112F0, 0x11450, 0x114D0, 0x11650, 0x116C0, 0x116D0, 0x116DA,
   0x11730, 0x118E0, 0x11950, 0x11BF0, 0x11C50, 0x11D50, 0x11DA0, 0x11F50, 0x16A60, 0x16AC0, 0x16B50,
   0x16D70, 0x1CCF0, 0x1D7CE, 0x1D7D8, 0x1D7E2, 0x1D7EC, 0x1D7F6, 0x1E140, 0x1E2F0, 0x1E4F0, 0x1E5F1,
   0x1E950, 0x1FBF0]

/-- The characters of general category Nd. -/
def isDecimalDigit (c : Char) : Bool :=
  digitRows.any (fun first => decide (first ≤ c.toNat) && decide (c.toNat < first + 10))

theorem isDecimalDigit_of_isDigit (c : Char) (h : c.isDigit = true) : isDecimalDigit c = true := by
  simp only [Char.isDigit, Bool.and_eq_true, decide_eq_true_eq] at h
  have hlo : 0x30 ≤ c.toNat := UInt32.le_iff_toNat_le.1 h.1
  have hhi : c.toNat ≤ 0x39 := UInt32.le_iff_toNat_le.1 h.2
  exact List.any_eq_true.2 ⟨0x30, by simp [digitRows], by simp; omega⟩

namespace Text

def digitValue (c : Char) : Nat := c.toNat - '0'.toNat

def ofDigits (t : Text) : Nat := t.foldl (fun n c => n * 10 + digitValue c) 0

def isNumeral (t : Text) : Bool := !t.isEmpty && t.all Char.isDigit

def decimal (n : Nat) : Text := Nat.toDigits 10 n

theorem isDigit_of_mem_decimal {n : Nat} {c : Char} (h : c ∈ decimal n) : c.isDigit = true :=
  Nat.isDigit_of_mem_toDigits (by decide) (by decide) h

theorem isNumeral_decimal (n : Nat) : isNumeral (decimal n) = true := by
  have hne : (decimal n).isEmpty = false := by simp [decimal, Nat.toDigits_ne_nil]
  rw [isNumeral, hne, List.all_eq_true.2 (fun _ h => isDigit_of_mem_decimal h)]
  rfl

/-- A numeral is read back as the number it was written for. -/
theorem ofDigits_decimal (n : Nat) : ofDigits (decimal n) = n := by
  have h : Nat.ofDigitChars 10 (decimal n) 0 = n := Nat.ofDigitChars_ten_toDigits
  rw [Nat.ofDigitChars_eq_foldl] at h
  simpa only [ofDigits, decimal, digitValue, Nat.mul_comm] using h

def signedDecimal : Int → Text
  | .ofNat n => decimal n
  | .negSucc n => '-' :: decimal (n + 1)

end Text
end DocExcerpt
