import DocExcerpt.Text.Basic
/-!
# UTF-8

`encode` writes a text as bytes; `decode` reads bytes back, or says how many bytes at the start are well
formed.  The second byte of a character has a narrower range after `E0`, `ED`, `F0` and `F4`: that is what
keeps out overlong forms, surrogates and values above `10FFFF`.
-/
namespace DocExcerpt
namespace Utf8

def encode (t : Text) : List UInt8 := t.flatMap String.utf8EncodeChar

/-- The low six bits of a continuation byte. -/
def payload (b : UInt8) : Nat := b.toNat - 0x80

def isTail (b : UInt8) : Bool := 0x80 ≤ b && b ≤ 0xBF

/-- Whether `second` may follow the first byte `lead` of a three-byte character. -/
def fitsThree (lead second : UInt8) : Bool :=
  if lead == 0xE0 then 0xA0 ≤ second && second ≤ 0xBF
  else if lead == 0xED then 0x80 ≤ second && second ≤ 0x9F
  else isTail second

/-- Whether `second` may follow the first byte `lead` of a four-byte character. -/
def fitsFour (lead second : UInt8) : Bool :=
  if lead == 0xF0 then 0x90 ≤ second && second ≤ 0xBF
  else if lead == 0xF4 then 0x80 ≤ second && second ≤ 0x8F
  else isTail second

/-- The character that begins with `lead` and goes on in `rest`, and how many bytes of `rest` it takes. -/
def charAt? (lead : UInt8) (rest : List UInt8) : Option (Char × Nat) :=
  if lead < 0x80 then some (Char.ofNat lead.toNat, 0)
  else if lead < 0xC2 then none
  else if lead < 0xE0 then
    match rest with
    | b :: _ =>
      if isTail b then some (Char.ofNat ((lead.toNat - 0xC0) * 0x40 + payload b), 1) else none
    | [] => none
  else if lead < 0xF0 then
    match rest with
    | b :: c :: _ =>
      if fitsThree lead b && isTail c then
        some (Char.ofNat ((lead.toNat - 0xE0) * 0x1000 + payload b * 0x40 + payload c), 2)
      else none
    | _ => none
  else if lead < 0xF5 then
    match rest with
    | b :: c :: d :: _ =>
      if fitsFour lead b && isTail c && isTail d then
        some (Char.ofNat ((lead.toNat - 0xF0) * 0x40000 + payload b * 0x1000 + payload c * 0x40 + payload d), 3)
      else none
    | _ => none
  else none

/-- `decode` after `count` bytes that gave the characters `read`, latest first; of the bytes that follow, the
first `taken` belong to the last of these characters. -/
def decodeFrom : Nat → Nat → Text → List UInt8 → Except Nat Text
  | _, _, read, [] => .ok read.reverse
  | taken + 1, count, read, _ :: rest => decodeFrom taken count read rest
  | 0, count, read, lead :: rest =>
    match charAt? lead rest with
    | none => .error count
    | some (c, more) => decodeFrom more (count + 1 + more) (c :: read) rest

/-- The text that the bytes encode, or the number of well-formed bytes before the first that is not. -/
def decode (bytes : List UInt8) : Except Nat Text := decodeFrom 0 0 [] bytes

end Utf8
end DocExcerpt
