import DocExcerpt.Text.Utf8
/-!
# The bytes of a text

Different texts have different bytes (`Utf8.encode_injective`), and a slash among the bytes of a text is a slash of the
text (`Utf8.encode_eq_append_slash_iff`).  So a text that is cut at a slash is known by the bytes on both sides.
-/
namespace DocExcerpt
namespace Utf8

theorem encode_append (t u : Text) : encode (t ++ u) = encode t ++ encode u := List.flatMap_append

theorem encode_injective {t u : Text} (h : encode t = encode u) : t = u := by
  have hbytes : t.utf8Encode = u.utf8Encode := congrArg List.toByteArray h
  have hdecoded := congrArg ByteArray.utf8Decode? hbytes
  rw [List.utf8Decode?_utf8Encode, List.utf8Decode?_utf8Encode] at hdecoded
  exact List.toArray_inj (Option.some.inj hdecoded)

/-- The byte of a slash. -/
def slash : UInt8 := 0x2F

theorem encode_slash_cons (t : Text) : encode ('/' :: t) = slash :: encode t := rfl

theorem eq_slash_of_mem {c : Char} (h : slash ∈ String.utf8EncodeChar c) : c = '/' := by
  have hbyte : ∀ n, n < 256 → slash = UInt8.ofNat n → n = 47 := by
    intro n hlt hn
    have hmod := congrArg UInt8.toNat hn
    rw [UInt8.toNat_ofNat', Nat.mod_eq_of_lt hlt] at hmod
    exact hmod.symm
  have hval : c.val.toNat = 47 := by
    unfold String.utf8EncodeChar at h
    dsimp only at h
    split at h
    · exact hbyte _ (by omega) (List.mem_singleton.1 h)
    · -- every byte of a longer character is 128 or more
      have hhigh : ∀ n, 128 ≤ n → n < 256 → slash ≠ UInt8.ofNat n := by
        intro n hle hlt hn
        have := hbyte n hlt hn
        omega
      exfalso
      split at h
      · simp only [List.mem_cons, List.not_mem_nil, or_false] at h
        rcases h with h | h <;> exact hhigh _ (by omega) (by omega) h
      · split at h
        · simp only [List.mem_cons, List.not_mem_nil, or_false] at h
          rcases h with h | h | h <;> exact hhigh _ (by omega) (by omega) h
        · simp only [List.mem_cons, List.not_mem_nil, or_false] at h
          rcases h with h | h | h | h <;> exact hhigh _ (by omega) (by omega) h
  exact Char.ext (UInt32.toNat_inj.1 hval)

/-- **A slash among the bytes of a text is a slash of the text.** -/
theorem encode_eq_append_slash_iff {t : Text} {before after : List UInt8} :
    encode t = before ++ slash :: after ↔
      ∃ front rest, t = front ++ '/' :: rest ∧ encode front = before ∧ encode rest = after := by
  constructor
  · intro h
    induction t generalizing before with
    | nil => simp [encode] at h
    | cons c t ih =>
      have hcons : encode (c :: t) = String.utf8EncodeChar c ++ encode t := rfl
      rw [hcons, List.append_eq_append_iff] at h
      rcases h with ⟨before', rfl, h⟩ | ⟨bytes, hc, h⟩
      · obtain ⟨front, rest, rfl, rfl, rfl⟩ := ih h
        exact ⟨c :: front, rest, rfl, rfl, rfl⟩
      · cases bytes with
        | nil =>
          have h' : encode t = [] ++ slash :: after := h.symm
          obtain ⟨front, rest, rfl, hfront, rfl⟩ := ih h'
          have hencode : encode (c :: front) = String.utf8EncodeChar c ++ encode front := rfl
          exact ⟨c :: front, rest, rfl, by rw [hencode, hfront, hc, List.append_nil, List.append_nil], rfl⟩
        | cons b bytes =>
          obtain ⟨rfl, hafter⟩ := List.cons.inj h
          obtain rfl := eq_slash_of_mem (hc ▸ List.mem_append_right before List.mem_cons_self)
          have hone : [slash] = before ++ slash :: bytes := hc
          rw [eq_comm, List.append_eq_singleton_iff] at hone
          obtain ⟨rfl, hbytes⟩ := hone.resolve_right (fun hright => by cases hright.2)
          rw [(List.cons.inj hbytes).2] at hafter
          exact ⟨[], t, rfl, rfl, hafter.symm⟩
  · rintro ⟨front, rest, rfl, rfl, rfl⟩
    rw [encode_append, encode_slash_cons]

end Utf8
end DocExcerpt
