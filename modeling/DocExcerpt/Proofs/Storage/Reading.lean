import DocExcerpt.Proofs.Text.Decoding
import DocExcerpt.Storage.TextFile
/-!
# Reading text files

What reading a file comes to, by its bytes alone (`Storage.ReadsAs`): a NUL near the start has it refused as binary,
well-formed bytes give the text that is encoded as them, and other bytes the place up to which they are well-formed.
`Storage.readText` comes to exactly that (`Storage.readText_eq_iff_readsAs`).
-/
namespace DocExcerpt
namespace Storage

/-- **A NUL among the first 1024 bytes.** -/
def StartsBinary (bytes : List UInt8) : Prop := ∃ i < 1024, bytes[i]? = some 0

/-- **What reading a file with these bytes comes to.** -/
inductive ReadsAs (path : Path) (bytes : List UInt8) : Except ReadError Text → Prop where
  | binary : StartsBinary bytes → ReadsAs path bytes (.error (.binary path))
  | text {t : Text} : ¬StartsBinary bytes → Utf8.encode t = bytes → ReadsAs path bytes (.ok t)
  /-- The place is the length of the longest start that is well-formed. -/
  | notUtf8 {n : Nat} : ¬StartsBinary bytes → ¬Utf8.IsWellFormed bytes →
    IsGreatest {m | m ≤ bytes.length ∧ Utf8.IsWellFormed (bytes.take m)} n →
    ReadsAs path bytes (.error (.notUtf8 path n))

theorem looksBinary_iff {bytes : List UInt8} : looksBinary bytes = true ↔ StartsBinary bytes := by
  rw [looksBinary, List.contains_iff_mem, List.mem_iff_getElem?, StartsBinary]
  refine exists_congr (fun i => ?_)
  rw [List.getElem?_take, sniffed]
  split
  · next hlt => simp [hlt]
  · next hge => simp [hge]

theorem readText_of_lookup {s : Storage} {p : Path} {bytes : List UInt8} (h : s.lookup p = .ok (.file bytes)) :
    s.readText p = if looksBinary bytes then .error (.binary p)
      else (Utf8.decode bytes).mapError (ReadError.notUtf8 p) := by
  have hread : s.read p = .ok bytes := by
    rw [read, h]
    rfl
  rw [readText, hread]

/-- **Reading a file gives exactly what its bytes come to.** -/
theorem readText_eq_iff_readsAs {s : Storage} {p : Path} {bytes : List UInt8} (h : s.lookup p = .ok (.file bytes))
    (outcome : Except ReadError Text) : s.readText p = outcome ↔ ReadsAs p bytes outcome := by
  rw [readText_of_lookup h]
  split
  · next hbinary =>
    rw [looksBinary_iff] at hbinary
    constructor
    · rintro rfl
      exact .binary hbinary
    · rintro (_ | ⟨hno, -⟩ | ⟨hno, -⟩)
      · rfl
      · exact absurd hbinary hno
      · exact absurd hbinary hno
  · next hbinary =>
    rw [looksBinary_iff] at hbinary
    constructor
    · rintro rfl
      cases hdecode : Utf8.decode bytes with
      | ok t => exact .text hbinary (Utf8.decode_eq_ok_iff.1 hdecode)
      | error n =>
        obtain ⟨hill, hgreatest⟩ := Utf8.decode_eq_error_iff.1 hdecode
        exact .notUtf8 hbinary hill hgreatest
    · rintro (hyes | ⟨-, htext⟩ | ⟨-, hill, hgreatest⟩)
      · exact absurd hyes hbinary
      · rw [Utf8.decode_eq_ok_iff.2 htext]
        rfl
      · rw [Utf8.decode_eq_error_iff.2 ⟨hill, hgreatest⟩]
        rfl

/-- A storage with one file: a byte order mark, a line that ends in a carriage return, and half of a surrogate pair. -/
def surrogateStorage : Storage where
  entries := [(["s".toList], .file [0xEF, 0xBB, 0xBF, 0x61, 0x0D, 0x0A, 0xED, 0xA0, 0x80])]
  workingDirectory := []
  distinct := by decide

theorem readText_eq_iff_readsAs_surrogate :
    surrogateStorage.lookup ⟨"/s".toList⟩ = .ok (.file [0xEF, 0xBB, 0xBF, 0x61, 0x0D, 0x0A, 0xED, 0xA0, 0x80]) ∧
      ReadsAs ⟨"/s".toList⟩ [0xEF, 0xBB, 0xBF, 0x61, 0x0D, 0x0A, 0xED, 0xA0, 0x80]
        (.error (.notUtf8 ⟨"/s".toList⟩ 6)) := by
  have h : surrogateStorage.lookup ⟨"/s".toList⟩ =
      .ok (.file [0xEF, 0xBB, 0xBF, 0x61, 0x0D, 0x0A, 0xED, 0xA0, 0x80]) := by
    decide +kernel
  have hread : surrogateStorage.readText ⟨"/s".toList⟩ = .error (.notUtf8 ⟨"/s".toList⟩ 6) := by decide +kernel
  exact ⟨h, (readText_eq_iff_readsAs h _).1 hread⟩

end Storage
end DocExcerpt
