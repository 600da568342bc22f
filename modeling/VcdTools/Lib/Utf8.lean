import Mathlib.Init

/-! # UTF-8 with replacement

`String::from_utf8_lossy`: each maximal ill-formed piece of the bytes becomes a
replacement character. A text that was encoded is decoded to itself. -/
namespace VcdTools.Lib

/-- `char::REPLACEMENT_CHARACTER`. -/
def replacementCharacter : Char := '\uFFFD'

def isContinuation (byte : UInt8) : Bool := 0x80 ≤ byte && byte ≤ 0xBF

/-- The second bytes that may follow a first byte of a character of three or
four bytes. -/
def isSecond (first second : UInt8) : Bool :=
  if first = 0xE0 then 0xA0 ≤ second && second ≤ 0xBF
  else if first = 0xED then 0x80 ≤ second && second ≤ 0x9F
  else if first = 0xF0 then 0x90 ≤ second && second ≤ 0xBF
  else if first = 0xF4 then 0x80 ≤ second && second ≤ 0x8F
  else isContinuation second

/-- The length of an ill-formed piece at the front: how much of a character is
there before a byte that does not continue it. -/
def illFormedBytes : List UInt8 → Nat
  | first :: second :: third :: _ =>
    if 0xE0 ≤ first ∧ first ≤ 0xF4 ∧ isSecond first second = true then
      if 0xF0 ≤ first ∧ isContinuation third = true then 3 else 2
    else 1
  | [first, second] =>
    if 0xE0 ≤ first ∧ first ≤ 0xF4 ∧ isSecond first second = true then 2 else 1
  | _ => 1

/-- The character at the front of the bytes, with the number of its bytes. -/
def lossyChar (bytes : List UInt8) : Char × Nat :=
  match bytes.toByteArray.utf8DecodeChar? 0 with
  | some c => (c, c.utf8Size)
  | none => (replacementCharacter, illFormedBytes bytes)

/-- The text of the bytes after the next `skip`, which belong to the character
before. -/
def lossyFrom : Nat → List UInt8 → List Char
  | _, [] => []
  | skip + 1, _ :: bytes => lossyFrom skip bytes
  | 0, byte :: bytes =>
    let (c, size) := lossyChar (byte :: bytes)
    c :: lossyFrom (size - 1) bytes

/-- `String::from_utf8_lossy`. -/
def fromUtf8Lossy (bytes : List UInt8) : List Char := lossyFrom 0 bytes

/-- `String::as_bytes`. -/
def encodeUtf8 (text : List Char) : List UInt8 := text.flatMap String.utf8EncodeChar

/-- An ASCII byte encodes its own character only. -/
theorem toNat_of_ascii_mem {byte : UInt8} {c : Char} (h : byte ∈ String.utf8EncodeChar c)
    (hascii : byte.toNat < 128) : c.toNat = byte.toNat := by
  have hbyte : ∀ n, byte = UInt8.ofNat n → byte.toNat = n % 256 := by
    rintro n rfl
    exact UInt8.toNat_ofNat'
  unfold String.utf8EncodeChar at h
  simp only at h
  split at h
  · have hv := hbyte _ (List.mem_singleton.mp h)
    have hc : c.toNat = c.val.toNat := rfl
    omega
  · -- All bytes of a longer encoding have their first bit set.
    exfalso
    split at h
    · simp only [List.mem_cons, List.not_mem_nil, or_false] at h
      rcases h with h | h <;> have hv := hbyte _ h <;> omega
    · split at h
      · simp only [List.mem_cons, List.not_mem_nil, or_false] at h
        rcases h with h | h | h <;> have hv := hbyte _ h <;> omega
      · simp only [List.mem_cons, List.not_mem_nil, or_false] at h
        rcases h with h | h | h | h <;> have hv := hbyte _ h <;> omega

theorem ascii_mem_encodeUtf8 {byte : UInt8} {text : List Char} (h : byte ∈ encodeUtf8 text)
    (hascii : byte.toNat < 128) : ∃ c ∈ text, c.toNat = byte.toNat := by
  obtain ⟨c, hc, hbyte⟩ := List.mem_flatMap.mp h
  exact ⟨c, hc, toNat_of_ascii_mem hbyte hascii⟩

theorem encodeUtf8_append (text text' : List Char) :
    encodeUtf8 (text ++ text') = encodeUtf8 text ++ encodeUtf8 text' := List.flatMap_append

/-- Encoded text is read back. -/
theorem fromUTF8_encodeUtf8 (text : List Char) :
    String.fromUTF8? (encodeUtf8 text).toByteArray = some (String.ofList text) := by
  have hbytes : (encodeUtf8 text).toByteArray = (String.ofList text).toByteArray :=
    String.toByteArray_ofList.symm
  unfold String.fromUTF8?
  rw [hbytes]
  exact dif_pos (String.ofList text).isValidUTF8

theorem lossyFrom_skip (skipped bytes : List UInt8) :
    lossyFrom skipped.length (skipped ++ bytes) = lossyFrom 0 bytes := by
  induction skipped with
  | nil => rfl
  | cons byte skipped ih => exact ih

/-- A character that was encoded is decoded to itself, whatever stands behind
it. -/
theorem lossyChar_encode (c : Char) (bytes : List UInt8) :
    lossyChar (String.utf8EncodeChar c ++ bytes) = (c, c.utf8Size) := by
  rw [lossyChar, List.toByteArray_append, ByteArray.utf8DecodeChar?_utf8EncodeChar_append]

/-- **Decoding undoes encoding.** -/
@[simp] theorem fromUtf8Lossy_encodeUtf8 (text : List Char) :
    fromUtf8Lossy (encodeUtf8 text) = text := by
  induction text with
  | nil => rfl
  | cons c text ih =>
    have hchar := lossyChar_encode c (encodeUtf8 text)
    have hlength := String.length_utf8EncodeChar c
    rw [encodeUtf8, List.flatMap_cons, ← encodeUtf8]
    cases hbytes : String.utf8EncodeChar c with
    | nil =>
      rw [hbytes] at hlength
      exact absurd hlength (Nat.ne_of_lt c.utf8Size_pos)
    | cons byte bytes =>
      rw [hbytes] at hchar hlength
      have hskip : c.utf8Size - 1 = bytes.length := by
        rw [← hlength, List.length_cons, Nat.add_sub_cancel]
      rw [List.cons_append] at hchar ⊢
      rw [fromUtf8Lossy, lossyFrom, hchar]
      exact congrArg (c :: ·) ((congrArg (lossyFrom · _) hskip).trans
        ((lossyFrom_skip bytes _).trans ih))

end VcdTools.Lib
