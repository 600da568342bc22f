import VcdTools.Command
import VcdTools.Opened.Fst
import VcdTools.Query.CompareProviders

/-! # Spellings of a four-state word

A vector change may leave out digits on the left, which the width of the signal
brings back: 0 before a known digit, x before x, z before z. The VCD decoders
do not know the width and decode what is written; the FST decoder is given the
whole word. -/
namespace VcdTools.Query
open VcdTools.Lib VcdTools.Opened

/-! ## Left extension -/

/-- The digit that is left out before another one. -/
def Value.fill : Value → Value
  | .v1 => .v0
  | value => value

/-- A written vector, extended to a width. -/
def extendLeft (width : Nat) : Vector4 → Vector4
  | [] => []
  | first :: rest =>
    List.replicate (width - (rest.length + 1)) (Value.fill first) ++ first :: rest

/-- The legal spellings of a word. -/
structure Spells (word spelling : Vector4) : Prop where
  nonempty : spelling ≠ []
  short : spelling.length ≤ word.length
  extended : extendLeft word.length spelling = word

instance (word spelling : Vector4) : Decidable (Spells word spelling) :=
  decidable_of_iff (spelling ≠ [] ∧ spelling.length ≤ word.length ∧
    extendLeft word.length spelling = word)
    ⟨fun ⟨h₁, h₂, h₃⟩ => ⟨h₁, h₂, h₃⟩, fun ⟨h₁, h₂, h₃⟩ => ⟨h₁, h₂, h₃⟩⟩

/-- The bytes `fst-reader` reports for a word. -/
def digitalBytes (word : Vector4) : ByteArray := (vectorToString word).toByteArray

/-- A word whose digits are all 0 or 1. -/
abbrev IsKnown (word : Vector4) : Prop := word.all Value.isKnown = true

variable {word spelling : Vector4}

theorem Value.isKnown_fill (value : Value) : (Value.fill value).isKnown = value.isKnown := by
  cases value <;> rfl

/-- A spelling has unknown digits exactly when its word has. -/
theorem Spells.isKnown (h : Spells word spelling) : IsKnown word ↔ IsKnown spelling := by
  rw [IsKnown, ← h.extended]
  cases spelling with
  | nil => exact absurd rfl h.nonempty
  | cons first rest =>
    rw [extendLeft, List.all_append, List.all_replicate, Value.isKnown_fill, IsKnown, List.all_cons]
    cases first.isKnown <;> simp

theorem Spells.eq_of_length (h : Spells word spelling) (hlength : spelling.length = word.length) :
    spelling = word := by
  have hextended := h.extended
  cases spelling with
  | nil => exact absurd rfl h.nonempty
  | cons first rest =>
    rw [List.length_cons] at hlength
    rwa [extendLeft, ← hlength, Nat.sub_self, List.replicate_zero, List.nil_append] at hextended

/-! ## The number of a known word -/

def Value.bit : Value → Nat
  | .v1 => 1
  | _ => 0

/-- The number of a word, on top of the digits before it. -/
def binaryFrom (acc : Nat) (word : Vector4) : Nat :=
  word.foldl (fun acc value => 2 * acc + Value.bit value) acc

/-- The number of a word, most significant digit first. -/
def binaryValue (word : Vector4) : Nat := binaryFrom 0 word

theorem Value.bit_lt (value : Value) : Value.bit value < 2 := by
  cases value <;> decide

theorem binaryFrom_lt {acc k : Nat} (h : acc < 2 ^ k) (word : Vector4) :
    binaryFrom acc word < 2 ^ (k + word.length) := by
  induction word generalizing acc k with
  | nil => exact h
  | cons value rest ih =>
    have hnext : 2 * acc + Value.bit value < 2 ^ (k + 1) := by
      have := Value.bit_lt value
      rw [Nat.pow_succ]
      omega
    have hlt := ih hnext
    rw [List.length_cons, Nat.add_comm rest.length 1, ← Nat.add_assoc]
    exact hlt

theorem binaryValue_replicate (n : Nat) (rest : Vector4) :
    binaryValue (List.replicate n .v0 ++ rest) = binaryValue rest := by
  induction n with
  | zero => rfl
  | succ n ih => exact ih

theorem Spells.binaryValue (h : Spells word spelling) (hknown : IsKnown word) :
    binaryValue spelling = binaryValue word := by
  have hspelling := h.isKnown.mp hknown
  have hextended := h.extended
  cases spelling with
  | nil => exact absurd rfl h.nonempty
  | cons first rest =>
    have hfill : Value.fill first = .v0 := by
      rw [IsKnown, List.all_cons, Bool.and_eq_true] at hspelling
      cases first with
      | v0 | v1 => rfl
      | x | z => cases hspelling.1
    rw [← hextended, extendLeft, hfill, binaryValue_replicate]

/-- A `u128` shift loses nothing below 127 bits. -/
theorem shiftIn_eq {acc : Nat} (h : acc < 2 ^ 127) (value : Value) :
    shiftIn acc value = 2 * acc + Value.bit value := by
  have hshift : (acc <<< 1) % 2 ^ 128 = 2 * acc := by
    rw [Nat.shiftLeft_eq]
    omega
  unfold shiftIn
  rw [hshift]
  cases value with
  | v1 => exact (Nat.two_pow_add_eq_or_of_lt (i := 1) (b := 1) (by decide) acc).symm
  | v0 | x | z => exact Nat.or_zero _

theorem foldl_shiftIn {acc k : Nat} (h : acc < 2 ^ k) (word : Vector4)
    (hlength : k + word.length ≤ 128) : word.foldl shiftIn acc = binaryFrom acc word := by
  induction word generalizing acc k with
  | nil => rfl
  | cons value rest ih =>
    rw [List.length_cons] at hlength
    have hsmall : acc < 2 ^ 127 := h.trans_le (Nat.pow_le_pow_right (by decide) (by omega))
    have hnext : 2 * acc + Value.bit value < 2 ^ (k + 1) := by
      have := Value.bit_lt value
      rw [Nat.pow_succ]
      omega
    rw [List.foldl_cons, shiftIn_eq hsmall, ih hnext (by omega)]
    rfl

/-- `from_str_radix` reads a known word that fits. -/
theorem foldlM_u128FromBinary {acc k : Nat} (h : acc < 2 ^ k) (word : Vector4)
    (hknown : IsKnown word) (hlength : k + word.length ≤ 128) :
    (word.map Value.toChar).foldlM (fun acc digit =>
      let next := 2 * acc + (if digit = '1' then 1 else 0)
      if next < 2 ^ 128 then some next else none) acc = some (binaryFrom acc word) := by
  induction word generalizing acc k with
  | nil => rfl
  | cons value rest ih =>
    rw [List.length_cons] at hlength
    rw [IsKnown, List.all_cons, Bool.and_eq_true] at hknown
    have hdigit : (if value.toChar = '1' then 1 else 0) = Value.bit value := by
      cases value <;> rfl
    have hnext : 2 * acc + Value.bit value < 2 ^ (k + 1) := by
      have := Value.bit_lt value
      rw [Nat.pow_succ]
      omega
    have hfits : 2 * acc + Value.bit value < 2 ^ 128 :=
      hnext.trans_le (Nat.pow_le_pow_right (by decide) (by omega))
    rw [List.map_cons, List.foldlM_cons, hdigit]
    simp only [if_pos hfits, Option.bind_eq_bind, Option.bind_some]
    exact ih hnext hknown.2 (by omega)

/-! ## The decoders -/

theorem Value.toLower_toChar (value : Value) : value.toChar.toLower = value.toChar := by
  cases value <;> rfl

theorem Value.toChar_injective {a b : Value} (h : a.toChar = b.toChar) : a = b := by
  cases a <;> cases b <;> first | rfl | cases h

theorem toList_vectorToString (word : Vector4) :
    (vectorToString word).toList = word.map Value.toChar := String.toList_ofList

theorem map_toLower (word : Vector4) :
    (vectorToString word).toList.map Char.toLower = word.map Value.toChar := by
  rw [toList_vectorToString, List.map_map]
  exact List.map_congr_left fun value _ => Value.toLower_toChar value

theorem utf8ByteSize_vectorToString (word : Vector4) :
    (vectorToString word).utf8ByteSize = word.length := by
  induction word with
  | nil => rfl
  | cons value rest ih =>
    have hsplit : vectorToString (value :: rest) =
        String.singleton value.toChar ++ vectorToString rest := by
      rw [← String.toList_inj, String.toList_append, toList_vectorToString, toList_vectorToString,
        List.map_cons]
      simp
    have hsize : value.toChar.utf8Size = 1 := by
      cases value <;> rfl
    rw [hsplit, String.utf8ByteSize_append, String.utf8ByteSize_singleton, hsize, ih,
      List.length_cons, Nat.add_comm]

theorem vectorToChangeValue_eq (spelling : Vector4) :
    vectorToChangeValue spelling =
      if IsKnown spelling ∧ spelling.length ≤ 128 then .integer (binaryValue spelling)
      else .text (vectorToString spelling) := by
  unfold vectorToChangeValue
  by_cases h : IsKnown spelling ∧ spelling.length ≤ 128
  · rw [if_pos h, if_pos h, foldl_shiftIn (k := 0) (by decide) spelling (by omega), binaryValue]
  · rw [if_neg h, if_neg h]

theorem fstValue_digitalBytes (word : Vector4) :
    fstValue (.string (digitalBytes word)) .digital = .ok
      (if IsKnown word ∧ 1 < word.length ∧ word.length ≤ 128 then .integer (binaryValue word)
      else .text (vectorToString word)) := by
  have htext : String.fromUTF8? (digitalBytes word) = some (vectorToString word) := by
    unfold String.fromUTF8? digitalBytes
    exact dif_pos (vectorToString word).isValidUTF8
  have hall : (vectorToString word).toList.all (fun c => c = '0' || c = '1') = true ↔
      IsKnown word := by
    rw [toList_vectorToString, List.all_map, IsKnown]
    have hdigit : ∀ value : Value, (decide (value.toChar = '0') || decide (value.toChar = '1')) =
        value.isKnown := by
      intro value
      cases value <;> rfl
    rw [show ((fun c => decide (c = '0') || decide (c = '1')) ∘ Value.toChar) = Value.isKnown from
      funext hdigit]
  unfold fstValue
  simp only [htext, utf8ByteSize_vectorToString, true_and, hall]
  by_cases h : IsKnown word ∧ 1 < word.length ∧ word.length ≤ 128
  · have hvalue : u128FromBinary (vectorToString word).toList = some (binaryValue word) := by
      rw [toList_vectorToString]
      exact foldlM_u128FromBinary (k := 0) (by decide) word h.1 (by omega)
    rw [if_pos h, if_pos ⟨h.2.1, h.2.2, h.1⟩, hvalue]
  · rw [if_neg h, if_neg fun h' => h ⟨h'.2.2, h'.1, h'.2.1⟩]

/-! ## The comparison -/

theorem eqIgnoreAsciiCase_vectorToString (a b : Vector4) :
    eqIgnoreAsciiCase (vectorToString a) (vectorToString b) = true ↔ a = b := by
  rw [eqIgnoreAsciiCase, decide_eq_true_iff, map_toLower, map_toLower]
  exact (List.map_injective_iff.mpr fun _ _ => Value.toChar_injective).eq_iff

theorem isUnknown_vectorToString (word : Vector4) :
    isUnknown (.text (vectorToString word)) = true ↔ word = [.x] ∨ word = [.z] := by
  have hx : "x" = vectorToString [.x] := rfl
  have hz : "z" = vectorToString [.z] := rfl
  rw [isUnknown, Bool.or_eq_true, hx, hz, eqIgnoreAsciiCase_vectorToString,
    eqIgnoreAsciiCase_vectorToString]

/-- The text of a known word is the number of a spelling only for one digit: a
number of at most 128 bits has fewer decimal digits than a wider word has
bits. -/
theorem normalize_eq_iff (std : StdText) (hword : Spells word spelling) (hknown : IsKnown word)
    (hspelling : spelling.length ≤ 128) (hwide : ¬ (1 < word.length ∧ word.length ≤ 128)) :
    normalize std (.integer (binaryValue spelling)) = normalize std (.text (vectorToString word)) ↔
      word.length ≤ 128 := by
  have hlower : (std.toLowercase (vectorToString word)).toList = word.map Value.toChar := by
    rw [std.toLowercase_ascii, map_toLower]
    intro c hc
    rw [toList_vectorToString] at hc
    obtain ⟨value, -, rfl⟩ := List.mem_map.mp hc
    cases value <;> decide
  have hpos : 0 < spelling.length := List.length_pos_iff.mpr hword.nonempty
  have hshort := hword.short
  rw [normalize, normalize, ← String.toList_inj, Nat.toList_repr, hlower,
    hword.binaryValue hknown]
  constructor
  · intro heq
    have hlength := congrArg List.length heq
    rw [List.length_map] at hlength
    have hvalue : binaryValue word < 10 ^ 128 := by
      rw [← hword.binaryValue hknown]
      have hzero : 0 < 2 ^ 0 := Nat.one_pos
      have hlt := binaryFrom_lt hzero spelling
      have hle : 2 ^ (0 + spelling.length) ≤ 2 ^ 128 := Nat.pow_le_pow_right (by decide) (by omega)
      exact (hlt.trans_le hle).trans_le (Nat.pow_le_pow_left (by decide) 128)
    have hdigits := (Nat.length_toDigits_le_iff (b := 10) (by decide) (by decide)).mpr hvalue
    omega
  · intro hle
    obtain ⟨value, rfl⟩ := List.length_eq_one_iff.mp (show word.length = 1 by omega)
    cases value with
    | v0 | v1 => rfl
    | x | z => cases hknown

theorem valuesMatch_text (std : StdText) (a b : Vector4) (ignoreUnknown : Bool) :
    valuesMatch std (.text (vectorToString a)) (.text (vectorToString b)) ignoreUnknown = true ↔
      (ignoreUnknown = true ∧ ((a = [.x] ∨ a = [.z]) ∨ b = [.x] ∨ b = [.z])) ∨ a = b := by
  have hunknown : (ignoreUnknown && (isUnknown (.text (vectorToString a)) ||
      isUnknown (.text (vectorToString b)))) = true ↔
      ignoreUnknown = true ∧ ((a = [.x] ∨ a = [.z]) ∨ b = [.x] ∨ b = [.z]) := by
    rw [Bool.and_eq_true, Bool.or_eq_true, isUnknown_vectorToString, isUnknown_vectorToString]
  unfold valuesMatch
  by_cases h : ignoreUnknown = true ∧ ((a = [.x] ∨ a = [.z]) ∨ b = [.x] ∨ b = [.z])
  · rw [if_pos (hunknown.mpr h)]
    exact iff_of_true rfl (.inl h)
  · rw [if_neg fun h' => h (hunknown.mp h'), or_iff_right h]
    exact eqIgnoreAsciiCase_vectorToString a b

theorem valuesMatch_integer_text (std : StdText) (n : Nat) {word : Vector4} (hknown : IsKnown word)
    (ignoreUnknown : Bool) :
    valuesMatch std (.integer n) (.text (vectorToString word)) ignoreUnknown = true ↔
      normalize std (.integer n) = normalize std (.text (vectorToString word)) := by
  have hword : isUnknown (.text (vectorToString word)) = false := by
    rw [Bool.eq_false_iff]
    intro hunknown
    rcases (isUnknown_vectorToString word).mp hunknown with rfl | rfl <;> cases hknown
  have hinteger : isUnknown (.integer n) = false := rfl
  unfold valuesMatch
  rw [hword, hinteger, Bool.or_false, Bool.and_false, if_neg Bool.false_ne_true]
  exact decide_eq_true_iff

/-- When a spelling and its word compare equal: by the kinds of the two decoded
values. -/
theorem valuesMatch_spelling (std : StdText) (ignoreUnknown : Bool) (h : Spells word spelling) :
    valuesMatch std (vectorToChangeValue spelling)
        (if IsKnown word ∧ 1 < word.length ∧ word.length ≤ 128 then .integer (binaryValue word)
        else .text (vectorToString word)) ignoreUnknown = true ↔
      spelling.length = word.length ∨ (IsKnown word ∧ word.length ≤ 128) ∨
        (ignoreUnknown = true ∧ (spelling = [.x] ∨ spelling = [.z])) := by
  have hshort := h.short
  have hlengths : spelling = word ↔ spelling.length = word.length :=
    ⟨congrArg List.length, h.eq_of_length⟩
  rw [vectorToChangeValue_eq]
  by_cases hknown : IsKnown word
  · have hspelling := h.isKnown.mp hknown
    have hnot : ¬ (spelling = [.x] ∨ spelling = [.z]) := by
      rintro (rfl | rfl) <;> cases hspelling
    have hnot' : ¬ (word = [.x] ∨ word = [.z]) := by
      rintro (rfl | rfl) <;> cases hknown
    by_cases hfits : spelling.length ≤ 128
    · rw [if_pos ⟨hspelling, hfits⟩]
      by_cases hwide : 1 < word.length ∧ word.length ≤ 128
      · rw [if_pos ⟨hknown, hwide⟩, h.binaryValue hknown]
        have hself : valuesMatch std (.integer (binaryValue word)) (.integer (binaryValue word))
            ignoreUnknown = true := by
          simp [valuesMatch, isUnknown]
        exact ⟨fun _ => .inr (.inl ⟨hknown, hwide.2⟩), fun _ => hself⟩
      · rw [if_neg fun h' => hwide h'.2, valuesMatch_integer_text std _ hknown,
          normalize_eq_iff std h hknown hfits hwide]
        constructor
        · exact fun hle => .inr (.inl ⟨hknown, hle⟩)
        · rintro (hlength | hle | hunknown)
          · omega
          · exact hle.2
          · exact absurd hunknown.2 hnot
    · rw [if_neg fun h' => hfits h'.2, if_neg fun h' => by omega, valuesMatch_text, hlengths]
      constructor
      · rintro (hunknown | hlength)
        · rcases hunknown.2 with hx | hx
          · exact absurd hx hnot
          · exact absurd hx hnot'
        · exact .inl hlength
      · rintro (hlength | hle | hunknown)
        · exact .inr hlength
        · omega
        · exact absurd hunknown.2 hnot
  · rw [if_neg fun h' => hknown (h.isKnown.mpr h'.1), if_neg fun h' => hknown h'.1,
      valuesMatch_text, hlengths]
    constructor
    · rintro (⟨hignore, hx | hx⟩ | hlength)
      · exact .inr (.inr ⟨hignore, hx⟩)
      · have hpos : 0 < spelling.length := List.length_pos_iff.mpr h.nonempty
        have hone : word.length = 1 := by
          rcases hx with rfl | rfl <;> rfl
        exact .inl (by omega)
      · exact .inl hlength
    · rintro (hlength | hle | ⟨hignore, hx⟩)
      · exact .inr hlength
      · exact absurd hle.1 hknown
      · exact .inl ⟨hignore, .inl hx⟩

/-- **When the spellings of one word compare equal.** The two copies of the VCD
decoder always agree. Their value matches the value of the whole word in an FST
exactly when nothing is left out, when the word is known and fits 128 bits, or
when unknown values are ignored and the spelling is a single `x` or `z`. -/
theorem spelling_matches_iff (std : StdText) (ignoreUnknown : Bool) (word spelling : Vector4)
    (h : Spells word spelling) :
    (vectorToChangeValue spelling = vectorToChangeValueSelected spelling ∧
      ∃ value, fstValue (.string (digitalBytes word)) .digital = .ok value ∧
        valuesMatch std (vectorToChangeValue spelling) value ignoreUnknown = true) ↔
      spelling.length = word.length ∨ (IsKnown word ∧ word.length ≤ 128) ∨
        (ignoreUnknown = true ∧ (spelling = [.x] ∨ spelling = [.z])) := by
  rw [← valuesMatch_spelling std ignoreUnknown h, fstValue_digitalBytes]
  constructor
  · rintro ⟨-, value, hvalue, hmatch⟩
    rwa [← Except.ok.inj hvalue] at hmatch
  · exact fun hmatch => ⟨rfl, _, rfl, hmatch⟩

/-- Eight `x` bits, written as `bx`. -/
theorem spelling_matches_iff_bx :
    (vectorToChangeValue [.x] = vectorToChangeValueSelected [.x] ∧
      ∃ value, fstValue (.string (digitalBytes (List.replicate 8 .x))) .digital = .ok value ∧
        valuesMatch asciiText (vectorToChangeValue [.x]) value false = true) ↔
      [Value.x].length = (List.replicate 8 Value.x).length ∨
        (IsKnown (List.replicate 8 .x) ∧ (List.replicate 8 Value.x).length ≤ 128) ∨
        (false = true ∧ ([Value.x] = [.x] ∨ [Value.x] = [.z])) :=
  spelling_matches_iff asciiText false (List.replicate 8 .x) [.x] (by decide)

theorem spelling_bx_mismatch :
    ¬ ∀ (std : StdText) (ignoreUnknown : Bool) (word spelling : Vector4), Spells word spelling →
      vectorToChangeValue spelling = vectorToChangeValueSelected spelling ∧
        ∃ value, fstValue (.string (digitalBytes word)) .digital = .ok value ∧
          valuesMatch std (vectorToChangeValue spelling) value ignoreUnknown = true := by
  intro hall
  have hspells : Spells (List.replicate 8 .x) [.x] := by decide
  obtain ⟨-, value, hvalue, hmatch⟩ := hall asciiText false _ _ hspells
  rw [fstValue_digitalBytes] at hvalue
  rw [← Except.ok.inj hvalue, valuesMatch_spelling asciiText false hspells] at hmatch
  revert hmatch
  decide

end VcdTools.Query
