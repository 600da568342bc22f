import VcdTools.Lib.Fallible
import VcdTools.Lib.Utf8
import VcdTools.Query.FoundAgain
import VcdTools.Query.Spellings

/-! # Hexadecimal in a trace

`binary_to_hex_with_x` and `value_to_hex_string` of `vcd2trace`, and the digits
they should print for a word of 32 bits: one for each four bits, with an X
where one of them is unknown. -/
namespace VcdTools.Cli
open VcdTools.Lib VcdTools.Lib.Numeral VcdTools.Query

/-! ## The conversion -/

/-- `from_str_radix` of an unsigned integer below `bound`. -/
def fromStrRadix (bound radix : Nat) (text : List Char) : Option Nat :=
  let digits := if text.head? = some '+' then text.tail else text
  if digits = [] then none else readNumeral (toDigit radix) radix bound 0 digits

/-- The characters that stand for unknown bits. -/
def isUnknownChar (c : Char) : Bool := c = 'x' || c = 'X' || c = 'z' || c = 'Z'

/-- One round of the loop; `none` is a panic. -/
def hexChar (chunk : List UInt8) : Option Char := do
  let nibble ← String.fromUTF8? chunk.toByteArray
  if nibble.toList.any isUnknownChar then return 'X'
  let val := (fromStrRadix 256 2 nibble.toList).getD 0
  if val < 16 then return (Nat.digitChar val).toUpper else none

/-- `binary_to_hex_with_x`. -/
def binaryToHexWithX (binary : List Char) (widthBits : Nat) : Option String := do
  let padded := List.replicate (widthBits - binary.length) '0' ++ binary
  let hexChars ← (rchunks 4 (encodeUtf8 padded)).mapM hexChar
  return "0x" ++ String.ofList hexChars.reverse

/-- `value_to_hex_string`; the outer option is a panic. -/
def valueToHexString : ChangeValue → Option (Option String)
  | .integer i => some (some ("0x" ++ lowerHex 8 (i % 2 ^ 64)))
  | .text t =>
    let s := trim t.toList
    if s.any isUnknownChar then (binaryToHexWithX s 32).map some
    else match s with
      | '0' :: 'x' :: hex | '0' :: 'X' :: hex =>
        some ((fromStrRadix (2 ^ 64) 16 hex).map fun n => "0x" ++ lowerHex 8 n)
      | _ => some ((fromStrRadix (2 ^ 64) 10 s).map fun n => "0x" ++ lowerHex 8 n)
  | .float _ => some none

/-! ## The digits of a word -/

/-- Four bits at a time, first bits first. -/
def nibbles : Vector4 → List Vector4
  | a :: b :: c :: d :: rest => [a, b, c, d] :: nibbles rest
  | [] => []
  | short => [short]

/-- The digit of four bits. -/
def nibbleDigit (nibble : Vector4) : Char :=
  if IsKnown nibble then Nat.digitChar (binaryValue nibble) else 'x'

/-- **What should be printed** for a word that is written as `spelling`: `0x`
and eight digits, those of the word, in either case. -/
def ShowsWord (word spelling : Vector4) : Prop :=
  ∃ digits : List Char,
    valueToHexString (vectorToChangeValue spelling) = some (some ("0x" ++ String.ofList digits)) ∧
      digits.length = 8 ∧ digits.map Char.toLower = (nibbles word).map nibbleDigit

/-- The spellings that are converted right: those that begin with a known digit,
and those that reach into the first four bits. -/
def HexReady : Vector4 → Prop
  | [] => False
  | first :: rest => first.isKnown = true ∨ 29 ≤ rest.length + 1

instance (spelling : Vector4) : Decidable (HexReady spelling) :=
  match spelling with
  | [] => inferInstanceAs (Decidable False)
  | first :: rest => inferInstanceAs (Decidable (first.isKnown = true ∨ 29 ≤ rest.length + 1))

/-- What is converted in place of the word: the spelling behind zeros. -/
def zeroPadded (spelling : Vector4) : Vector4 :=
  List.replicate (32 - spelling.length) .v0 ++ spelling

variable {word spelling spelling' : Vector4}

/-! ## Nibbles -/

theorem flatten_nibbles (word : Vector4) : (nibbles word).flatten = word := by
  fun_induction nibbles word with
  | case1 a b c d rest ih => rw [List.flatten_cons, ih]; rfl
  | case2 => rfl
  | case3 short => exact List.flatten_singleton

theorem nibbles_append {nibble : Vector4} (h : nibble.length = 4) (rest : Vector4) :
    nibbles (nibble ++ rest) = nibble :: nibbles rest := by
  match nibble, h with
  | [a, b, c, d], _ => rfl

/-- Words of whole nibbles. -/
inductive Whole : Vector4 → Prop
  | empty : Whole []
  | cons (nibble rest : Vector4) : nibble.length = 4 → Whole rest → Whole (nibble ++ rest)

theorem Whole.of_length {n : Nat} (h : word.length = 4 * n) : Whole word := by
  induction n generalizing word with
  | zero =>
    rw [List.length_eq_zero_iff.mp h]
    exact .empty
  | succ n ih =>
    rw [← List.take_append_drop 4 word]
    exact .cons _ _ (by rw [List.length_take]; omega) (ih (by rw [List.length_drop]; omega))

theorem Whole.length_eq (h : Whole word) : word.length = 4 * (nibbles word).length := by
  induction h with
  | empty => rfl
  | cons nibble rest hnibble _ ih =>
    rw [nibbles_append hnibble, List.length_append, List.length_cons, hnibble, ih]
    omega

theorem Whole.length_of_mem (h : Whole word) : ∀ nibble ∈ nibbles word, nibble.length = 4 := by
  induction h with
  | empty => exact fun _ h => nomatch h
  | cons nibble rest hnibble _ ih =>
    rw [nibbles_append hnibble]
    exact List.forall_mem_cons.mpr ⟨hnibble, ih⟩

/-! ## Known words -/

theorem binaryFrom_append (acc : Nat) (front rest : Vector4) :
    binaryFrom acc (front ++ rest) = binaryFrom (binaryFrom acc front) rest :=
  List.foldl_append

/-- Four bits on top of the digits before them. -/
theorem binaryFrom_nibble (acc : Nat) {nibble : Vector4} (h : nibble.length = 4) :
    binaryFrom acc nibble = 16 * acc + binaryValue nibble := by
  match nibble, h with
  | [a, b, c, d], _ =>
    simp only [binaryValue, binaryFrom, List.foldl_cons, List.foldl_nil]
    omega

theorem binaryValue_nibble_lt {nibble : Vector4} (h : nibble.length = 4) :
    binaryValue nibble < 16 := by
  have hlt := binaryFrom_lt (by decide : 0 < 2 ^ 0) nibble
  rwa [h] at hlt

theorem isKnown_append {front rest : Vector4} :
    IsKnown (front ++ rest) ↔ IsKnown front ∧ IsKnown rest := by
  rw [IsKnown, List.all_append, Bool.and_eq_true]

theorem nibbleDigit_known {nibble : Vector4} (h : IsKnown nibble) :
    nibbleDigit nibble = Nat.digitChar (binaryValue nibble) := if_pos h

/-- The hexadecimal digits of a number grow by one for each nibble behind it. -/
theorem toDigits_binaryFrom (h : Whole word) (hknown : IsKnown word) {acc : Nat} (hacc : 0 < acc) :
    Nat.toDigits 16 (binaryFrom acc word) = Nat.toDigits 16 acc ++ (nibbles word).map nibbleDigit := by
  induction h generalizing acc with
  | empty => exact (List.append_nil _).symm
  | cons nibble rest hnibble _ ih =>
    obtain ⟨hnibble_known, hrest_known⟩ := isKnown_append.mp hknown
    have hlt := binaryValue_nibble_lt hnibble
    have hdigits : Nat.toDigits 16 (16 * acc + binaryValue nibble) =
        Nat.toDigits 16 acc ++ [nibbleDigit nibble] := by
      have hdiv : (16 * acc + binaryValue nibble) / 16 = acc := by omega
      have hmod : (16 * acc + binaryValue nibble) % 16 = binaryValue nibble := by omega
      rw [Nat.toDigits_of_base_le (by decide) (by omega), hdiv, hmod,
        nibbleDigit_known hnibble_known]
    rw [binaryFrom_append, binaryFrom_nibble acc hnibble, ih hrest_known (by omega), hdigits,
      nibbles_append hnibble, List.append_assoc]
    rfl

/-- **A known word prints as its nibbles**, with zeros in front. -/
theorem lowerHex_binaryValue (h : Whole word) (hne : word ≠ []) (hknown : IsKnown word) :
    (lowerHex (nibbles word).length (binaryValue word)).toList =
      (nibbles word).map nibbleDigit := by
  induction h with
  | empty => exact absurd rfl hne
  | cons nibble rest hnibble hrest ih =>
    obtain ⟨hnibble_known, hrest_known⟩ := isKnown_append.mp hknown
    have hlt := binaryValue_nibble_lt hnibble
    have hvalue : binaryValue (nibble ++ rest) = binaryFrom (binaryValue nibble) rest := by
      rw [binaryValue, binaryFrom_append, binaryValue]
    rw [nibbles_append hnibble, List.length_cons, List.map_cons, hvalue, lowerHex_toList,
      nibbleDigit_known hnibble_known]
    obtain hzero | hpos := Nat.eq_zero_or_pos (binaryValue nibble)
    · rw [hzero]
      by_cases hempty : rest = []
      · rw [hempty]
        rfl
      · have hih := ih hempty hrest_known
        rw [lowerHex_toList] at hih
        have hcount : 0 < (nibbles rest).length := by
          have hlength := hrest.length_eq
          have hrest_pos := List.length_pos_iff.mpr hempty
          omega
        have hdigits : (Nat.toDigits 16 (binaryValue rest)).length ≤ (nibbles rest).length := by
          have hlength := congrArg List.length hih
          rw [List.length_append, List.length_replicate, List.length_map] at hlength
          omega
        have hzeros : (nibbles rest).length + 1 - (Nat.toDigits 16 (binaryValue rest)).length =
            (nibbles rest).length - (Nat.toDigits 16 (binaryValue rest)).length + 1 := by
          omega
        rw [← hih]
        show List.replicate ((nibbles rest).length + 1 -
          (Nat.toDigits 16 (binaryValue rest)).length) '0' ++ Nat.toDigits 16 (binaryValue rest) = _
        rw [hzeros, List.replicate_succ]
        rfl
    · rw [toDigits_binaryFrom hrest hrest_known hpos, Nat.toDigits_of_lt_base hlt]
      have hlength : ([Nat.digitChar (binaryValue nibble)] ++
          (nibbles rest).map nibbleDigit).length = (nibbles rest).length + 1 := by
        rw [List.length_append, List.length_map, List.length_singleton, Nat.add_comm]
      rw [hlength, Nat.sub_self]
      rfl

/-! ## Unknown words -/

theorem isUnknownChar_toChar (value : Value) : isUnknownChar value.toChar = !value.isKnown := by
  cases value <;> rfl

theorem any_isUnknownChar (vector : Vector4) :
    (vector.map Value.toChar).any isUnknownChar = true ↔ ¬ IsKnown vector := by
  rw [List.any_map, IsKnown, Bool.not_eq_true, ← Bool.not_eq_true', List.not_all_eq_any_not]
  exact iff_of_eq (congrArg (vector.any · = true) (funext isUnknownChar_toChar))

theorem toDigit_toChar {value : Value} (h : value.isKnown = true) :
    toDigit 2 value.toChar = some (Value.bit value) := by
  cases value with
  | v0 | v1 => rfl
  | x | z => cases h

/-- A known word reads as its number. -/
theorem readNumeral_binary {bound acc k : Nat} (hacc : acc < 2 ^ k) (hknown : IsKnown word)
    (hbound : 2 ^ (k + word.length) ≤ bound) :
    readNumeral (toDigit 2) 2 bound acc (word.map Value.toChar) = some (binaryFrom acc word) := by
  induction word generalizing acc k with
  | nil => rfl
  | cons value rest ih =>
    rw [IsKnown, List.all_cons, Bool.and_eq_true] at hknown
    rw [List.length_cons] at hbound
    have hbit := Value.bit_lt value
    have hnext : 2 * acc + Value.bit value < 2 ^ (k + 1) := by
      rw [Nat.pow_succ]
      omega
    have hfits : acc * 2 + Value.bit value < bound := by
      have hle : 2 ^ (k + 1) ≤ 2 ^ (k + (rest.length + 1)) :=
        Nat.pow_le_pow_right (by decide) (by omega)
      omega
    have hdigit : readDigit (toDigit 2) 2 bound acc value.toChar =
        some (2 * acc + Value.bit value) :=
      readDigit_eq_some.mpr ⟨_, toDigit_toChar hknown.1, by omega, by omega⟩
    have hrest := ih hnext hknown.2 (by rwa [Nat.add_assoc, Nat.add_comm 1])
    unfold readNumeral at hrest ⊢
    rw [List.map_cons, List.foldlM_cons, hdigit]
    exact hrest

/-- The bytes of a word. -/
def bytesOf (vector : Vector4) : List UInt8 := encodeUtf8 (vector.map Value.toChar)

theorem fromUTF8_bytesOf (vector : Vector4) :
    String.fromUTF8? (bytesOf vector).toByteArray = some (vectorToString vector) := by
  have hbytes : (bytesOf vector).toByteArray = (vectorToString vector).toByteArray :=
    (String.toByteArray_ofList).symm
  unfold String.fromUTF8?
  rw [hbytes]
  exact dif_pos (vectorToString vector).isValidUTF8

/-- **One round prints the digit of its four bits**, in the one case or the other. -/
theorem hexChar_bytesOf {nibble : Vector4} (h : nibble.length = 4) :
    hexChar (bytesOf nibble) = some (nibbleDigit nibble).toUpper := by
  unfold hexChar
  rw [fromUTF8_bytesOf, Option.bind_eq_bind, Option.bind_some, toList_vectorToString]
  by_cases hknown : IsKnown nibble
  · have hany : ¬ (nibble.map Value.toChar).any isUnknownChar = true :=
      fun hany => (any_isUnknownChar nibble).mp hany hknown
    have hread : fromStrRadix 256 2 (nibble.map Value.toChar) = some (binaryValue nibble) := by
      have hplus : (nibble.map Value.toChar).head? ≠ some '+' := by
        match nibble, h with
        | value :: _, _ => cases value <;> exact fun h => nomatch h
      have hne : nibble.map Value.toChar ≠ [] :=
        List.ne_nil_of_length_pos (by rw [List.length_map]; omega)
      rw [fromStrRadix, if_neg hplus, if_neg hne]
      exact readNumeral_binary (k := 0) (by decide) hknown (by rw [h]; decide)
    rw [if_neg hany, hread, Option.getD_some, if_pos (binaryValue_nibble_lt h),
      nibbleDigit_known hknown]
    rfl
  · rw [if_pos ((any_isUnknownChar nibble).mpr hknown), nibbleDigit, if_neg hknown]
    rfl

theorem bytesOf_flatten (vectors : List Vector4) :
    bytesOf vectors.flatten = (vectors.map bytesOf).flatten := by
  induction vectors with
  | nil => rfl
  | cons vector rest ih =>
    rw [List.map_cons, List.flatten_cons, List.flatten_cons, ← ih]
    simp [bytesOf, encodeUtf8, List.flatMap_append]

theorem length_bytesOf (vector : Vector4) : (bytesOf vector).length = vector.length := by
  rw [bytesOf, encodeUtf8, List.flatMap_map, List.length_flatMap]
  have hsize : ∀ value : Value, (String.utf8EncodeChar value.toChar).length = 1 := by
    intro value
    cases value <;> rfl
  simp [hsize]

/-- **A text of whole nibbles is converted nibble by nibble.** -/
theorem binaryToHexWithX_eq {text padded : Vector4} {widthBits : Nat}
    (hpadded : List.replicate (widthBits - text.length) Value.v0 ++ text = padded)
    (h : Whole padded) :
    binaryToHexWithX (text.map Value.toChar) widthBits =
      some ("0x" ++ String.ofList ((nibbles padded).map fun nibble =>
        (nibbleDigit nibble).toUpper)) := by
  have hbytes : encodeUtf8 (List.replicate (widthBits - (text.map Value.toChar).length) '0' ++
      text.map Value.toChar) = ((nibbles padded).map bytesOf).flatten := by
    rw [← bytesOf_flatten, flatten_nibbles, bytesOf, ← hpadded, List.map_append, List.length_map,
      List.map_replicate]
    rfl
  have hchunks : rchunks 4 ((nibbles padded).map bytesOf).flatten =
      (nibbles padded).reverse.map bytesOf := by
    rw [rchunks_flatten (by decide), List.map_reverse]
    intro block hblock
    obtain ⟨nibble, hnibble, rfl⟩ := List.mem_map.mp hblock
    rw [length_bytesOf, h.length_of_mem nibble hnibble]
  have hhex : ((nibbles padded).reverse.map bytesOf).mapM hexChar =
      some ((nibbles padded).reverse.map fun nibble => (nibbleDigit nibble).toUpper) :=
    Fallible.mapM_map_eq_some fun nibble hnibble =>
      hexChar_bytesOf (h.length_of_mem nibble (List.mem_reverse.mp hnibble))
  rw [binaryToHexWithX, hbytes, hchunks, hhex, Option.bind_eq_bind, Option.bind_some,
    ← List.map_reverse, List.reverse_reverse]
  rfl

/-! ## The conversion of a spelling -/

theorem length_zeroPadded (h : spelling.length ≤ 32) : (zeroPadded spelling).length = 32 := by
  rw [zeroPadded, List.length_append, List.length_replicate]
  omega

theorem whole_zeroPadded (h : spelling.length ≤ 32) : Whole (zeroPadded spelling) :=
  .of_length (n := 8) (length_zeroPadded h)

theorem nibbles_zeroPadded (h : spelling.length ≤ 32) : (nibbles (zeroPadded spelling)).length = 8 := by
  have hlength := (whole_zeroPadded h).length_eq
  rw [length_zeroPadded h] at hlength
  omega

theorem isKnown_zeroPadded (spelling : Vector4) : IsKnown (zeroPadded spelling) ↔ IsKnown spelling := by
  rw [zeroPadded, isKnown_append, IsKnown, List.all_replicate]
  simp [Value.isKnown]

theorem isWhitespace_toChar (value : Value) : isWhitespace value.toChar = false := by
  cases value <;> rfl

/-- The digits that are printed for a spelling. -/
def shownDigits (spelling : Vector4) : List Char :=
  (nibbles (zeroPadded spelling)).map fun nibble =>
    if IsKnown spelling then nibbleDigit nibble else (nibbleDigit nibble).toUpper

/-- **What is printed is the spelling behind zeros**, a digit for each four bits. -/
theorem valueToHexString_eq (hne : spelling ≠ []) (h : spelling.length ≤ 32) :
    valueToHexString (vectorToChangeValue spelling) =
      some (some ("0x" ++ String.ofList (shownDigits spelling))) := by
  rw [vectorToChangeValue_eq, shownDigits]
  by_cases hknown : IsKnown spelling
  · have hvalue : binaryValue spelling < 2 ^ 64 := by
      have hlt := binaryFrom_lt (by decide : 0 < 2 ^ 0) spelling
      exact hlt.trans_le (Nat.pow_le_pow_right (by decide) (by omega))
    have hdigits := lowerHex_binaryValue (whole_zeroPadded h)
      (List.append_ne_nil_of_right_ne_nil _ hne) ((isKnown_zeroPadded spelling).mpr hknown)
    rw [nibbles_zeroPadded h, zeroPadded, binaryValue_replicate, ← zeroPadded] at hdigits
    have hshown : lowerHex 8 (binaryValue spelling) = String.ofList _ :=
      String.toList_inj.mp (hdigits.trans String.toList_ofList.symm)
    simp only [if_pos hknown]
    rw [if_pos ⟨hknown, by omega⟩, valueToHexString, Nat.mod_eq_of_lt hvalue, hshown]
  · have htrim : trim (spelling.map Value.toChar) = spelling.map Value.toChar := by
      refine trim_eq_self fun c hc => ?_
      obtain ⟨value, -, rfl⟩ := List.mem_map.mp hc
      exact isWhitespace_toChar value
    simp only [if_neg hknown]
    rw [if_neg fun h => hknown h.1, valueToHexString, toList_vectorToString, htrim]
    rw [if_pos ((any_isUnknownChar spelling).mpr hknown), binaryToHexWithX_eq rfl (whole_zeroPadded h)]
    rfl

/-! ## The word behind a spelling -/

theorem toLower_nibbleDigit {nibble : Vector4} (h : nibble.length = 4) :
    (nibbleDigit nibble).toLower = nibbleDigit nibble ∧
      (nibbleDigit nibble).toUpper.toLower = nibbleDigit nibble := by
  have hdigit : ∀ d < 16, (Nat.digitChar d).toLower = Nat.digitChar d ∧
      (Nat.digitChar d).toUpper.toLower = Nat.digitChar d := by decide
  by_cases hknown : IsKnown nibble
  · rw [nibbleDigit_known hknown]
    exact hdigit _ (binaryValue_nibble_lt h)
  · rw [nibbleDigit, if_neg hknown]
    exact ⟨rfl, rfl⟩

theorem toLower_shownDigits (h : spelling.length ≤ 32) :
    (shownDigits spelling).map Char.toLower = (nibbles (zeroPadded spelling)).map nibbleDigit := by
  rw [shownDigits, List.map_map]
  refine List.map_congr_left fun nibble hnibble => ?_
  obtain ⟨hlower, hupper⟩ := toLower_nibbleDigit ((whole_zeroPadded h).length_of_mem nibble hnibble)
  by_cases hknown : IsKnown spelling
  · rw [Function.comp_apply, if_pos hknown, hlower]
  · rw [Function.comp_apply, if_neg hknown, hupper]

/-- A digit of four bits is an x exactly when one of them is unknown. -/
theorem nibbleDigit_eq_x {nibble : Vector4} (h : nibble.length = 4) :
    nibbleDigit nibble = 'x' ↔ ¬ IsKnown nibble := by
  have hdigit : ∀ d < 16, Nat.digitChar d ≠ 'x' := by decide
  by_cases hknown : IsKnown nibble
  · rw [nibbleDigit_known hknown]
    exact iff_of_false (hdigit _ (binaryValue_nibble_lt h)) fun hnot => hnot hknown
  · rw [nibbleDigit, if_neg hknown]
    exact iff_of_true rfl hknown

/-- Digits left out of the first four bits do not show beside an unknown one. -/
theorem nibbles_reaching {n : Nat} {first : Value} {rest : Vector4} (value : Value)
    (hn : n ≤ 3) (hrest : 3 ≤ n + rest.length) (hfirst : ¬ first.isKnown = true) :
    (nibbles (List.replicate n value ++ first :: rest)).map nibbleDigit =
      'x' :: (nibbles (rest.drop (3 - n))).map nibbleDigit := by
  have hsplit : List.replicate n value ++ first :: rest =
      (List.replicate n value ++ first :: rest.take (3 - n)) ++ rest.drop (3 - n) := by
    rw [List.append_assoc, List.cons_append, List.take_append_drop]
  have htop : (List.replicate n value ++ first :: rest.take (3 - n)).length = 4 := by
    rw [List.length_append, List.length_replicate, List.length_cons, List.length_take]
    omega
  have hunknown : ¬ IsKnown (List.replicate n value ++ first :: rest.take (3 - n)) := by
    rw [isKnown_append, IsKnown, IsKnown, List.all_cons, Bool.and_eq_true]
    exact fun h => hfirst h.2.1
  rw [hsplit, nibbles_append htop, List.map_cons, (nibbleDigit_eq_x htop).mpr hunknown]

/-- Four digits left out are a digit of their own. -/
theorem nibbles_leading {n : Nat} (value : Value) (hn : 4 ≤ n) (rest : Vector4) :
    ((nibbles (List.replicate n value ++ rest)).map nibbleDigit).head? =
      some (nibbleDigit (List.replicate 4 value)) := by
  have hsplit : List.replicate n value ++ rest =
      List.replicate 4 value ++ (List.replicate (n - 4) value ++ rest) := by
    rw [← List.append_assoc, List.replicate_append_replicate, Nat.add_sub_cancel' hn]
  rw [hsplit, nibbles_append List.length_replicate]
  rfl

/-- **Zeros stand for the digits left out** when these are zeros, and when they
are unknown and all among the first four with one that is written. -/
theorem nibbles_zeroPadded_iff (hword : Spells word spelling) (hlength : word.length = 32) :
    (nibbles (zeroPadded spelling)).map nibbleDigit = (nibbles word).map nibbleDigit ↔
      HexReady spelling := by
  have hextended := hword.extended
  have hshort := hword.short
  rw [hlength] at hextended hshort
  cases spelling with
  | nil => exact absurd rfl hword.nonempty
  | cons first rest =>
    rw [extendLeft] at hextended
    rw [List.length_cons] at hshort
    rw [zeroPadded, List.length_cons, ← hextended]
    by_cases hknown : first.isKnown = true
    · have hfill : Value.fill first = .v0 := by
        cases first with
        | v0 | v1 => rfl
        | x | z => cases hknown
      rw [hfill]
      exact iff_of_true rfl (.inl hknown)
    · have hfill : (Value.fill first).isKnown = false := by
        rw [Value.isKnown_fill]
        exact Bool.eq_false_iff.mpr hknown
      by_cases hreach : 29 ≤ rest.length + 1
      · refine iff_of_true ?_ (.inr hreach)
        rw [nibbles_reaching .v0 (by omega) (by omega) hknown,
          nibbles_reaching _ (by omega) (by omega) hknown]
      · refine iff_of_false (fun heq => ?_) fun h => h.elim hknown hreach
        have hhead := congrArg List.head? heq
        have hzero : nibbleDigit (List.replicate 4 .v0) = '0' := rfl
        have hunknown : ¬ IsKnown (List.replicate 4 (Value.fill first)) := by
          simp [IsKnown, hfill]
        have hx := (nibbleDigit_eq_x List.length_replicate).mpr hunknown
        rw [nibbles_leading .v0 (by omega), nibbles_leading _ (by omega), hzero, hx] at hhead
        cases hhead

theorem showsWord_iff (hword : Spells word spelling) (hlength : word.length = 32) :
    ShowsWord word spelling ↔ HexReady spelling := by
  have hshort : spelling.length ≤ 32 := hlength ▸ hword.short
  have hshown := valueToHexString_eq hword.nonempty hshort
  have hcount : (shownDigits spelling).length = 8 := by
    rw [shownDigits, List.length_map, nibbles_zeroPadded hshort]
  rw [← nibbles_zeroPadded_iff hword hlength, ← toLower_shownDigits hshort]
  constructor
  · intro ⟨digits, hdigits, _, hlower⟩
    rw [hshown] at hdigits
    have htext := congrArg String.toList (Option.some.inj (Option.some.inj hdigits))
    rw [String.toList_append, String.toList_append, List.append_cancel_left_eq,
      String.toList_ofList, String.toList_ofList] at htext
    rw [htext, hlower]
  · exact fun hlower => ⟨_, hshown, hcount, hlower⟩

/-- Spellings of one word that are ready are converted alike. -/
theorem valueToHexString_congr (hword : Spells word spelling) (hword' : Spells word spelling')
    (hlength : word.length = 32) (h : HexReady spelling) (h' : HexReady spelling') :
    valueToHexString (vectorToChangeValue spelling) =
      valueToHexString (vectorToChangeValue spelling') := by
  have hdigits := (nibbles_zeroPadded_iff hword hlength).mpr h
  rw [← (nibbles_zeroPadded_iff hword' hlength).mpr h'] at hdigits
  have hknown : IsKnown spelling ↔ IsKnown spelling' := hword.isKnown.symm.trans hword'.isKnown
  have hshown : ∀ s : Vector4, shownDigits s =
      ((nibbles (zeroPadded s)).map nibbleDigit).map fun c =>
        if IsKnown s then c else c.toUpper := by
    intro s
    rw [shownDigits, List.map_map]
    rfl
  rw [valueToHexString_eq hword.nonempty (hlength ▸ hword.short),
    valueToHexString_eq hword'.nonempty (hlength ▸ hword'.short), hshown, hshown, hdigits]
  simp only [hknown]

/-- **The hexadecimal of a spelling is that of its word exactly when it is
ready**, and two spellings of one word give it alike exactly when both are. -/
theorem hex_string_iff (hword : Spells word spelling) (hword' : Spells word spelling')
    (hlength : word.length = 32) :
    (ShowsWord word spelling ↔ HexReady spelling) ∧
      (ShowsWord word spelling ∧ ShowsWord word spelling' ∧
          valueToHexString (vectorToChangeValue spelling) =
            valueToHexString (vectorToChangeValue spelling') ↔
        HexReady spelling ∧ HexReady spelling') := by
  refine ⟨showsWord_iff hword hlength, ?_⟩
  rw [showsWord_iff hword hlength, showsWord_iff hword' hlength]
  exact ⟨fun h => ⟨h.1, h.2.1⟩,
    fun h => ⟨h.1, h.2, valueToHexString_congr hword hword' hlength h.1 h.2⟩⟩

/-- Two spellings of a word that ends in an x and a 1, with zeros before them. -/
theorem hex_string_zeros :
    let word := List.replicate 30 Value.v0 ++ [.x, .v1]
    ShowsWord word [.v0, .x, .v1] ∧ ShowsWord word [.v0, .v0, .x, .v1] ∧
      valueToHexString (vectorToChangeValue [.v0, .x, .v1]) =
        valueToHexString (vectorToChangeValue [.v0, .v0, .x, .v1]) :=
  (hex_string_iff (by decide) (by decide) rfl).2.mpr ⟨.inl rfl, .inl rfl⟩

/-- A word of 32 x's that is written as one is printed as `0x0000000X`. -/
theorem hex_string_short :
    Spells (List.replicate 32 .x) [.x] ∧ ¬ ShowsWord (List.replicate 32 .x) [.x] ∧
      valueToHexString (vectorToChangeValue [.x]) = some (some "0x0000000X") ∧
      valueToHexString (vectorToChangeValue (List.replicate 32 .x)) =
        some (some "0xXXXXXXXX") := by
  have hword : Spells (List.replicate 32 .x) [.x] := by decide
  refine ⟨hword, fun h => ?_, ?_, ?_⟩
  · obtain hknown | hreach := (showsWord_iff hword rfl).mp h
    · cases hknown
    · exact absurd hreach (by decide)
  · rw [valueToHexString_eq (List.cons_ne_nil _ _) (by decide)]
    rfl
  · rw [valueToHexString_eq (by decide : List.replicate 32 Value.x ≠ []) (by decide)]
    rfl

end VcdTools.Cli
