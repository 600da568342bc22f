import VcdTools.Query.FoundAgain
import VcdTools.Query.Toggles

/-! # Values in the width of their signal

The sizes for which `format_value_for_signal` of `lib.rs` does not panic, what it
prints for integers, and what this means for a count of toggles. -/
namespace VcdTools.Query
open VcdTools.Lib VcdTools.Lib.Iter VcdTools.Lib.Numeral

/-- The sizes for which the width can be computed and is one that `format!` takes. -/
structure Sized (std : StdText) (size : Nat) : Prop where
  sum : size + 3 ≤ u32Max
  width : (size + 3) / 4 ≤ std.maxWidth

/-- The digits of a formatted value, without the `0x`. -/
def digitsOf (text : String) : List Char :=
  match text.toList with
  | '0' :: 'x' :: digits => digits
  | digits => digits

/-- **What a formatting of integers should do** for a size. -/
structure Faithful (std : StdText) (size : UInt32) : Prop where
  computes : ∀ i, (formatValueForSignal std (.integer i) size.toNat).isSome
  digits : ∀ i text, formatValueForSignal std (.integer i) size.toNat = some text →
    (digitsOf text).length = max ((size.toNat + 3) / 4) (Nat.toDigits 16 i).length
  injective : ∀ i j, formatValueForSignal std (.integer i) size.toNat =
    formatValueForSignal std (.integer j) size.toNat → i = j

/-- The values of a name, in the order of the rows. -/
def valuesOf (name : String) (rows : List TimeValue) : List ChangeValue :=
  (rows.filter fun row => row.signal = name).map (·.value)

variable {std : StdText} {size : Nat}

/-! ## Hexadecimal -/

theorem length_lowerHex (width n : Nat) :
    (lowerHex width n).toList.length = max width (Nat.toDigits 16 n).length := by
  rw [lowerHex_toList, List.length_append, List.length_replicate]
  omega

theorem lowerHex_injective {width width' n m : Nat} (h : lowerHex width n = lowerHex width' m) :
    n = m := by
  have hdigits := congrArg String.toList h
  rw [lowerHex_toList, lowerHex_toList] at hdigits
  exact toDigits_padded_injective toDigit_digitChar_sixteen (by decide) hdigits

theorem digitsOf_hex (text : String) : digitsOf ("0x" ++ text) = text.toList := by
  rw [digitsOf, String.toList_append]
  rfl

/-! ## One value -/

theorem hexWidth_eq (h : Sized std size) : hexWidth size = (size + 3) / 4 := by
  have hsum := h.sum
  have hmod : (size + 3) % 2 ^ 32 = size + 3 :=
    Nat.mod_eq_of_lt (by unfold u32Max at hsum; omega)
  rw [hexWidth, hmod]

/-- **A size that is in range** has a text for every value. -/
theorem formats_sized (h : Sized std size) (value : ChangeValue) : Formats std value size := by
  cases value with
  | integer i =>
    intro _
    exact ⟨fun hoverflow => Nat.not_lt.mpr h.sum hoverflow.2, hexWidth_eq h ▸ h.width⟩
  | float f => trivial
  | text t => trivial

theorem formatValueForSignal_sized (h : Sized std size) (value : ChangeValue) :
    formatValueForSignal std value size = some (formatted std value size) :=
  formatValueForSignal_eq_some.mpr ⟨formats_sized h value, rfl⟩

theorem formatted_wide (hsize : 1 < size) (h : Sized std size) (i : Nat) :
    formatted std (.integer i) size = "0x" ++ lowerHex ((size + 3) / 4) i := by
  rw [formatted, if_pos hsize, hexWidth_eq h]

theorem formatted_bit (hsize : size ≤ 1) (i : Nat) :
    formatted std (.integer i) size = Nat.repr i :=
  if_neg (Nat.not_lt.mpr hsize)

/-- **No two integers are formatted alike**, in whatever width. -/
theorem formatted_injective (std : StdText) (size : Nat) {i j : Nat}
    (h : formatted std (.integer i) size = formatted std (.integer j) size) : i = j := by
  by_cases hsize : size > 1
  · rw [formatted, formatted, if_pos hsize, if_pos hsize] at h
    have hchars := congrArg String.toList h
    rw [String.toList_append, String.toList_append] at hchars
    exact lowerHex_injective (String.toList_inj.mp (List.append_cancel_left hchars))
  · rw [formatted_bit (Nat.le_of_not_lt hsize), formatted_bit (Nat.le_of_not_lt hsize)] at h
    exact Decimal.repr_injective h

theorem formatted_ne_empty (std : StdText) (size i : Nat) :
    formatted std (.integer i) size ≠ "" := by
  intro h
  by_cases hsize : size > 1
  · rw [formatted, if_pos hsize] at h
    have hchars := congrArg String.toList h
    rw [String.toList_append] at hchars
    cases hchars
  · rw [formatted_bit (Nat.le_of_not_lt hsize)] at h
    have hchars : Nat.toDigits 10 i = [] := (Nat.toList_repr).symm.trans (congrArg String.toList h)
    exact absurd hchars (List.ne_nil_of_length_pos Nat.length_toDigits_pos)

theorem formatInteger_injective (h : Sized std size) {i j : Nat}
    (hsame : formatValueForSignal std (.integer i) size =
      formatValueForSignal std (.integer j) size) : i = j := by
  rw [formatValueForSignal_sized h, formatValueForSignal_sized h] at hsame
  exact formatted_injective std size (Option.some.inj hsame)

theorem faithful_wide {size : UInt32} (hsize : 1 < size.toNat) (h : Sized std size.toNat) :
    Faithful std size where
  computes i := by rw [formatValueForSignal_sized h]; rfl
  digits i text htext := by
    rw [formatValueForSignal_sized h, formatted_wide hsize h] at htext
    cases htext
    rw [digitsOf_hex, length_lowerHex]
  injective _ _ := formatInteger_injective h

/-! ## A count of toggles -/

variable {opened : OpenedVcd} {targets : List String} {window : TimeWindow}
  {context : QueryContext} {rows : List TimeValue}

theorem formattedOf_integers {name : String} {values : List Nat}
    (h : valuesOf name rows = values.map .integer) :
    formattedOf std size name rows = values.map fun i => formatted std (.integer i) size := by
  have hformat : formattedOf std size name rows =
      (valuesOf name rows).map fun value => formatted std value size := by
    rw [valuesOf, List.map_map]
    rfl
  rw [hformat, h, List.map_map]
  rfl

/-- Rows of signals whose sizes are in range have texts. -/
theorem printable_sized
    (h : ∀ name ∈ targets, ∀ found, opened.signal name = some found → Sized std found.size) :
    Printable std (opened.targetSizes targets) rows := by
  intro row _
  cases hsize : opened.targetSizes targets row.signal with
  | some size =>
    obtain ⟨htarget, hwidth⟩ := Option.ite_none_right_eq_some.mp hsize
    obtain ⟨found, hfound, rfl⟩ := Option.map_eq_some_iff.mp hwidth
    exact formats_sized (h row.signal htarget found hfound) row.value
  | none =>
    cases row.value with
    | integer i => exact fun hwide => absurd hwide (Nat.lt_irrefl 1)
    | float f => trivial
    | text t => trivial

/-- **The toggles of a name whose values are integers** are its changes. -/
theorem countToggles_integers
    (hsized : ∀ name ∈ targets, ∀ found, opened.signal name = some found → Sized std found.size)
    (h : opened.extractRows targets window context = .ok rows) :
    ∃ counts, opened.countToggles std targets window context = some (.ok counts) ∧
      ∀ name ∈ targets, ∀ found, opened.signal name = some found →
        ∀ values : List Nat, valuesOf name rows = values.map .integer →
          counts name = some (countAdjacent (fun a b => a ≠ b) values) := by
  obtain ⟨counts, hcounts, hname⟩ := (countToggles_rows std h).1 (printable_sized hsized)
  refine ⟨counts, hcounts, fun name htarget found hfound values hvalues => ?_⟩
  rw [hname name htarget found hfound, formattedOf_integers hvalues, countAdjacent_map]
  refine congrArg some (congrArg (fun p => countAdjacent p values) ?_)
  funext a b
  rw [Bool.eq_iff_iff, countedPair_iff, decide_eq_true_iff]
  exact ⟨fun hpair heq => hpair.2 (heq ▸ rfl), fun hne =>
    ⟨formatted_ne_empty std _ a, fun heq => hne (formatted_injective std _ heq)⟩⟩

/-- **Formatting in the width of the signal.** For a size whose width can be
computed, every value is formatted and no two integers alike: from two bits on
in hexadecimal, in as many digits as the size and the value need, below in
decimal. A name whose values are integers has as many toggles as changes. -/
theorem format_value_faithful (std : StdText) :
    (∀ size : UInt32, Sized std size.toNat →
      (1 < size.toNat → Faithful std size) ∧
      (size.toNat ≤ 1 → ∀ i,
        formatValueForSignal std (.integer i) size.toNat = some (Nat.repr i)) ∧
      (∀ i j, formatValueForSignal std (.integer i) size.toNat =
        formatValueForSignal std (.integer j) size.toNat → i = j) ∧
      ∀ value, formatValueForSignal std value size.toNat =
        some (formatted std value size.toNat)) ∧
    ∀ (opened : OpenedVcd) (targets : List String) (window : TimeWindow) (context : QueryContext)
      (rows : List TimeValue),
      (∀ name ∈ targets, ∀ found, opened.signal name = some found → Sized std found.size) →
      opened.extractRows targets window context = .ok rows →
      ∃ counts, opened.countToggles std targets window context = some (.ok counts) ∧
        ∀ name ∈ targets, ∀ found, opened.signal name = some found →
          ∀ values : List Nat, valuesOf name rows = values.map .integer →
            counts name = some (countAdjacent (fun a b => a ≠ b) values) := by
  refine ⟨fun size hsized => ⟨fun hsize => faithful_wide hsize hsized, fun hsize i => ?_,
    fun _ _ => formatInteger_injective hsized, formatValueForSignal_sized hsized⟩,
    fun _ _ _ _ _ hsized h => countToggles_integers hsized h⟩
  rw [formatValueForSignal_sized hsized, formatted_bit hsize]

/-- Two changes of a signal of one bit, by vectors. -/
def vectorBody : List ParseResult :=
  [.ok (.changeVector ⟨33⟩ [.v0]), .ok (.changeVector ⟨33⟩ [.v1]), .ok (.changeVector ⟨33⟩ [.v1])]

theorem format_value_faithful_vectors :
    formatValueForSignal asciiText (.integer 0xABC) 12 = some "0xabc" ∧
    Faithful asciiText 12 ∧
    (∃ counts, (aliasedVcd vectorBody).countToggles asciiText ["a"] ⟨none, none⟩ {} =
        some (.ok counts) ∧ counts "a" = some 1) := by
  obtain ⟨hsizes, htoggles⟩ := format_value_faithful asciiText
  have hsized : Sized asciiText (12 : UInt32).toNat := ⟨by decide, by decide⟩
  have hsource : (aliasedVcd vectorBody).Unchanged vectorBody := ⟨rfl, rfl⟩
  have hrows : (aliasedVcd vectorBody).extractRows ["a"] ⟨none, none⟩ {} = .ok _ :=
    extractRows_ok ⟨⟨rfl, rfl⟩, rfl⟩ hsource ⟨by simp [vectorBody], by decide⟩ (by decide)
      ⟨none, none⟩
  obtain ⟨counts, hcounts, hnames⟩ := htoggles (aliasedVcd vectorBody) ["a"] ⟨none, none⟩ {} _
    (by
      intro name hname found hfound
      cases List.mem_singleton.mp hname
      cases hfound
      exact ⟨by decide, by decide⟩) hrows
  refine ⟨by decide, (hsizes 12 hsized).1 (by decide), counts, hcounts, ?_⟩
  exact hnames "a" List.mem_cons_self _ rfl [0, 1, 1] (by decide)

/-- One bit prints in decimal, and ten takes two digits there; the largest size
overflows; 65536 digits are more than `format!` takes; and a text may look like a
formatted integer. -/
theorem format_value_unfaithful :
    ¬ Faithful { asciiText with maxWidth := u64Max } 1 ∧
      ¬ Faithful { asciiText with maxWidth := u64Max } 0xFFFFFFFF ∧
      ¬ Faithful asciiText 262141 ∧
      formatValueForSignal asciiText (.text "0x1") 3 =
        formatValueForSignal asciiText (.integer 1) 3 := by
  refine ⟨fun h => ?_, fun h => ?_, fun h => ?_, by decide⟩
  · have hdigits := h.digits 10 "10" (by decide)
    exact absurd hdigits (by decide)
  · have hcomputes := h.computes 0
    exact absurd hcomputes (by decide)
  · have hcomputes := h.computes 0
    exact absurd hcomputes (by decide)

end VcdTools.Query
