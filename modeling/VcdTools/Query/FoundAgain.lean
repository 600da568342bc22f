import VcdTools.Lib.Decimal
import VcdTools.Lib.Fallible
import VcdTools.Lib.Numeral
import VcdTools.Query.FindOccurrence
import VcdTools.Query.Spellings

/-! # Finding a displayed value again

`format_value_for_signal` prints a value, `parse_target_value` reads the text of
a search, and a search compares normalised values. A printed text finds its own
value again unless it reads as another number, has whitespace at its ends, or is
`NaN`. -/
namespace VcdTools.Query
open VcdTools.Lib VcdTools.Lib.Decimal VcdTools.Lib.Fallible VcdTools.Lib.Iter VcdTools.Lib.Numeral
open VcdTools.Opened

/-! ## What the standard library prints -/

/-- The texts of numbers, without their sign: there is no exponent, and no zero
in front that is not needed. -/
inductive NumberText : List Char → Prop
  | infinite : NumberText ['i', 'n', 'f']
  | whole {digits : List Char} : Canonical digits → NumberText digits
  | fraction {digits decimals : List Char} : Canonical digits →
      (∀ c ∈ decimals, c.isDigit = true) → NumberText (digits ++ '.' :: decimals)

/-- What the documentation says of `Display` for `f64` and of `to_lowercase`:
lower case stays, and whitespace is nothing to it. -/
structure StdText.Documented (std : StdText) : Prop where
  nan : ∀ value, value.isNan → std.floatText value = "NaN"
  number : ∀ value, ¬ value.isNan → ∃ sign body, (sign = [] ∨ sign = ['-']) ∧ NumberText body ∧
    (std.floatText value).toList = sign ++ body
  lower_lower : ∀ text, std.toLowercase (std.toLowercase text) = std.toLowercase text
  lower_framed : ∀ before text after, (∀ c ∈ before, isWhitespace c = true) →
    (∀ c ∈ after, isWhitespace c = true) →
    (std.toLowercase (String.ofList (before ++ text ++ after))).toList =
      before ++ (std.toLowercase (String.ofList text)).toList ++ after

/-! ## Which values are found again -/

/-- A value of its Rust type. -/
def Fits : ChangeValue → Prop
  | .integer value => value < 2 ^ 128
  | _ => True

def SameKind : ChangeValue → ChangeValue → Prop
  | .integer _, .integer _ | .float _, .float _ | .text _, .text _ => True
  | _, _ => False

/-- A text that is no hexadecimal target, and no decimal one but in the way
numbers are printed. -/
def ReadsAsItself (text : List Char) : Prop :=
  (∀ hex, text = '0' :: 'x' :: hex → u128FromStrRadix hex 16 = none) ∧
    ∀ value, u128FromStrRadix text 10 = some value → Canonical text

/-- The values whose printed text finds them again. -/
def Refindable (std : StdText) : ChangeValue → Prop
  | .integer _ => True
  | .float value => ¬ value.isNan
  | .text text =>
    trim text.toList = text.toList ∧ ReadsAsItself (std.toLowercase text).toList

/-- **When a displayed value can be found again**, and what is found with it. -/
structure FoundAgain (std : StdText) : Prop where
  /-- What is displayed. -/
  prints : ∀ value size,
    (∃ text, formatValueForSignal std value size = some text) ↔ Formats std value size
  /-- The round trip, exactly. -/
  roundTrip : ∀ value size text, Fits value → formatValueForSignal std value size = some text →
    ((parseTargetValue std text).normalize std = normalize std value ↔ Refindable std value)
  /-- The search for a printed text matches every row that prints so. -/
  printsSo : ∀ value size text row, Fits value → Refindable std value →
    formatValueForSignal std value size = some text → Fits row.value → Refindable std row.value →
    formatValueForSignal std row.value size = some text →
      isMatch std (parseTargetValue std text) row = true
  /-- A row it matches prints so, unless letter case or another kind of value
  makes the difference. -/
  matched : ∀ value size text row, Fits value → Refindable std value →
    formatValueForSignal std value size = some text →
    isMatch std (parseTargetValue std text) row = true →
      formatValueForSignal std row.value size = some text ∨
      (∃ a b, row.value = .text a ∧ value = .text b ∧ std.toLowercase a = std.toLowercase b) ∨
      ¬ SameKind row.value value
  /-- Every value that an extraction yields is one of its Rust type. -/
  extracted : ∀ (opened : OpenedVcd) targets window context iter n row,
    opened.extract targets window context = .ok iter →
    answer OpenedTimeValueIter.next iter n = some (.ok row) → Fits row.value
  decoded : ∀ value signalType change, fstValue value signalType = .ok change → Fits change

/-- The target that a printed value gives. -/
def printedTarget (std : StdText) (value : ChangeValue) (size : Nat) : TargetValue :=
  parseTargetValue std (formatted std value size)

/-! ## Numerals -/

section
variable {text : List Char} {radix n : Nat}

theorem u128FromStrRadix_eq (hne : text ≠ []) (hplus : text.head? ≠ some '+') :
    u128FromStrRadix text radix = readNumeral (toDigit radix) radix (2 ^ 128) 0 text := by
  rw [u128FromStrRadix, if_neg hplus, if_neg hne]
  rfl

theorem toDigit_plus (radix : Nat) : toDigit radix '+' = none :=
  (if_neg (Nat.lt_irrefl radix) : (if radix < radix then some radix else none) = none)

theorem toDigit_digitChar_ten : ∀ d < 10, toDigit 10 (Nat.digitChar d) = some d := by
  decide

theorem toDigit_digitChar_sixteen : ∀ d < 16, toDigit 16 (Nat.digitChar d) = some d := by
  decide

theorem isDigit_of_toDigit {c : Char} {d : Nat} (h : toDigit 10 c = some d) :
    c.isDigit = true := by
  unfold toDigit at h
  by_cases hc : '0' ≤ c ∧ c ≤ '9'
  · exact isDigit_iff.mpr hc
  · simp only [if_neg hc] at h
    split at h
    · rw [if_neg (by omega)] at h
      cases h
    · split at h
      · rw [if_neg (by omega)] at h
        cases h
      · rw [if_neg (by omega)] at h
        cases h

/-- A text that reads as a decimal has nothing but digits, and a plus sign. -/
theorem isDigit_of_reads {value : Nat} (h : u128FromStrRadix text 10 = some value) :
    ∀ c ∈ text, c = '+' ∨ c.isDigit = true := by
  have hdigits : ∀ digits : List Char,
      readNumeral (toDigit 10) 10 (2 ^ 128) 0 digits = some value →
        ∀ c ∈ digits, c.isDigit = true := by
    intro digits hreads c hc
    obtain ⟨d, hd⟩ := digit_of_readNumeral hreads c hc
    exact isDigit_of_toDigit hd
  intro c hc
  by_cases hplus : text.head? = some '+'
  · obtain ⟨rest, rfl⟩ := List.head?_eq_some_iff.mp hplus
    obtain rfl | hc := List.mem_cons.mp hc
    · exact .inl rfl
    · rw [u128FromStrRadix, if_pos hplus] at h
      obtain ⟨_, h⟩ := Option.ite_none_left_eq_some.mp h
      exact .inr (hdigits rest h c hc)
  · rw [u128FromStrRadix, if_neg hplus] at h
    obtain ⟨_, h⟩ := Option.ite_none_left_eq_some.mp h
    exact .inr (hdigits text h c hc)

/-- What prints in a radix reads back, zeros in front or not. -/
theorem u128FromStrRadix_toDigits (hdigit : ∀ d < radix, toDigit radix (Nat.digitChar d) = some d)
    (hradix : 1 < radix) (zeros value : Nat) :
    u128FromStrRadix (List.replicate zeros '0' ++ Nat.toDigits radix n) radix = some value ↔
      value = n ∧ n < 2 ^ 128 := by
  have hchars : ∀ c ∈ List.replicate zeros '0' ++ Nat.toDigits radix n,
      ∃ d < radix, c = Nat.digitChar d := by
    intro c hc
    obtain hc | hc := List.mem_append.mp hc
    · exact ⟨0, by omega, List.eq_of_mem_replicate hc⟩
    · exact mem_toDigits hradix hc
  have hne : List.replicate zeros '0' ++ Nat.toDigits radix n ≠ [] :=
    List.append_ne_nil_of_right_ne_nil _ (List.ne_nil_of_length_pos Nat.length_toDigits_pos)
  have hplus : (List.replicate zeros '0' ++ Nat.toDigits radix n).head? ≠ some '+' := by
    intro hhead
    obtain ⟨d, hd, hc⟩ := hchars '+' (List.mem_of_head? hhead)
    have hdigit := hdigit d hd
    rw [← hc, toDigit_plus] at hdigit
    cases hdigit
  rw [u128FromStrRadix_eq hne hplus, readNumeral_zeros (hdigit 0 (by omega)) (by decide)]
  exact readNumeral_toDigits hdigit hradix n value

end

/-! ## Plain texts -/

/-- A character that neither trimming nor lower case changes. -/
def Plain (c : Char) : Prop := c.toNat < 128 ∧ c.toLower = c ∧ isWhitespace c = false

instance (c : Char) : Decidable (Plain c) := inferInstanceAs (Decidable (_ ∧ _))

variable {std : StdText} {text : String}

theorem lower_plain (h : ∀ c ∈ text.toList, Plain c) : std.toLowercase text = text := by
  rw [← String.toList_inj, std.toLowercase_ascii text fun c hc => (h c hc).1,
    List.map_congr_left fun c hc => (h c hc).2.1, List.map_id']

theorem trim_plain (h : ∀ c ∈ text.toList, Plain c) : trim text.toList = text.toList :=
  trim_eq_self fun c hc => (h c hc).2.2

theorem plain_digitChar : ∀ d < 16, Plain (Nat.digitChar d) := by
  decide

theorem plain_isDigit {c : Char} (h : c.isDigit = true) : Plain c := by
  obtain ⟨hlo, hhi⟩ := isDigit_iff.mp h
  rw [← digitChar_toNat h]
  exact plain_digitChar _ (by omega)

/-! ## The target of a text -/

/-- The lower-cased text of a search. -/
def targetText (std : StdText) (raw : String) : String :=
  std.toLowercase (String.ofList (trim raw.toList))

theorem targetText_plain (h : ∀ c ∈ text.toList, Plain c) : targetText std text = text := by
  rw [targetText, trim_plain h, String.ofList_toList, lower_plain h]

theorem isDigit_repr (n : Nat) : ∀ c ∈ (Nat.repr n).toList, c.isDigit = true :=
  (canonical_value_iff.mpr rfl).1.2.1

theorem parseTargetValue_hex {raw : String} {hex : List Char} {n : Nat}
    (h : (targetText std raw).toList = '0' :: 'x' :: hex) (hn : u128FromStrRadix hex 16 = some n) :
    parseTargetValue std raw = .integer n := by
  unfold targetText at h
  unfold parseTargetValue
  simp only [h, hn]

theorem parseTargetValue_decimal {raw : String}
    (h : ∀ hex, (targetText std raw).toList = '0' :: 'x' :: hex → u128FromStrRadix hex 16 = none) :
    parseTargetValue std raw =
      ((u128FromStrRadix (targetText std raw).toList 10).map TargetValue.integer).getD
        (.text (targetText std raw)) := by
  unfold targetText at h ⊢
  unfold parseTargetValue
  simp only
  split
  · rename_i n hhex
    split at hhex
    · rename_i hex hraw
      rw [h hex hraw] at hhex
      cases hhex
    · cases hhex
  · cases u128FromStrRadix
      (std.toLowercase (String.ofList (trim raw.toList))).toList 10 <;> rfl

/-- A target is the text itself, or the numeral of another text. -/
theorem parseTargetValue_cases (hstd : std.Documented) (raw : String) :
    (ReadsAsItself (targetText std raw).toList ∧
      (parseTargetValue std raw).normalize std = targetText std raw) ∨
    (¬ ReadsAsItself (targetText std raw).toList ∧
      ∃ n, (parseTargetValue std raw).normalize std = Nat.repr n ∧
        Nat.repr n ≠ targetText std raw) := by
  by_cases hhex : ∃ hex n, (targetText std raw).toList = '0' :: 'x' :: hex ∧
      u128FromStrRadix hex 16 = some n
  · obtain ⟨hex, n, hraw, hn⟩ := hhex
    refine .inr ⟨fun hreads => ?_, n, by rw [parseTargetValue_hex hraw hn]; rfl, fun heq => ?_⟩
    · rw [hreads.1 hex hraw] at hn
      cases hn
    · have hx : 'x' ∈ (Nat.repr n).toList := by
        rw [heq, hraw]
        exact List.mem_cons_of_mem _ List.mem_cons_self
      exact absurd (isDigit_repr n 'x' hx) (by decide)
  · have hnone : ∀ hex, (targetText std raw).toList = '0' :: 'x' :: hex →
        u128FromStrRadix hex 16 = none := by
      intro hex hraw
      cases hn : u128FromStrRadix hex 16 with
      | none => rfl
      | some n => exact absurd ⟨hex, n, hraw, hn⟩ hhex
    rw [parseTargetValue_decimal hnone]
    cases hread : u128FromStrRadix (targetText std raw).toList 10 with
    | none =>
      refine .inl ⟨⟨hnone, fun n hn => ?_⟩, hstd.lower_lower _⟩
      rw [hread] at hn
      cases hn
    | some n =>
      by_cases hcanonical : Canonical (targetText std raw).toList
      · refine .inl ⟨⟨hnone, fun _ _ => hcanonical⟩, ?_⟩
        have htext := canonical_value_iff.mp ⟨hcanonical, rfl⟩
        rw [htext, Nat.toList_repr, ← List.nil_append (Nat.toDigits 10 _)] at hread
        have hvalue := (u128FromStrRadix_toDigits toDigit_digitChar_ten (by decide) 0 n).mp hread
        show Nat.repr n = _
        rw [hvalue.1, ← htext]
      · refine .inr ⟨fun hreads => hcanonical (hreads.2 n hread), n, rfl, fun heq => ?_⟩
        rw [← heq] at hcanonical
        exact hcanonical (canonical_value_iff.mpr rfl).1

/-! ## The round trips -/

/-- A text that nothing changes is its own target when it reads as itself. -/
theorem roundTrip_plain (hstd : std.Documented) (h : ∀ c ∈ text.toList, Plain c)
    (hreads : ReadsAsItself text.toList) :
    (parseTargetValue std text).normalize std = text := by
  obtain ⟨_, hsame⟩ | ⟨hother, _⟩ := parseTargetValue_cases hstd text
  · rw [hsame, targetText_plain h]
  · rw [targetText_plain h] at hother
    exact absurd hreads hother

theorem roundTrip_text (hstd : std.Documented) (text : String) :
    (parseTargetValue std text).normalize std = std.toLowercase text ↔
      trim text.toList = text.toList ∧ ReadsAsItself (std.toLowercase text).toList := by
  by_cases htrim : trim text.toList = text.toList
  · have htarget : targetText std text = std.toLowercase text := by
      rw [targetText, htrim, String.ofList_toList]
    obtain ⟨hreads, hsame⟩ | ⟨hreads, n, hn, hother⟩ := parseTargetValue_cases hstd text
    · rw [htarget] at hreads hsame
      exact ⟨fun _ => ⟨htrim, hreads⟩, fun _ => hsame⟩
    · rw [htarget] at hreads hother
      exact ⟨fun heq => absurd (hn.symm.trans heq) hother, fun h => absurd h.2 hreads⟩
  · refine ⟨fun heq => absurd heq ?_, fun h => absurd h.1 htrim⟩
    -- lower case keeps the whitespace that a target does not have
    obtain ⟨before, after, hbefore, hafter, htext⟩ := exists_trim text.toList
    have hlower := hstd.lower_framed before (trim text.toList) after hbefore hafter
    rw [← htext, String.ofList_toList] at hlower
    have hframe : before ++ after ≠ [] := by
      intro hnil
      obtain ⟨rfl, rfl⟩ := List.append_eq_nil_iff.mp hnil
      rw [List.nil_append, List.append_nil] at htext
      exact htrim htext.symm
    obtain ⟨_, hsame⟩ | ⟨_, n, hn, _⟩ := parseTargetValue_cases hstd text
    · intro heq
      rw [hsame] at heq
      have hlength := congrArg List.length ((congrArg String.toList heq).trans hlower)
      rw [List.length_append, List.length_append, targetText] at hlength
      have hpos := List.length_pos_iff.mpr hframe
      rw [List.length_append] at hpos
      omega
    · intro heq
      rw [hn] at heq
      obtain ⟨c, hc⟩ := List.exists_mem_of_ne_nil _ hframe
      have hspace : isWhitespace c = true := by
        obtain hc | hc := List.mem_append.mp hc
        · exact hbefore c hc
        · exact hafter c hc
      have hmem : c ∈ (Nat.repr n).toList := by
        rw [heq, hlower]
        obtain hc | hc := List.mem_append.mp hc
        · exact List.mem_append_left _ (List.mem_append_left _ hc)
        · exact List.mem_append_right _ hc
      rw [(plain_isDigit (isDigit_repr n c hmem)).2.2] at hspace
      cases hspace

/-- A decimal in the way numbers are printed reads as itself. -/
theorem readsAsItself_canonical {digits : List Char} (h : Canonical digits) :
    ReadsAsItself digits := by
  refine ⟨fun hex heq => ?_, fun _ _ => h⟩
  subst heq
  exact absurd (h.2.1 'x' (List.mem_cons_of_mem _ List.mem_cons_self)) (by decide)

/-- A text with a character that no numeral has reads as itself. -/
theorem readsAsItself_of_mem {text : List Char} {c : Char} (hx : 'x' ∉ text) (hc : c ∈ text)
    (hplus : c ≠ '+') (hdigit : c.isDigit = false) : ReadsAsItself text := by
  refine ⟨fun hex heq => ?_, fun n hn => ?_⟩
  · subst heq
    exact absurd (List.mem_cons_of_mem _ List.mem_cons_self) hx
  · obtain h | h := isDigit_of_reads hn c hc
    · exact absurd h hplus
    · rw [hdigit] at h
      cases h

theorem lowerHex_toList (width n : Nat) :
    (lowerHex width n).toList =
      List.replicate (width - (Nat.toDigits 16 n).length) '0' ++ Nat.toDigits 16 n :=
  String.toList_ofList

theorem roundTrip_integer {n : Nat} (hfits : n < 2 ^ 128) (size : Nat) :
    printedTarget std (.integer n) size = .integer n := by
  by_cases hsize : size > 1
  · have hprint : formatted std (.integer n) size = "0x" ++ lowerHex (hexWidth size) n :=
      if_pos hsize
    have hplain : ∀ c ∈ ("0x" ++ lowerHex (hexWidth size) n).toList, Plain c := by
      intro c hc
      rw [String.toList_append, lowerHex_toList] at hc
      obtain hc | hc := List.mem_append.mp hc
      · obtain rfl | rfl : c = '0' ∨ c = 'x' := by simpa using hc
        · decide
        · decide
      · obtain hc | hc := List.mem_append.mp hc
        · rw [List.eq_of_mem_replicate hc]
          exact plain_digitChar 0 (by decide)
        · obtain ⟨d, hd, rfl⟩ := mem_toDigits (by decide) hc
          exact plain_digitChar d hd
    rw [printedTarget, hprint]
    refine @parseTargetValue_hex _ _ (lowerHex (hexWidth size) n).toList _ ?_ ?_
    · rw [targetText_plain hplain, String.toList_append]
      rfl
    · rw [lowerHex_toList]
      exact (u128FromStrRadix_toDigits toDigit_digitChar_sixteen (by decide) _ n).mpr ⟨rfl, hfits⟩
  · have hprint : formatted std (.integer n) size = Nat.repr n := if_neg hsize
    have htarget : targetText std (Nat.repr n) = Nat.repr n :=
      targetText_plain fun c hc => plain_isDigit (isDigit_repr n c hc)
    have hread : u128FromStrRadix (Nat.repr n).toList 10 = some n := by
      rw [Nat.toList_repr, ← List.nil_append (Nat.toDigits 10 n)]
      exact (u128FromStrRadix_toDigits toDigit_digitChar_ten (by decide) 0 n).mpr ⟨rfl, hfits⟩
    rw [printedTarget, hprint, parseTargetValue_decimal, htarget, hread]
    · rfl
    · rw [htarget]
      exact fun hex heq => absurd heq fun heq =>
        absurd (isDigit_repr n 'x' (heq ▸ List.mem_cons_of_mem _ List.mem_cons_self)) (by decide)

theorem roundTrip_nan (hstd : std.Documented) :
    (parseTargetValue std "NaN").normalize std ≠ "NaN" := by
  intro heq
  have htarget : targetText std "NaN" = "nan" := by
    have htrim : trim "NaN".toList = "NaN".toList := by decide
    rw [targetText, htrim, String.ofList_toList, ← String.toList_inj, std.toLowercase_ascii]
    · rfl
    · intro c hc
      obtain rfl | rfl | rfl : c = 'N' ∨ c = 'a' ∨ c = 'N' := by simpa using hc
      all_goals decide
  obtain ⟨_, hsame⟩ | ⟨_, n, hn, _⟩ := parseTargetValue_cases hstd "NaN"
  · rw [hsame, htarget] at heq
    exact absurd heq (by decide)
  · rw [hn] at heq
    have hdigit := isDigit_repr n 'N' (by rw [heq]; decide)
    exact absurd hdigit (by decide)

/-- The characters of a number's text. -/
theorem numberText_mem {sign body : List Char} (hsign : sign = [] ∨ sign = ['-'])
    (hbody : NumberText body) : ∀ c ∈ sign ++ body,
      c.isDigit = true ∨ c ∈ ['-', '.', 'i', 'n', 'f'] := by
  intro c hc
  obtain hc | hc := List.mem_append.mp hc
  · obtain rfl | rfl := hsign
    · cases hc
    · exact .inr (List.mem_of_mem_take (i := 1) hc)
  · cases hbody with
    | infinite => exact .inr (List.mem_of_mem_drop (i := 2) hc)
    | whole hdigits => exact .inl (hdigits.2.1 c hc)
    | fraction hdigits hdecimals =>
      obtain hc | hc := List.mem_append.mp hc
      · exact .inl (hdigits.2.1 c hc)
      · obtain rfl | hc := List.mem_cons.mp hc
        · exact .inr (by decide)
        · exact .inl (hdecimals c hc)

theorem readsAsItself_number {sign body : List Char} (hsign : sign = [] ∨ sign = ['-'])
    (hbody : NumberText body) : ReadsAsItself (sign ++ body) := by
  have hx : 'x' ∉ sign ++ body := by
    intro hc
    obtain h | h := numberText_mem hsign hbody 'x' hc
    · exact absurd h (by decide)
    · exact absurd h (by decide)
  obtain rfl | rfl := hsign
  · rw [List.nil_append] at hx ⊢
    cases hbody with
    | infinite => exact readsAsItself_of_mem (c := 'i') hx List.mem_cons_self (by decide) (by decide)
    | whole hdigits => exact readsAsItself_canonical hdigits
    | fraction hdigits hdecimals =>
      exact readsAsItself_of_mem (c := '.') hx (List.mem_append_right _ List.mem_cons_self)
        (by decide) (by decide)
  · exact readsAsItself_of_mem (c := '-') hx List.mem_cons_self (by decide) (by decide)

theorem roundTrip_number (hstd : std.Documented) {value : F64} (h : ¬ value.isNan) :
    (parseTargetValue std (std.floatText value)).normalize std = std.floatText value := by
  obtain ⟨sign, body, hsign, hbody, htext⟩ := hstd.number value h
  refine roundTrip_plain hstd ?_ ?_
  · intro c hc
    rw [htext] at hc
    obtain h | h := numberText_mem hsign hbody c hc
    · exact plain_isDigit h
    · obtain rfl | rfl | rfl | rfl | rfl : c = '-' ∨ c = '.' ∨ c = 'i' ∨ c = 'n' ∨ c = 'f' := by
        simpa using h
      all_goals decide
  · rw [htext]
    exact readsAsItself_number hsign hbody

/-! ## The values of an extraction -/

theorem vectorToChangeValueSelected_fits (vector : Vector4) :
    Fits (vectorToChangeValueSelected vector) := by
  have hsame : vectorToChangeValueSelected vector = vectorToChangeValue vector := rfl
  rw [hsame, vectorToChangeValue_eq]
  split
  · rename_i hknown
    have hlt : binaryFrom 0 vector < 2 ^ (0 + vector.length) := binaryFrom_lt (by decide) vector
    rw [Nat.zero_add] at hlt
    exact hlt.trans_le (Nat.pow_le_pow_right (by decide) hknown.2)
  · trivial

theorem convertSelected_fits {stream : SelectedChangeStream} {command : Command}
    {change : SelectedChange} (h : stream.convertSelected command = some change) :
    Fits change.value := by
  cases command with
  | timestamp _ => cases h
  | other _ => cases h
  | changeScalar | changeReal | changeString =>
    cases h
    trivial
  | changeVector id vector =>
    cases h
    exact vectorToChangeValueSelected_fits vector

theorem next_fits (stream : SelectedChangeStream) {change : SelectedChange}
    (h : stream.next.1 = some (.ok change)) : Fits change.value := by
  unfold SelectedChangeStream.next at h
  split at h
  · cases h
  · obtain ⟨command, stream', hconverted⟩ := nextLoop_converted _ _ h
    exact convertSelected_fits hconverted

theorem u128FromBinary_lt {text : List Char} {n : Nat} (h : u128FromBinary text = some n) :
    n < 2 ^ 128 := by
  have hfrom : ∀ acc < 2 ^ 128, text.foldlM (fun acc digit =>
      let next := 2 * acc + (if digit = '1' then 1 else 0)
      if next < 2 ^ 128 then some next else none) acc = some n → n < 2 ^ 128 := by
    clear h
    induction text with
    | nil => exact fun acc hacc heq => Option.some.inj heq ▸ hacc
    | cons c rest ih =>
      intro acc _ heq
      rw [List.foldlM_cons] at heq
      obtain ⟨next, hnext, hrest⟩ := Option.bind_eq_some_iff.mp heq
      obtain ⟨hlt, hsame⟩ := Option.ite_none_right_eq_some.mp hnext
      exact ih next (Option.some.inj hsame ▸ hlt) hrest
  exact hfrom 0 (by decide) h

theorem fstValue_fits {value : FstSignalValue} {signalType : FstSignalType} {change : ChangeValue}
    (h : fstValue value signalType = .ok change) : Fits change := by
  cases value with
  | real value =>
    cases h
    trivial
  | string bytes =>
    simp only [fstValue] at h
    split at h
    · cases h
    · split at h
      · split at h
        · rename_i n hn
          cases h
          exact u128FromBinary_lt hn
        · cases h
          trivial
      · cases h
        trivial

/-- **A displayed value is found again** exactly when it reads as itself. -/
theorem found_again (std : StdText) (hstd : std.Documented) : FoundAgain std := by
  have hround : ∀ value size, Fits value →
      ((printedTarget std value size).normalize std = normalize std value ↔
        Refindable std value) := by
    intro value size hfits
    cases value with
    | integer n =>
      rw [roundTrip_integer hfits]
      exact ⟨fun _ => trivial, fun _ => rfl⟩
    | float value =>
      constructor
      · intro heq hnan
        have htext := hstd.nan value hnan
        have hprint : printedTarget std (.float value) size = parseTargetValue std "NaN" := by
          rw [← htext]
          rfl
        rw [hprint, normalize, htext] at heq
        exact roundTrip_nan hstd heq
      · exact roundTrip_number hstd
    | text text => exact roundTrip_text hstd text
  have htarget : ∀ value size text, formatValueForSignal std value size = some text →
      parseTargetValue std text = printedTarget std value size :=
    fun value size text hprint =>
      congrArg (parseTargetValue std) (formatValueForSignal_eq_some.mp hprint).2.symm
  refine ⟨?_, ?_, ?_, ?_, ?_, fun _ _ _ => fstValue_fits⟩
  · intro value size
    constructor
    · rintro ⟨text, hprint⟩
      exact (formatValueForSignal_eq_some.mp hprint).1
    · exact fun hformats => ⟨_, formatValueForSignal_eq_some.mpr ⟨hformats, rfl⟩⟩
  · intro value size text hfits hprint
    rw [htarget value size text hprint]
    exact hround value size hfits
  · intro value size text row hvalue hfound hprint hrow hrefound hrowprint
    rw [isMatch, decide_eq_true_eq, htarget row.value size text hrowprint]
    exact ((hround _ size hrow).mpr hrefound).symm
  · intro value size text row hvalue hfound hprint hmatch
    rw [isMatch, decide_eq_true_eq, htarget value size text hprint,
      (hround _ size hvalue).mpr hfound] at hmatch
    rw [← hprint]
    cases hrow : row.value with
    | integer i =>
      cases value with
      | integer j =>
        rw [hrow] at hmatch
        rw [show i = j from repr_injective hmatch]
        exact .inl rfl
      | float | text => exact .inr (.inr id)
    | float i =>
      cases value with
      | float j =>
        rw [hrow] at hmatch
        exact .inl (congrArg some hmatch)
      | integer | text => exact .inr (.inr id)
    | text i =>
      cases value with
      | text j =>
        rw [hrow] at hmatch
        exact .inr (.inl ⟨i, j, rfl, rfl, hmatch⟩)
      | integer | float => exact .inr (.inr id)
  · intro opened targets window context iter n row hextract hrow
    obtain ⟨stream, _, hextract⟩ := bind_ok_iff.mp hextract
    cases hextract
    exact OpenedTimeValueIter.answer_rowsIn (P := fun _ _ value => Fits value)
      (fun stream _ => ⟨trivial, fun _ hchange _ _ => next_fits stream hchange⟩)
      (OpenedTimeValueIter.rowsIn_start (S := fun _ => True) rfl trivial) n hrow

/-! ## A documented standard library -/

/-- The decimal expansion of `mantissa * 2 ^ (exponent - 1075)`. -/
def decimalExpansion (mantissa exponent : Nat) : List Char :=
  let shift := 1075 - exponent
  let whole := Nat.toDigits 10 (mantissa * 2 ^ (exponent - 1075) / 2 ^ shift)
  let decimals := Nat.toDigits 10 (mantissa % 2 ^ shift * 5 ^ shift)
  if mantissa % 2 ^ shift = 0 then whole
  else whole ++ '.' :: (List.replicate (shift - decimals.length) '0' ++ decimals).rdropWhile (· = '0')

/-- Every finite `f64` has a finite decimal expansion; `Display` prints it, or a
shorter one that reads back as the same number. -/
def expansion (value : F64) : List Char :=
  let exponent := value.bits.toNat / 2 ^ 52 % 2 ^ 11
  let fraction := value.bits.toNat % 2 ^ 52
  decimalExpansion (if exponent = 0 then fraction else fraction + 2 ^ 52) (max exponent 1)

/-- ASCII text, with reals printed in full. -/
def decimalText : StdText where
  floatText value :=
    let sign := if value.bits.toNat < 2 ^ 63 then [] else ['-']
    if value.isNan then "NaN"
    else if value.bits.toNat % 2 ^ 63 = 0x7FF0000000000000 then
      String.ofList (sign ++ ['i', 'n', 'f'])
    else String.ofList (sign ++ expansion value)
  toLowercase text := String.ofList (text.toList.map Char.toLower)
  toLowercase_ascii := toList_ofList_toLower
  maxWidth := 65535
  overflowChecks := true

theorem decimalExpansion_number (mantissa exponent : Nat) :
    NumberText (decimalExpansion mantissa exponent) := by
  unfold decimalExpansion
  simp only
  split
  · exact .whole (canonical_toDigits _)
  · refine .fraction (canonical_toDigits _) fun c hc => ?_
    obtain hc | hc := List.mem_append.mp ((List.rdropWhile_prefix _ _).subset hc)
    · rw [List.eq_of_mem_replicate hc]
      rfl
    · exact (canonical_toDigits _).2.1 c hc

theorem toLower_of_not_upper {c : Char} (h : ¬ (65 ≤ c.toNat ∧ c.toNat ≤ 90)) : c.toLower = c :=
  dif_neg h

theorem toLower_whitespace {c : Char} (h : isWhitespace c = true) : c.toLower = c := by
  apply toLower_of_not_upper
  intro hupper
  simp only [isWhitespace, Bool.or_eq_true, Bool.and_eq_true, decide_eq_true_eq] at h
  omega

theorem toLower_toLower (c : Char) : c.toLower.toLower = c.toLower := by
  by_cases hupper : 65 ≤ c.toNat ∧ c.toNat ≤ 90
  · apply toLower_of_not_upper
    have hlower : c.toLower.toNat = c.toNat + 32 := by
      unfold Char.toLower
      rw [dif_pos (by exact hupper)]
      refine (UInt32.toNat_add _ _).trans (Nat.mod_eq_of_lt ?_)
      exact Nat.lt_of_le_of_lt (Nat.add_le_add_right hupper.2 _) (by decide)
    omega
  · rw [toLower_of_not_upper hupper, toLower_of_not_upper hupper]

theorem decimalText_documented : decimalText.Documented where
  nan value hnan := if_pos hnan
  number value hnan := by
    have hsign : (if value.bits.toNat < 2 ^ 63 then [] else ['-']) = ([] : List Char) ∨
        (if value.bits.toNat < 2 ^ 63 then [] else ['-']) = ['-'] := by
      split
      · exact .inl rfl
      · exact .inr rfl
    refine ⟨_, if value.bits.toNat % 2 ^ 63 = 0x7FF0000000000000 then ['i', 'n', 'f']
      else expansion value, hsign, ?_, ?_⟩
    · split
      · exact .infinite
      · exact decimalExpansion_number _ _
    · simp only [decimalText, if_neg hnan]
      split
      · exact String.toList_ofList
      · exact String.toList_ofList
  lower_lower text := by
    simp only [decimalText, String.toList_ofList, List.map_map]
    exact congrArg String.ofList (List.map_congr_left fun c _ => toLower_toLower c)
  lower_framed before text after hbefore hafter := by
    simp only [decimalText, String.toList_ofList, List.map_append]
    rw [List.map_congr_left fun c hc => toLower_whitespace (hbefore c hc),
      List.map_congr_left fun c hc => toLower_whitespace (hafter c hc), List.map_id', List.map_id']

/-- One half. -/
def half : F64 := ⟨0x3FE0000000000000#64⟩

example : decimalText.floatText half = "0.5" := by decide

theorem found_again_half :
    (parseTargetValue decimalText "0.5").normalize decimalText =
      normalize decimalText (.float half) ↔ Refindable decimalText (.float half) :=
  (found_again decimalText decimalText_documented).roundTrip (.float half) 64 "0.5" trivial
    (by decide)

/-- The vector `b0x1` prints as the hexadecimal numeral of 1. -/
theorem unknown_vector_lost :
    ¬ ∀ std : StdText, std.Documented → ∀ command id value size text,
      commandToChangeValue command = some (id, value) →
      formatValueForSignal std value size = some text →
        (parseTargetValue std text).normalize std = normalize std value := by
  intro hall
  have hfound := hall decimalText decimalText_documented (.changeVector ⟨0⟩ [.v0, .x, .v1]) ⟨0⟩
    (.text "0x1") 3 "0x1" rfl rfl
  have hreads := ((roundTrip_text decimalText_documented "0x1").mp hfound).2.1 ['1'] rfl
  cases hreads

end VcdTools.Query
