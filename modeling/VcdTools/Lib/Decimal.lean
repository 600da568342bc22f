import Mathlib.Data.List.Basic

/-! # Canonical decimals

The texts that a printer of natural numbers gives: digits only, at least one,
no leading zero but in `0` itself. Reading such a text digit by digit gives the
number back, so a text is canonical exactly when it is some number's text. -/
namespace VcdTools.Lib.Decimal

/-- The number that a row of digits stands for. -/
def value (text : List Char) : Nat := Nat.ofDigitChars 10 text 0

/-- Digits only, at least one, and a leading zero only when it stands alone. -/
def Canonical (text : List Char) : Prop :=
  text ≠ [] ∧ (∀ c ∈ text, c.isDigit = true) ∧ (1 < text.length → text.head? ≠ some '0')

instance (text : List Char) : Decidable (Canonical text) :=
  inferInstanceAs (Decidable (_ ∧ _ ∧ _))

theorem isDigit_iff {c : Char} : c.isDigit = true ↔ 48 ≤ c.toNat ∧ c.toNat ≤ 57 := by
  simp only [Char.isDigit, Bool.and_eq_true, decide_eq_true_eq]
  exact Iff.rfl

theorem digitChar_toNat {c : Char} (h : c.isDigit = true) : Nat.digitChar (c.toNat - 48) = c := by
  obtain ⟨hlo, hhi⟩ := isDigit_iff.mp h
  apply Char.toNat_inj.mp
  rw [Nat.toNat_digitChar_of_lt_ten (by omega)]
  omega

/-- Further digits go behind those of a number that is not zero. -/
theorem toDigits_more (text : List Char) :
    ∀ {n : Nat}, 0 < n → (∀ c ∈ text, c.isDigit = true) →
      Nat.toDigits 10 (Nat.ofDigitChars 10 text n) = Nat.toDigits 10 n ++ text := by
  induction text with
  | nil =>
    intro n _ _
    rw [Nat.ofDigitChars_nil, List.append_nil]
  | cons c cs ih =>
    intro n hn hdigits
    have hc := hdigits c List.mem_cons_self
    obtain ⟨hlo, hhi⟩ := isDigit_iff.mp hc
    have hlast : Nat.toDigits 10 (c.toNat - 48) = [c] := by
      rw [Nat.toDigits_of_lt_base (by omega), digitChar_toNat hc]
    have hstep : Nat.toDigits 10 (10 * n + (c.toNat - 48)) = Nat.toDigits 10 n ++ [c] := by
      rw [← hlast]
      exact (Nat.toDigits_append_toDigits (by decide) hn (by omega)).symm
    rw [Nat.ofDigitChars_cons]
    show Nat.toDigits 10 (Nat.ofDigitChars 10 cs (10 * n + (c.toNat - 48))) = _
    rw [ih (by omega) fun d hd => hdigits d (List.mem_cons_of_mem _ hd), hstep,
      List.append_assoc, List.singleton_append]

/-- A canonical text is the text of its value. -/
theorem toDigits_value {text : List Char} (h : Canonical text) :
    Nat.toDigits 10 (value text) = text := by
  obtain ⟨hne, hdigits, hzero⟩ := h
  cases text with
  | nil => exact absurd rfl hne
  | cons c cs =>
    have hc := hdigits c List.mem_cons_self
    obtain ⟨hlo, hhi⟩ := isDigit_iff.mp hc
    have hfirst : value (c :: cs) = Nat.ofDigitChars 10 cs (c.toNat - 48) := by
      rw [value, Nat.ofDigitChars_cons, Nat.mul_zero, Nat.zero_add]
      rfl
    have hone : Nat.toDigits 10 (c.toNat - 48) = [c] := by
      rw [Nat.toDigits_of_lt_base (by omega), digitChar_toNat hc]
    rw [hfirst]
    cases cs with
    | nil => exact hone
    | cons d ds =>
      have hpos : 0 < c.toNat - 48 := by
        have hne0 : c ≠ '0' := fun h0 => hzero (by simp) (congrArg some h0)
        have hne48 : c.toNat ≠ 48 := fun h48 => hne0 (Char.toNat_inj.mp h48)
        omega
      rw [toDigits_more (d :: ds) hpos fun e he => hdigits e (List.mem_cons_of_mem _ he), hone]
      rfl

/-- No number but zero starts with a zero. -/
theorem head_toDigits {n : Nat} (h : 0 < n) : (Nat.toDigits 10 n).head? ≠ some '0' := by
  induction n using Nat.strongRecOn with
  | _ n ih =>
    by_cases hlt : n < 10
    · rw [Nat.toDigits_of_lt_base hlt, List.head?_cons]
      intro h0
      exact Nat.ne_of_gt h (Nat.digitChar_eq_zero.mp (Option.some.inj h0))
    · have hdiv : 0 < n / 10 := Nat.div_pos (by omega) (by decide)
      have hhead := ih (n / 10) (Nat.div_lt_self h (by decide)) hdiv
      rw [Nat.toDigits_of_base_le (by decide) (by omega),
        List.head?_append_of_ne_nil _ (List.ne_nil_of_length_pos Nat.length_toDigits_pos)]
      exact hhead

theorem canonical_toDigits (n : Nat) : Canonical (Nat.toDigits 10 n) := by
  refine ⟨List.ne_nil_of_length_pos Nat.length_toDigits_pos,
    fun c hc => Nat.isDigit_of_mem_toDigits (by decide) (by decide) hc, fun hlen => ?_⟩
  cases n with
  | zero => cases hlen with | step h => cases h
  | succ n => exact head_toDigits (Nat.succ_pos n)

/-- **The canonical texts are the texts of numbers.** -/
theorem canonical_value_iff {text : String} {n : Nat} :
    Canonical text.toList ∧ value text.toList = n ↔ text = Nat.repr n := by
  constructor
  · rintro ⟨hcanonical, rfl⟩
    apply String.toList_inj.mp
    rw [Nat.toList_repr, toDigits_value hcanonical]
  · rintro rfl
    rw [Nat.toList_repr]
    exact ⟨canonical_toDigits n, Nat.ofDigitChars_ten_toDigits⟩

theorem repr_injective {n m : Nat} (h : Nat.repr n = Nat.repr m) : n = m := by
  rw [← (canonical_value_iff.mpr (rfl : Nat.repr n = Nat.repr n)).2, h]
  exact (canonical_value_iff.mpr rfl).2

end VcdTools.Lib.Decimal
