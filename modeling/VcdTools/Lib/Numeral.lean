import Mathlib.Data.List.Basic

/-! # Reading numerals

A numeral is read digit by digit against a bound, with the bound checked at
every digit. What a printer of natural numbers prints reads back as the number,
or not at all when the number is past the bound. -/
namespace VcdTools.Lib.Numeral

variable {digit : Char → Option Nat} {radix bound : Nat}

/-- One digit more. -/
def readDigit (digit : Char → Option Nat) (radix bound value : Nat) (c : Char) : Option Nat := do
  let d ← digit c
  if value * radix + d < bound then some (value * radix + d) else none

/-- The number that digits stand for, behind those of `value`. -/
def readNumeral (digit : Char → Option Nat) (radix bound value : Nat) (text : List Char) :
    Option Nat :=
  text.foldlM (readDigit digit radix bound) value

theorem readDigit_eq_some {value k : Nat} {c : Char} :
    readDigit digit radix bound value c = some k ↔
      ∃ d, digit c = some d ∧ k = value * radix + d ∧ k < bound := by
  unfold readDigit
  cases digit c with
  | none => exact ⟨fun h => (by cases h), fun ⟨_, h, _⟩ => (by cases h)⟩
  | some d =>
    simp only [Option.bind_eq_bind, Option.bind_some]
    split
    · rename_i hlt
      exact ⟨fun h => ⟨d, rfl, (Option.some.inj h).symm, Option.some.inj h ▸ hlt⟩,
        fun ⟨_, hd, hk, _⟩ => (by cases hd; rw [hk])⟩
    · rename_i hge
      exact ⟨fun h => (by cases h), fun ⟨_, hd, hk, hlt⟩ => (by cases hd; exact absurd (hk ▸ hlt) hge)⟩

theorem readNumeral_append (value : Nat) (text text' : List Char) :
    readNumeral digit radix bound value (text ++ text') =
      (readNumeral digit radix bound value text).bind
        fun value => readNumeral digit radix bound value text' := by
  unfold readNumeral
  rw [List.foldlM_append]
  rfl

theorem readNumeral_singleton (value : Nat) (c : Char) :
    readNumeral digit radix bound value [c] = readDigit digit radix bound value c := by
  unfold readNumeral
  rw [List.foldlM_cons]
  cases readDigit digit radix bound value c <;> rfl

/-- **What is printed reads back.** -/
theorem readNumeral_toDigits (hdigit : ∀ d < radix, digit (Nat.digitChar d) = some d)
    (hradix : 1 < radix) (n k : Nat) :
    readNumeral digit radix bound 0 (Nat.toDigits radix n) = some k ↔ k = n ∧ n < bound := by
  induction n using Nat.strongRecOn generalizing k with
  | _ n ih =>
    by_cases hlt : n < radix
    · rw [Nat.toDigits_of_lt_base hlt, readNumeral_singleton, readDigit_eq_some, hdigit n hlt]
      constructor
      · intro ⟨d, hd, hk, hbound⟩
        cases hd
        exact ⟨by omega, by omega⟩
      · intro ⟨hk, hbound⟩
        exact ⟨n, rfl, by omega, by omega⟩
    · have hdiv : n / radix < n := Nat.div_lt_self (by omega) hradix
      have hmod : n % radix < radix := Nat.mod_lt _ (by omega)
      have hsum : n / radix * radix + n % radix = n := Nat.div_add_mod' n radix
      rw [Nat.toDigits_of_base_le hradix (by omega), readNumeral_append, Option.bind_eq_some_iff]
      constructor
      · intro ⟨value, hvalue, hlast⟩
        rw [readNumeral_singleton, readDigit_eq_some, hdigit _ hmod] at hlast
        obtain ⟨d, hd, hk, hbound⟩ := hlast
        cases hd
        rw [((ih _ hdiv value).mp hvalue).1, hsum] at hk
        exact ⟨hk, hk ▸ hbound⟩
      · intro ⟨hk, hbound⟩
        refine ⟨n / radix, (ih _ hdiv _).mpr ⟨rfl, by omega⟩, ?_⟩
        rw [readNumeral_singleton, readDigit_eq_some, hdigit _ hmod]
        exact ⟨_, rfl, by omega, by omega⟩

theorem mem_toDigits (hradix : 1 < radix) {n : Nat} {c : Char} (h : c ∈ Nat.toDigits radix n) :
    ∃ d < radix, c = Nat.digitChar d := by
  induction n using Nat.strongRecOn with
  | _ n ih =>
    by_cases hlt : n < radix
    · rw [Nat.toDigits_of_lt_base hlt, List.mem_singleton] at h
      exact ⟨n, hlt, h⟩
    · rw [Nat.toDigits_of_base_le hradix (by omega)] at h
      obtain h | h := List.mem_append.mp h
      · exact ih _ (Nat.div_lt_self (by omega) hradix) h
      · exact ⟨n % radix, Nat.mod_lt _ (by omega), List.mem_singleton.mp h⟩

/-- Zeros in front do not count. -/
theorem readNumeral_zeros (hzero : digit '0' = some 0) (hbound : 0 < bound) (n : Nat)
    (text : List Char) :
    readNumeral digit radix bound 0 (List.replicate n '0' ++ text) =
      readNumeral digit radix bound 0 text := by
  have hstep : readDigit digit radix bound 0 '0' = some 0 :=
    readDigit_eq_some.mpr ⟨0, hzero, by omega, hbound⟩
  induction n with
  | zero => rfl
  | succ n ih =>
    unfold readNumeral at ih ⊢
    rw [List.replicate_succ, List.cons_append, List.foldlM_cons, hstep]
    exact ih

/-- Numbers that print alike, zeros in front or not, are the same. -/
theorem toDigits_padded_injective (hdigit : ∀ d < radix, digit (Nat.digitChar d) = some d)
    (hradix : 1 < radix) {zeros zeros' n m : Nat}
    (h : List.replicate zeros '0' ++ Nat.toDigits radix n =
      List.replicate zeros' '0' ++ Nat.toDigits radix m) : n = m := by
  have hzero : digit '0' = some 0 := hdigit 0 (by omega)
  have hread : ∀ zeros k, readNumeral digit radix (max n m + 1) 0
      (List.replicate zeros '0' ++ Nat.toDigits radix k) =
        readNumeral digit radix (max n m + 1) 0 (Nat.toDigits radix k) :=
    fun zeros k => readNumeral_zeros hzero (Nat.zero_lt_succ _) zeros _
  have hn : readNumeral digit radix (max n m + 1) 0 (Nat.toDigits radix n) = some n :=
    (readNumeral_toDigits hdigit hradix n n).mpr ⟨rfl, by omega⟩
  rw [← hread zeros n, h, hread zeros' m] at hn
  exact ((readNumeral_toDigits hdigit hradix m n).mp hn).1

/-- What reads consists of digits. -/
theorem digit_of_readNumeral {value k : Nat} {text : List Char}
    (h : readNumeral digit radix bound value text = some k) :
    ∀ c ∈ text, ∃ d, digit c = some d := by
  induction text generalizing value with
  | nil => exact fun _ hc => (by cases hc)
  | cons c rest ih =>
    unfold readNumeral at h
    rw [List.foldlM_cons] at h
    obtain ⟨value', hvalue, hrest⟩ := Option.bind_eq_some_iff.mp h
    obtain ⟨d, hd, _⟩ := readDigit_eq_some.mp hvalue
    intro c' hc'
    obtain rfl | hc' := List.mem_cons.mp hc'
    · exact ⟨d, hd⟩
    · exact ih hrest c' hc'

end VcdTools.Lib.Numeral
