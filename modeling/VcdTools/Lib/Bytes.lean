import Mathlib.Algebra.Order.Ring.Nat
import Mathlib.Data.Nat.Bitwise
import Mathlib.Tactic.Ring

/-! # Numbers in bytes

Big-endian numbers, and numbers of base 128: seven bits a byte, the lowest first,
with the high bit set in every byte but the last. -/
namespace VcdTools.Lib

def beValue (bytes : List UInt8) : Nat := bytes.foldl (fun value b => 256 * value + b.toNat) 0

/-- The number at the start of `bytes`, of any size, and how many bytes it has. -/
def leb128 : List UInt8 → Option (Nat × Nat)
  | [] => none
  | b :: bytes =>
    if b.toNat < 128 then some (b.toNat, 1)
    else (leb128 bytes).map fun encoded => (b.toNat % 128 + 128 * encoded.1, encoded.2 + 1)

/-- Where the last byte of that number stands. -/
def lastByte (bytes : List UInt8) : Option Nat := bytes.findIdx? fun b => b.toNat < 128

variable {bytes : List UInt8} {value count : Nat}

theorem leb128_cons_last {b : UInt8} (h : b.toNat < 128) :
    leb128 (b :: bytes) = some (b.toNat, 1) := if_pos h

theorem leb128_cons_more {b : UInt8} (h : ¬ b.toNat < 128) : leb128 (b :: bytes) =
    (leb128 bytes).map fun encoded => (b.toNat % 128 + 128 * encoded.1, encoded.2 + 1) := if_neg h

/-- **The last byte ends the number.** -/
theorem lastByte_eq (bytes : List UInt8) :
    lastByte bytes = (leb128 bytes).map fun encoded => encoded.2 - 1 := by
  induction bytes with
  | nil => rfl
  | cons b bytes ih =>
    unfold lastByte at ih ⊢
    rw [List.findIdx?_cons]
    by_cases hb : b.toNat < 128
    · rw [leb128_cons_last hb]
      simp [hb]
    · rw [leb128_cons_more hb, ih]
      cases hencoded : leb128 bytes with
      | none => simp [hb]
      | some encoded =>
        have hcount : 0 < encoded.2 := by
          cases bytes with
          | nil => cases hencoded
          | cons b' bytes =>
            rw [leb128] at hencoded
            split at hencoded
            · cases hencoded
              exact Nat.one_pos
            · obtain ⟨encoded', -, rfl⟩ := Option.map_eq_some_iff.mp hencoded
              exact Nat.succ_pos _
        simp [hb]
        omega

theorem leb128_count_pos (h : leb128 bytes = some (value, count)) : 0 < count := by
  cases bytes with
  | nil => cases h
  | cons b bytes =>
    rw [leb128] at h
    split at h
    · cases h
      exact Nat.one_pos
    · obtain ⟨encoded, -, hencoded⟩ := Option.map_eq_some_iff.mp h
      cases hencoded
      exact Nat.succ_pos _

/-- **The size of a number**, from its last byte. -/
theorem leb128_bounds (h : leb128 bytes = some (value, count)) :
    ∃ last, bytes[count - 1]? = some last ∧ last.toNat < 128 ∧
      last.toNat * 128 ^ (count - 1) ≤ value ∧ value < (last.toNat + 1) * 128 ^ (count - 1) := by
  induction bytes generalizing value count with
  | nil => cases h
  | cons b bytes ih =>
    by_cases hb : b.toNat < 128
    · rw [leb128_cons_last hb] at h
      cases h
      exact ⟨b, rfl, hb, by simp, by simp⟩
    · rw [leb128_cons_more hb] at h
      obtain ⟨⟨value', count'⟩, hrest, hencoded⟩ := Option.map_eq_some_iff.mp h
      cases hencoded
      obtain ⟨last, hlast, hsmall, hlow, hhigh⟩ := ih hrest
      have hcount := leb128_count_pos hrest
      obtain ⟨k, rfl⟩ : ∃ k, count' = k + 1 := ⟨count' - 1, by omega⟩
      refine ⟨last, hlast, hsmall, ?_, ?_⟩
      · rw [Nat.add_sub_cancel] at hlow ⊢
        rw [pow_succ, ← mul_assoc]
        omega
      · rw [Nat.add_sub_cancel] at hhigh ⊢
        rw [pow_succ, ← mul_assoc]
        have := Nat.mod_lt b.toNat (show 0 < 128 by omega)
        omega

/-- **Which numbers of at most ten bytes fit into 64 bits.** -/
theorem leb128_lt_iff (h : leb128 bytes = some (value, count)) (hcount : count ≤ 10) :
    value < 2 ^ 64 ↔ ∀ last, bytes[count - 1]? = some last → count = 10 → last.toNat ≤ 1 := by
  obtain ⟨last, hlast, hsmall, hlow, hhigh⟩ := leb128_bounds h
  constructor
  · intro hvalue last' hlast' hten
    rw [hlast] at hlast'
    cases hlast'
    subst hten
    by_contra hover
    have : 2 * 128 ^ 9 ≤ last.toNat * 128 ^ 9 := Nat.mul_le_mul_right _ (by omega)
    norm_num at *
    omega
  · intro hfits
    by_cases hten : count = 10
    · have hone := hfits last hlast hten
      subst hten
      have : (last.toNat + 1) * 128 ^ 9 ≤ 2 * 128 ^ 9 := Nat.mul_le_mul_right _ (by omega)
      norm_num at *
      omega
    · have hpow : 128 ^ (count - 1) ≤ 128 ^ 8 := Nat.pow_le_pow_right (by omega) (by omega)
      have : (last.toNat + 1) * 128 ^ (count - 1) ≤ 128 * 128 ^ 8 :=
        Nat.mul_le_mul (by omega) hpow
      norm_num at *
      omega

/-- **Seven more bits** of a 64-bit number, as shifts and `|` put them there. -/
theorem or_shiftLeft_mod {low : Nat} {s : Nat} (hlow : low < 2 ^ s) (hs : s ≤ 64) (x : Nat) :
    low ||| (x <<< s) % 2 ^ 64 = (low + x * 2 ^ s) % 2 ^ 64 := by
  have hsplit : 2 ^ 64 = 2 ^ s * 2 ^ (64 - s) := by
    rw [← pow_add]
    congr 1
    omega
  have hright : (low + x * 2 ^ s) % 2 ^ 64 = low + 2 ^ s * (x % 2 ^ (64 - s)) := by
    rw [hsplit, Nat.mod_mul, mul_comm x, Nat.add_mul_mod_self_left, Nat.mod_eq_of_lt hlow,
      Nat.add_mul_div_left _ _ (Nat.two_pow_pos s), Nat.div_eq_of_lt hlow, Nat.zero_add]
  have hleft : (x <<< s) % 2 ^ 64 = 2 ^ s * (x % 2 ^ (64 - s)) := by
    rw [Nat.shiftLeft_eq, hsplit, mul_comm x, Nat.mul_mod_mul_left]
  rw [hright, hleft, Nat.or_comm, ← Nat.two_pow_add_eq_or_of_lt hlow, Nat.add_comm]

theorem and_low_bits (b : UInt8) : (b &&& 0x7f).toNat = b.toNat % 128 := by
  rw [UInt8.toNat_and]
  exact Nat.and_two_pow_sub_one_eq_mod b.toNat 7

theorem and_high_bit (b : UInt8) : b &&& 0x80 = 0 ↔ b.toNat < 128 := by
  have hbit : (b &&& 0x80).toNat = (b.toNat.testBit 7).toNat * 2 ^ 7 := by
    rw [UInt8.toNat_and]
    exact Nat.and_two_pow b.toNat 7
  have hlt := b.toNat_lt
  rw [← UInt8.toNat_inj, hbit, Nat.testBit_eq_decide_div_mod_eq]
  by_cases hb : b.toNat < 128
  · have : b.toNat / 128 % 2 = 0 := by omega
    simp [hb, this]
  · have : b.toNat / 128 % 2 = 1 := by omega
    simp [hb, this]

end VcdTools.Lib
