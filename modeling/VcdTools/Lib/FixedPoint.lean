import Mathlib.Order.Bounds.Basic
import Mathlib.Order.Monotone.Defs

/-! # Searching a fixed point

A bounded number of rounds of a monotone step, given up past a bound. When the
step depends on a rank only, and ranks are few below the bound, the rounds
suffice: the search finds the least fixed point, unless that is past the
bound. -/
namespace VcdTools.Lib.FixedPoint

variable {α : Type*} [LinearOrder α]

/-- The search with `fuel` rounds left. -/
def search (step : α → α) (bound : α) : Nat → α → Option α
  | 0, _ => none
  | fuel + 1, candidate =>
    if step candidate > bound then none
    else if step candidate = candidate then some candidate
    else search step bound fuel (step candidate)

variable {step : α → α} {rank : α → Nat} {bound least : α} {top : Nat}

/-- A round from a fixed point. -/
theorem search_fixed {candidate : α} (hfixed : step candidate = candidate)
    (hbound : candidate ≤ bound) {fuel : Nat} (hfuel : 0 < fuel) :
    search step bound fuel candidate = some candidate := by
  obtain ⟨fuel, rfl⟩ := Nat.exists_eq_succ_of_ne_zero (Nat.ne_of_gt hfuel)
  rw [search, hfixed, if_neg (not_lt.mpr hbound), if_pos rfl]

/-- **The search finds the least fixed point**, if it is within the bound. -/
theorem search_eq (hmono : Monotone step) (hleast : IsLeast {t | step t = t} least)
    (hrank : Monotone rank) (hsame : ∀ a b, rank a = rank b → step a = step b)
    (htop : ∀ a ≤ bound, rank a ≤ top) (fuel : Nat) :
    ∀ candidate, candidate ≤ step candidate → candidate ≤ least →
      top + 2 ≤ fuel + rank candidate →
      search step bound fuel candidate = if least ≤ bound then some least else none := by
  induction fuel with
  | zero =>
    intro candidate _ hbelow hfuel
    have hpast : ¬ least ≤ bound := by
      intro hbound
      have := htop candidate (hbelow.trans hbound)
      omega
    rw [if_neg hpast]
    rfl
  | succ fuel ih =>
    intro candidate hup hbelow hfuel
    have hnext : step candidate ≤ least := hleast.1 ▸ hmono hbelow
    rw [search]
    by_cases hpast : step candidate > bound
    · rw [if_pos hpast, if_neg fun hbound => absurd (hpast.trans_le hnext) (not_lt.mpr hbound)]
    rw [if_neg hpast]
    by_cases hfixed : step candidate = candidate
    · have heq : candidate = least := le_antisymm hbelow (hleast.2 hfixed)
      rw [if_pos hfixed, heq, if_pos (heq ▸ hfixed ▸ not_lt.mp hpast)]
    rw [if_neg hfixed]
    have hranks := hrank hup
    by_cases hrest : rank (step candidate) = rank candidate
    · -- the next round finds its own candidate again
      have hstop : step (step candidate) = step candidate := hsame _ _ hrest
      have heq : step candidate = least := le_antisymm hnext (hleast.2 hstop)
      have hpos : 0 < fuel := by
        have := htop _ (not_lt.mp hpast)
        omega
      rw [search_fixed hstop (not_lt.mp hpast) hpos, heq, if_pos (heq ▸ not_lt.mp hpast)]
    · exact ih _ (hmono hup) hnext (by omega)

end VcdTools.Lib.FixedPoint
