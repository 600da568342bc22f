import Mathlib.Data.List.Basic

/-! # Replacing one member of a pool

A pool of threads is a list; a step replaces one entry. These rules say what
that does to a count and to a property of every entry. -/
namespace VcdTools.Lib.Pool

variable {α : Type*} {l : List α} {i j : Nat} {x y z : α}

/-- Replacing `x` by `y` moves a count by what the two contribute. -/
theorem countP_set_add (p : α → Bool) (h : l[i]? = some x) :
    (l.set i y).countP p + (if p x then 1 else 0) = l.countP p + (if p y then 1 else 0) := by
  obtain ⟨hi, rfl⟩ := List.getElem?_eq_some_iff.mp h
  rw [List.countP_set hi]
  have hpos : (if p l[i] then 1 else 0) ≤ l.countP p := by
    split
    · rename_i hp
      exact List.countP_pos_iff.mpr ⟨_, List.getElem_mem hi, hp⟩
    · exact Nat.zero_le _
  omega

theorem countP_set_toNat (p : α → Bool) (h : l[i]? = some x) (y : α) :
    (l.set i y).countP p + (p x).toNat = l.countP p + (p y).toNat := by
  have hadd := countP_set_add (y := y) p h
  cases hx : p x with
  | false | true =>
    cases hy : p y with
    | false | true =>
      rw [hx, hy] at hadd
      exact hadd

theorem countP_pos_of_get {p : α → Bool} (h : l[i]? = some x) (hp : p x = true) :
    0 < l.countP p :=
  List.countP_pos_iff.mpr ⟨x, List.mem_of_getElem? h, hp⟩

/-- An entry of the new pool is the new member or an entry of the old one. -/
theorem get_set (h : (l.set i y)[j]? = some z) : (i = j ∧ z = y) ∨ (i ≠ j ∧ l[j]? = some z) := by
  by_cases hij : i = j
  · subst hij
    rw [List.getElem?_set] at h
    simp only [if_true] at h
    split at h
    · exact .inl ⟨rfl, (Option.some.inj h).symm⟩
    · cases h
  · rw [List.getElem?_set_ne hij] at h
    exact .inr ⟨hij, h⟩

theorem get_set_self (h : l[i]? = some x) : (l.set i y)[i]? = some y :=
  List.getElem?_set_self (List.getElem?_eq_some_iff.mp h).1

theorem get_set_ne (hij : i ≠ j) (h : l[j]? = some z) : (l.set i y)[j]? = some z := by
  rw [List.getElem?_set_ne hij]
  exact h

/-- An entry of a pool one longer is the new member or an entry of the old one. -/
theorem get_append (h : (l ++ [y])[j]? = some z) : (j = l.length ∧ z = y) ∨ l[j]? = some z := by
  rcases Nat.lt_trichotomy j l.length with hj | hj | hj
  · rw [List.getElem?_append_left hj] at h
    exact .inr h
  · subst hj
    simp only [List.getElem?_concat_length, Option.some.injEq] at h
    exact .inl ⟨rfl, h.symm⟩
  · rw [List.getElem?_eq_none (by simp; omega)] at h
    cases h

theorem get_append_old (h : l[j]? = some z) : (l ++ [y])[j]? = some z := by
  rw [List.getElem?_append_left (List.getElem?_eq_some_iff.mp h).1]
  exact h

end VcdTools.Lib.Pool
