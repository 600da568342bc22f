import Mathlib.Data.List.Basic
import Mathlib.Data.List.Count

/-! # Adjacent pairs of a list

How many neighbours of a list are in a relation. Repeating elements in place
does not change that for a relation that no element is in with itself. -/
namespace VcdTools.Lib

variable {α β : Type*}

/-- The adjacent pairs. -/
def adjacent (l : List α) : List (α × α) := l.zip l.tail

@[simp] theorem adjacent_nil : adjacent ([] : List α) = [] := rfl

@[simp] theorem adjacent_singleton (a : α) : adjacent [a] = [] := rfl

@[simp] theorem adjacent_cons (a b : α) (l : List α) :
    adjacent (a :: b :: l) = (a, b) :: adjacent (b :: l) := rfl

/-- The number of adjacent pairs in the relation `p`. -/
def countAdjacent (p : α → α → Bool) (l : List α) : Nat :=
  (adjacent l).countP fun pair => p pair.1 pair.2

variable {p q : α → α → Bool}

@[simp] theorem countAdjacent_nil : countAdjacent p [] = 0 := rfl

@[simp] theorem countAdjacent_singleton (a : α) : countAdjacent p [a] = 0 := rfl

theorem countAdjacent_cons (a b : α) (l : List α) :
    countAdjacent p (a :: b :: l) = (if p a b then 1 else 0) + countAdjacent p (b :: l) := by
  rw [countAdjacent, adjacent_cons, List.countP_cons, Nat.add_comm]
  rfl

theorem countAdjacent_map (f : β → α) (l : List β) :
    countAdjacent p (l.map f) = countAdjacent (fun a b => p (f a) (f b)) l := by
  induction l with
  | nil => rfl
  | cons a l ih =>
    cases l with
    | nil => rfl
    | cons b l =>
      rw [List.map_cons] at ih
      rw [List.map_cons, List.map_cons, countAdjacent_cons, countAdjacent_cons, ih]

/-- A first element in the relation with nothing is not counted. -/
theorem countAdjacent_cons_of_not {a : α} (h : ∀ b, p a b = false) (l : List α) :
    countAdjacent p (a :: l) = countAdjacent p l := by
  cases l with
  | nil => rfl
  | cons b l => simp [countAdjacent_cons, h b]

/-! ## Repetitions -/

theorem countAdjacent_replicate (hirrefl : ∀ a, p a a = false) (a : α) (n : Nat) (l : List α) :
    countAdjacent p (a :: (List.replicate n a ++ l)) = countAdjacent p (a :: l) := by
  induction n with
  | zero => rfl
  | succ n ih =>
    rw [List.replicate_succ, List.cons_append, countAdjacent_cons, hirrefl, ih]
    simp

/-- **Repeating every element** does not change the count. -/
theorem countAdjacent_repeat (hirrefl : ∀ a, p a a = false) {n : Nat} (hn : 0 < n) (a : α)
    (l : List α) :
    countAdjacent p (a :: l.flatMap (List.replicate n)) = countAdjacent p (a :: l) := by
  obtain ⟨n, rfl⟩ : ∃ m, n = m + 1 := ⟨n - 1, by omega⟩
  induction l generalizing a with
  | nil => rfl
  | cons b l ih =>
    rw [List.flatMap_cons, List.replicate_succ, List.cons_append, countAdjacent_cons,
      countAdjacent_replicate hirrefl, ih, countAdjacent_cons]

theorem countAdjacent_flatMap_replicate (hirrefl : ∀ a, p a a = false) {n : Nat} (hn : 0 < n)
    (l : List α) : countAdjacent p (l.flatMap (List.replicate n)) = countAdjacent p l := by
  cases l with
  | nil => rfl
  | cons a l =>
    obtain ⟨n, rfl⟩ : ∃ m, n = m + 1 := ⟨n - 1, by omega⟩
    rw [List.flatMap_cons, List.replicate_succ, List.cons_append,
      countAdjacent_replicate hirrefl, countAdjacent_repeat hirrefl (Nat.succ_pos n)]

/-! ## Two relations -/

/-- **When a smaller relation counts as much**: where no adjacent pair is only in
the larger one. -/
theorem countAdjacent_eq_iff (hle : ∀ a b, p a b = true → q a b = true) (l : List α) :
    countAdjacent p l = countAdjacent q l ↔
      ∀ pair ∈ adjacent l, q pair.1 pair.2 = true → p pair.1 pair.2 = true := by
  have hcount : ∀ pairs : List (α × α),
      pairs.countP (fun pair => p pair.1 pair.2) ≤ pairs.countP fun pair => q pair.1 pair.2 :=
    fun pairs => List.countP_mono_left fun pair _ => hle pair.1 pair.2
  rw [countAdjacent, countAdjacent]
  generalize adjacent l = pairs
  induction pairs with
  | nil => simp
  | cons pair pairs ih =>
    have hpairs := hcount pairs
    rw [List.countP_cons, List.countP_cons, List.forall_mem_cons]
    cases hq : q pair.1 pair.2 with
    | false =>
      have hp : p pair.1 pair.2 = false := by
        by_contra hne
        rw [hle _ _ (by simpa using hne)] at hq
        cases hq
      simpa [hp] using ih
    | true =>
      cases hp : p pair.1 pair.2 with
      | true => simpa using ih
      | false =>
        refine iff_of_false (fun heq => ?_) fun h => absurd (h.1 rfl) Bool.false_ne_true
        simp only [Bool.false_eq_true, if_false, if_true] at heq
        omega

end VcdTools.Lib
