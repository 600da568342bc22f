import Mathlib.Algebra.Order.BigOperators.Group.List
import Mathlib.Algebra.Order.Ring.Nat
import VcdTools.Lib.Runs

/-! # Runs that end

Some actions of a machine are its own; the others come from outside and bring
credit. Where every step of its own costs one unit of a potential, a run has no
more own steps than the potential and the credit pay for; and where, besides,
the machine always has a step of its own until it is over, it can end by
itself within its potential. Which steps count may depend on the state. -/
namespace VcdTools.Lib.Potential
open Runs

variable {σ α : Type*}

/-- What a step of its own costs. -/
def cost (own : α → Bool) (a : α) : Nat := if own a then 1 else 0

variable {step : σ → α → Option σ} {I : σ → Prop} {own : α → Bool} {credit : α → Nat}
  {potential : σ → Nat}

/-- The steps of a run, and the potential left, are paid for. -/
theorem exec_paid
    (hstep : ∀ s a s', I s → step s a = some s' →
      I s' ∧ cost own a + potential s' ≤ potential s + credit a) :
    ∀ (as : List α) (s s' : σ), I s → exec step s as = some s' →
      as.countP own + potential s' ≤ potential s + (as.map credit).sum
  | [], s, s', _, h => by
    cases Option.some.inj h
    simp
  | a :: as, s, s', hi, h => by
    obtain ⟨t, ht, hs⟩ := Option.bind_eq_some_iff.mp h
    obtain ⟨hi', hpay⟩ := hstep s a t hi ht
    have ih := exec_paid hstep as t s' hi' hs
    rw [List.countP_cons, List.map_cons, List.sum_cons]
    unfold cost at hpay
    omega

/-- How many steps of the run of `as` from `s` meet `C`, read in the state before
the step. -/
def countAlong (step : σ → α → Option σ) (C : σ → α → Bool) : σ → List α → Nat
  | _, [] => 0
  | s, a :: as => ((step s a).map fun s' => (C s a).toNat + countAlong step C s' as).getD 0

/-- A rank that no step raises, and that the steps that meet `C` bring down, leaves
room for no more of them. -/
theorem exec_ranked {C : σ → α → Bool} {rank : σ → Nat}
    (hstep : ∀ s a s', I s → step s a = some s' → I s' ∧ (C s a).toNat + rank s' ≤ rank s) :
    ∀ (as : List α) (s s' : σ), I s → exec step s as = some s' →
      countAlong step C s as + rank s' ≤ rank s
  | [], s, s', _, h => by
    cases Option.some.inj h
    exact Nat.le_of_eq (Nat.zero_add _)
  | a :: as, s, s', hi, h => by
    obtain ⟨t, ht, hs⟩ := Option.bind_eq_some_iff.mp h
    obtain ⟨hi', hrank⟩ := hstep s a t hi ht
    have ih := exec_ranked hstep as t s' hi' hs
    rw [countAlong, ht, Option.map_some, Option.getD_some]
    omega

/-- A machine that some action of `P` always takes a step nearer to its end can be
brought there by such actions, within its potential. -/
theorem exists_exec_nearer {isOver : σ → Prop} {P : α → Prop}
    (hnear : ∀ s, I s → ¬ isOver s →
      ∃ a s', P a ∧ step s a = some s' ∧ I s' ∧ potential s' < potential s)
    (s : σ) (hi : I s) :
    ∃ as s', exec step s as = some s' ∧ isOver s' ∧ (∀ a ∈ as, P a) ∧
      as.length ≤ potential s := by
  induction hn : potential s using Nat.strong_induction_on generalizing s with
  | _ n ih =>
    by_cases hover : isOver s
    · exact ⟨[], s, rfl, hover, by simp, by simp⟩
    obtain ⟨a, t, ha, ht, hi', hless⟩ := hnear s hi hover
    obtain ⟨as, s', hexec, hover', hall, hlen⟩ := ih (potential t) (by omega) t hi' rfl
    refine ⟨a :: as, s', by simp [ht, hexec], hover', List.forall_mem_cons.mpr ⟨ha, hall⟩, ?_⟩
    rw [List.length_cons]
    omega

/-- A machine that is not over until it has no step of its own left ends by
itself, within its potential. -/
theorem exists_exec_over {isOver : σ → Prop}
    (hstep : ∀ s a s', I s → step s a = some s' →
      I s' ∧ cost own a + potential s' ≤ potential s + credit a)
    (hlive : ∀ s, I s → ¬ isOver s → ∃ a s', own a = true ∧ credit a = 0 ∧ step s a = some s')
    (s : σ) (hi : I s) :
    ∃ as s', exec step s as = some s' ∧ isOver s' ∧ (∀ a ∈ as, own a = true) ∧
      as.length ≤ potential s := by
  refine exists_exec_nearer (fun s hi hover => ?_) s hi
  obtain ⟨a, t, hown, hcredit, ht⟩ := hlive s hi hover
  obtain ⟨hi', hpay⟩ := hstep s a t hi ht
  simp only [cost, hown, if_true, hcredit] at hpay
  exact ⟨a, t, hown, ht, hi', by omega⟩

/-- A machine that each action of `P` takes a step nearer to its end is over
within its potential, whichever of them it is given. -/
theorem exists_prefix_over {isOver : σ → Prop} {P : α → Prop}
    (hzero : ∀ s, I s → potential s = 0 → isOver s)
    (hstep : ∀ s a, I s → P a → ¬ isOver s →
      ∃ s', step s a = some s' ∧ I s' ∧ potential s' < potential s) :
    ∀ (as : List α) (s : σ), I s → (∀ a ∈ as, P a) → potential s ≤ as.length →
      ∃ used s', used <+: as ∧ exec step s used = some s' ∧ isOver s' := by
  intro as
  induction as with
  | nil =>
    intro s hi _ hlen
    exact ⟨[], s, List.nil_prefix, rfl, hzero s hi (Nat.le_zero.mp hlen)⟩
  | cons a as ih =>
    intro s hi hall hlen
    by_cases hover : isOver s
    · exact ⟨[], s, List.nil_prefix, rfl, hover⟩
    obtain ⟨t, ht, hi', hless⟩ := hstep s a hi (hall a List.mem_cons_self) hover
    rw [List.length_cons] at hlen
    obtain ⟨used, s', hused, hexec, hover'⟩ := ih t hi'
      (fun b hb => hall b (List.mem_cons_of_mem _ hb)) (by omega)
    exact ⟨a :: used, s', List.cons_prefix_cons.mpr ⟨rfl, hused⟩, by simp [ht, hexec], hover'⟩

/-- Replacing one member of a pool moves a sum over it by what the two weigh. -/
theorem sum_map_set_add {τ : Type*} (weight : τ → Nat) :
    ∀ {l : List τ} {i : Nat} {x : τ}, l[i]? = some x → ∀ y,
      ((l.set i y).map weight).sum + weight x = (l.map weight).sum + weight y
  | [], _, _, h, _ => by simp at h
  | z :: l, 0, x, h, y => by
    simp only [List.getElem?_cons_zero, Option.some.injEq] at h
    subst h
    simp only [List.set_cons_zero, List.map_cons, List.sum_cons]
    omega
  | z :: l, i + 1, x, h, y => by
    have ih := sum_map_set_add weight (l := l) (i := i) (by simpa using h) y
    simp only [List.set_cons_succ, List.map_cons, List.sum_cons]
    omega

end VcdTools.Lib.Potential
