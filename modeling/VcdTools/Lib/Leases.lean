import Mathlib.Data.List.Perm.Subperm
import Mathlib.Data.List.Nodup
import Mathlib.Logic.Function.Basic

/-! # Leases

A registry of names that are taken, and holders that have each taken one of
them or none. `Leased` says that the two agree: the names taken are those that
somebody holds, and nobody else holds them. -/
namespace VcdTools.Lib.Leases

variable {ι κ : Type} {active active' : κ → Prop} {holds : ι → Option κ} {i : ι} {k : κ}

structure Leased (active : κ → Prop) (holds : ι → Option κ) : Prop where
  active_iff : ∀ k, active k ↔ ∃ i, holds i = some k
  distinct : ∀ {i j k}, holds i = some k → holds j = some k → i = j

theorem Leased.congr (h : Leased active holds) (ha : ∀ k, active' k ↔ active k) :
    Leased active' holds :=
  ⟨fun k => (ha k).trans (h.active_iff k), h.distinct⟩

theorem Leased.initial (ha : ∀ k, ¬ active k) : Leased active fun _ : ι => none :=
  ⟨fun k => iff_of_false (ha k) fun ⟨_, hi⟩ => (by cases hi), fun hi _ => (by cases hi)⟩

variable [DecidableEq ι]

/-- A holder with none takes a name that is free. -/
theorem Leased.acquire (h : Leased active holds) (hk : ¬ active k) (hi : holds i = none)
    (ha : ∀ k', active' k' ↔ k' = k ∨ active k') :
    Leased active' (Function.update holds i (some k)) := by
  have hfree : ∀ j, holds j ≠ some k := fun j hj => hk ((h.active_iff k).mpr ⟨j, hj⟩)
  constructor
  · intro k'
    rw [ha, h.active_iff]
    constructor
    · rintro (rfl | ⟨j, hj⟩)
      · exact ⟨i, Function.update_self ..⟩
      · have hne : j ≠ i := by
          rintro rfl
          rw [hi] at hj
          cases hj
        exact ⟨j, by rw [Function.update_of_ne hne, hj]⟩
    · rintro ⟨j, hj⟩
      by_cases hji : j = i
      · subst hji
        rw [Function.update_self] at hj
        exact .inl (Option.some.inj hj).symm
      · rw [Function.update_of_ne hji] at hj
        exact .inr ⟨j, hj⟩
  · intro j j' k' hj hj'
    by_cases hji : j = i
    · subst hji
      rw [Function.update_self] at hj
      cases hj
      by_cases hji' : j' = j
      · exact hji'.symm
      · rw [Function.update_of_ne hji'] at hj'
        exact absurd hj' (hfree j')
    · rw [Function.update_of_ne hji] at hj
      by_cases hji' : j' = i
      · subst hji'
        rw [Function.update_self] at hj'
        cases hj'
        exact absurd hj (hfree j)
      · rw [Function.update_of_ne hji'] at hj'
        exact h.distinct hj hj'

/-- A holder gives its name back. -/
theorem Leased.release (h : Leased active holds) (hi : holds i = some k)
    (ha : ∀ k', active' k' ↔ active k' ∧ k' ≠ k) :
    Leased active' (Function.update holds i none) := by
  have hold : ∀ {j k'}, Function.update holds i none j = some k' → j ≠ i ∧ holds j = some k' := by
    intro j k' hj
    by_cases hji : j = i
    · subst hji
      rw [Function.update_self] at hj
      cases hj
    · rw [Function.update_of_ne hji] at hj
      exact ⟨hji, hj⟩
  constructor
  · intro k'
    rw [ha, h.active_iff]
    constructor
    · rintro ⟨⟨j, hj⟩, hne⟩
      have hji : j ≠ i := by
        rintro rfl
        exact hne (Option.some.inj (hj.symm.trans hi))
      exact ⟨j, by rw [Function.update_of_ne hji, hj]⟩
    · rintro ⟨j, hj⟩
      obtain ⟨hji, hj⟩ := hold hj
      refine ⟨⟨j, hj⟩, ?_⟩
      rintro rfl
      exact hji (h.distinct hj hi)
  · intro j j' k' hj hj'
    exact h.distinct (hold hj).2 (hold hj').2

/-- A list of distinct names is no longer than a list of which every name can
be given an entry of its own. -/
theorem length_le_countP {α : Type} {names : List κ} {l : List α} {p : α → Bool} {f : κ → Nat}
    (hnodup : names.Nodup) (hinj : ∀ k ∈ names, ∀ k' ∈ names, f k = f k' → k = k')
    (hp : ∀ k ∈ names, ∃ x, l[f k]? = some x ∧ p x = true) : names.length ≤ l.countP p := by
  have hsub : names.map f ⊆ (l.zipIdx.filter fun entry => p entry.1).map Prod.snd := by
    intro i hi
    obtain ⟨k, hk, rfl⟩ := List.mem_map.mp hi
    obtain ⟨x, hx, hpx⟩ := hp k hk
    exact List.mem_map.mpr
      ⟨(x, f k), List.mem_filter.mpr ⟨List.mem_zipIdx_iff_getElem?.mpr hx, hpx⟩, rfl⟩
  have hmap : (names.map f).Nodup :=
    hnodup.map_on fun k hk k' hk' heq => hinj k hk k' hk' heq
  calc names.length = (names.map f).length := (List.length_map f).symm
    _ ≤ ((l.zipIdx.filter fun entry => p entry.1).map Prod.snd).length :=
      (List.subperm_of_subset hmap hsub).length_le
    _ = l.zipIdx.countP (p ∘ Prod.fst) := by
      rw [List.length_map, List.countP_eq_length_filter]
      rfl
    _ = l.countP p := by rw [← List.countP_map, List.zipIdx_map_fst]

end VcdTools.Lib.Leases
