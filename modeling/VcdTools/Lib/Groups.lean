import Mathlib.Data.List.Basic

/-! # Maps from a key to the list of its values

`HashMap<K, Vec<V>>` filled through `entry(key).or_default().push(value)`: no
key is ever removed, so the values of a key stand in the order they were
pushed. -/
namespace VcdTools.Lib

/-- The groups in the order their keys first came. -/
abbrev Groups (κ ν : Type*) := List (κ × List ν)

namespace Groups
variable {κ ν μ : Type*} [DecidableEq κ]

/-- `entry(key).or_default().push(value)`. -/
def push (key : κ) (value : ν) : Groups κ ν → Groups κ ν
  | [] => [(key, [value])]
  | (k, values) :: rest =>
    if k = key then (k, values ++ [value]) :: rest else (k, values) :: push key value rest

/-- `get(&key)`. -/
def get (key : κ) : Groups κ ν → Option (List ν)
  | [] => none
  | (k, values) :: rest => if k = key then some values else get key rest

/-- `get(&key).map_or(&[], Box::as_ref)`. -/
def getD (key : κ) (groups : Groups κ ν) : List ν := (groups.get key).getD []

/-- The pairs pushed one after the other. -/
def pushAll (groups : Groups κ ν) (pairs : List (κ × ν)) : Groups κ ν :=
  pairs.foldl (fun groups pair => groups.push pair.1 pair.2) groups

@[simp] theorem get_nil (key : κ) : get key ([] : Groups κ ν) = none := rfl

theorem get_push (groups : Groups κ ν) (key k : κ) (value : ν) :
    (groups.push key value).get k =
      if key = k then some (groups.getD key ++ [value]) else groups.get k := by
  unfold getD
  induction groups with
  | nil => simp only [push, get, Option.getD_none, List.nil_append]
  | cons group rest ih =>
    obtain ⟨k', values⟩ := group
    simp only [push, get]
    by_cases hkey : k' = key
    · subst hkey
      by_cases hk : k' = k <;> simp [get, hk]
    · simp only [if_neg hkey, get, ih]
      by_cases hk : k' = k
      · have hne : key ≠ k := fun h => hkey (hk.trans h.symm)
        simp [hk, hne]
      · simp [hk]

theorem getD_push (groups : Groups κ ν) (key k : κ) (value : ν) :
    (groups.push key value).getD k = groups.getD k ++ (if key = k then [value] else []) := by
  simp only [getD, get_push]
  by_cases hk : key = k
  · subst hk
    simp
  · simp [hk]

/-- No group is empty. -/
def Filled (groups : Groups κ ν) : Prop := ∀ group ∈ groups, group.2 ≠ []

omit [DecidableEq κ] in
theorem filled_nil : Filled ([] : Groups κ ν) := by
  intro group h
  cases h

theorem Filled.push {groups : Groups κ ν} (h : groups.Filled) (key : κ) (value : ν) :
    (groups.push key value).Filled := by
  induction groups with
  | nil => simp [Filled, Groups.push]
  | cons group rest ih =>
    have hgroup := h group List.mem_cons_self
    have hrest := ih fun g hg => h g (List.mem_cons_of_mem _ hg)
    intro g hg
    simp only [Groups.push] at hg
    split at hg
    · rcases List.mem_cons.mp hg with rfl | hg
      · simp
      · exact h g (List.mem_cons_of_mem _ hg)
    · rcases List.mem_cons.mp hg with rfl | hg
      · exact hgroup
      · exact hrest g hg

theorem Filled.pushAll {groups : Groups κ ν} (h : groups.Filled) (pairs : List (κ × ν)) :
    (groups.pushAll pairs).Filled := by
  induction pairs generalizing groups with
  | nil => exact h
  | cons pair pairs ih => exact ih (h.push pair.1 pair.2)

/-- Where no group is empty, a key is in the map when it has values. -/
theorem Filled.get_eq {groups : Groups κ ν} (h : groups.Filled) (k : κ) :
    groups.get k = if groups.getD k = [] then none else some (groups.getD k) := by
  induction groups with
  | nil => rfl
  | cons group rest ih =>
    have hrest := ih fun g hg => h g (List.mem_cons_of_mem _ hg)
    simp only [getD, get] at hrest ⊢
    split
    · have hne := h group List.mem_cons_self
      simp [hne]
    · exact hrest

theorem getD_pushAll (groups : Groups κ ν) (pairs : List (κ × ν)) (k : κ) :
    (groups.pushAll pairs).getD k =
      groups.getD k ++ (pairs.filter fun pair => pair.1 = k).map Prod.snd := by
  induction pairs generalizing groups with
  | nil => simp [pushAll]
  | cons pair pairs ih =>
    have hrest := ih (groups.push pair.1 pair.2)
    rw [getD_push, List.append_assoc] at hrest
    rw [pushAll, List.foldl_cons]
    refine hrest.trans ?_
    by_cases hk : pair.1 = k
    · rw [List.filter_cons_of_pos (by simpa using hk), if_pos hk]
      rfl
    · rw [List.filter_cons_of_neg (by simpa using hk), if_neg hk, List.nil_append]

/-- The keys in the order they first came. -/
def keys (groups : Groups κ ν) : List κ := groups.map Prod.fst

omit [DecidableEq κ] in
@[simp] theorem keys_cons (k : κ) (values : List ν) (rest : Groups κ ν) :
    keys ((k, values) :: rest) = k :: rest.keys := rfl

theorem keys_push (key : κ) (value : ν) : ∀ groups : Groups κ ν,
    (groups.push key value).keys =
      if key ∈ groups.keys then groups.keys else groups.keys ++ [key]
  | [] => rfl
  | (k, values) :: rest => by
    have ih := keys_push key value rest
    rw [push]
    by_cases hk : k = key
    · subst hk
      simp
    · have hne : key ≠ k := fun h => hk h.symm
      rw [if_neg hk, keys_cons, keys_cons, ih]
      by_cases hmem : key ∈ keys rest
      · rw [if_pos hmem, if_pos (List.mem_cons_of_mem _ hmem)]
      · have hfresh : key ∉ k :: keys rest := by simp [hne, hmem]
        rw [if_neg hmem, if_neg hfresh, List.cons_append]

/-- **The keys are those that were pushed**, each of them once. -/
theorem keys_pushAll (pairs : List (κ × ν)) (groups : Groups κ ν) (h : groups.keys.Nodup) :
    (groups.pushAll pairs).keys.Nodup ∧
      ∀ k, k ∈ (groups.pushAll pairs).keys ↔ k ∈ groups.keys ∨ k ∈ pairs.map Prod.fst := by
  induction pairs generalizing groups with
  | nil => exact ⟨h, by simp [pushAll]⟩
  | cons pair pairs ih =>
    have hpush : (groups.push pair.1 pair.2).keys.Nodup ∧
        ∀ k, k ∈ (groups.push pair.1 pair.2).keys ↔ k ∈ groups.keys ∨ k = pair.1 := by
      rw [keys_push]
      split
      · rename_i hmem
        refine ⟨h, fun k => (or_iff_left_of_imp ?_).symm⟩
        rintro rfl
        exact hmem
      · rename_i hfresh
        refine ⟨?_, fun k => by simp⟩
        rw [List.nodup_append]
        refine ⟨h, List.pairwise_singleton _ _, fun a ha b hb => ?_⟩
        rw [List.mem_singleton.mp hb]
        exact ne_of_mem_of_not_mem ha hfresh
    obtain ⟨hnodup, hmem⟩ := ih _ hpush.1
    refine ⟨hnodup, fun k => (hmem k).trans ?_⟩
    rw [hpush.2, List.map_cons, List.mem_cons, or_assoc]

end Groups

/-! ## Tables of positions -/

section
variable {α : Type*} [DecidableEq α]

/-- **A table of the positions of distinct names** is the inverse of their list. -/
theorem lookup_zipIdx_iff {names : List α} (h : names.Nodup) {name : α} {start i : Nat} :
    (names.zipIdx start).lookup name = some i ↔ ∃ j, i = start + j ∧ names[j]? = some name := by
  induction names generalizing start with
  | nil => simp
  | cons first rest ih =>
    obtain ⟨hfirst, hrest⟩ := List.nodup_cons.mp h
    rw [List.zipIdx_cons, List.lookup_cons]
    by_cases hname : name = first
    · subst hname
      simp only [BEq.rfl, Option.some.injEq]
      constructor
      · intro hi
        exact ⟨0, hi.symm, rfl⟩
      · intro ⟨j, hi, hj⟩
        cases j with
        | zero => exact hi.symm
        | succ j =>
          rw [List.getElem?_cons_succ] at hj
          exact absurd (List.mem_of_getElem? hj) hfirst
    · simp only [beq_eq_false_iff_ne.mpr hname, ih hrest]
      constructor
      · intro ⟨j, hi, hj⟩
        exact ⟨j + 1, by omega, hj⟩
      · intro ⟨j, hi, hj⟩
        cases j with
        | zero => exact absurd (Option.some.inj hj).symm hname
        | succ j => exact ⟨j, by omega, hj⟩

theorem lookup_map_values {β γ : Type*} (entries : List (α × β)) (f : β → γ) (name : α) :
    (entries.map fun entry => (entry.1, f entry.2)).lookup name = (entries.lookup name).map f := by
  induction entries with
  | nil => rfl
  | cons entry entries ih =>
    rw [List.map_cons, List.lookup_cons, List.lookup_cons]
    split
    · rfl
    · exact ih

theorem lookup_positions_iff {names : List α} (h : names.Nodup) {name : α} {i : Nat} :
    names.zipIdx.lookup name = some i ↔ names[i]? = some name := by
  rw [lookup_zipIdx_iff h]
  constructor
  · intro ⟨j, hi, hj⟩
    rwa [hi, Nat.zero_add]
  · intro hi
    exact ⟨i, (Nat.zero_add i).symm, hi⟩

end

end VcdTools.Lib
