import Mathlib.Data.List.Infix

/-! # Work under a budget

A list of pieces of work is charged one by one; the first piece the charge
refuses stops it. What is done is the longest prefix the charge accepts as a
whole. -/
namespace VcdTools.Lib.Metered

variable {υ ω ε : Type*}

/-- What is done of the work from `used` on, and what refused the next piece. -/
def afford (charge : υ → ω → Except ε υ) : υ → List ω → List ω × Option ε
  | _, [] => ([], none)
  | used, w :: ws =>
    match charge used w with
    | .error e => ([], some e)
    | .ok used' => (w :: (afford charge used' ws).1, (afford charge used' ws).2)

variable {charge : υ → ω → Except ε υ} {used used' : υ} {w : ω} {ws : List ω} {e : ε}

@[simp] theorem afford_nil : afford charge used [] = ([], none) := rfl

theorem afford_cons_ok (h : charge used w = .ok used') :
    afford charge used (w :: ws) =
      (w :: (afford charge used' ws).1, (afford charge used' ws).2) := by
  simp [afford, h]

theorem afford_cons_error (h : charge used w = .error e) :
    afford charge used (w :: ws) = ([], some e) := by
  simp [afford, h]

theorem afford_prefix (charge : υ → ω → Except ε υ) (used : υ) (ws : List ω) : (afford charge used ws).1 <+: ws := by
  induction ws generalizing used with
  | nil => exact List.prefix_refl _
  | cons w ws ih =>
    simp only [afford]
    cases charge used w with
    | error e => exact List.nil_prefix
    | ok used' => exact List.cons_prefix_cons.mpr ⟨rfl, ih used'⟩

/-- What is done was accepted. -/
theorem afford_accepted (charge : υ → ω → Except ε υ) (used : υ) (ws : List ω) :
    ∃ used', (afford charge used ws).1.foldlM charge used = .ok used' := by
  induction ws generalizing used with
  | nil => exact ⟨used, rfl⟩
  | cons w ws ih =>
    simp only [afford]
    cases h : charge used w with
    | error e => exact ⟨used, rfl⟩
    | ok used' =>
      simp only [List.foldlM_cons, h]
      exact ih used'

/-- **What is done is the longest prefix** the charge accepts. -/
theorem afford_longest {ps : List ω} (hp : ps <+: ws) (h : ps.foldlM charge used = .ok used') :
    ps <+: (afford charge used ws).1 := by
  induction ps generalizing used ws with
  | nil => exact List.nil_prefix
  | cons p ps ih =>
    cases ws with
    | nil => simp at hp
    | cons w ws =>
      obtain ⟨rfl, hps⟩ := List.cons_prefix_cons.mp hp
      rw [List.foldlM_cons] at h
      simp only [afford]
      cases hc : charge used p with
      | error e =>
        rw [hc] at h
        cases h
      | ok used₁ =>
        rw [hc] at h
        exact List.cons_prefix_cons.mpr ⟨rfl, ih hps h⟩

/-- Nothing is refused exactly when all of the work is done. -/
theorem afford_none_iff : (afford charge used ws).2 = none ↔ (afford charge used ws).1 = ws := by
  induction ws generalizing used with
  | nil => simp
  | cons w ws ih =>
    simp only [afford]
    cases charge used w with
    | error e => simp
    | ok used' => simpa using ih

/-- What is refused is the piece after what was done. -/
theorem afford_refused (h : (afford charge used ws).2 = some e) : ∃ w used',
    (afford charge used ws).1 ++ [w] <+: ws ∧
    (afford charge used ws).1.foldlM charge used = .ok used' ∧ charge used' w = .error e := by
  induction ws generalizing used with
  | nil => cases h
  | cons w ws ih =>
    cases hc : charge used w with
    | error e' =>
      rw [afford_cons_error hc] at h ⊢
      cases h
      exact ⟨w, used, List.cons_prefix_cons.mpr ⟨rfl, List.nil_prefix⟩, rfl, hc⟩
    | ok used₁ =>
      rw [afford_cons_ok hc] at h ⊢
      obtain ⟨w', used', hpre, htot, href⟩ := ih h
      refine ⟨w', used', List.cons_prefix_cons.mpr ⟨rfl, hpre⟩, ?_, href⟩
      rw [List.foldlM_cons, hc]
      exact htot

end VcdTools.Lib.Metered
