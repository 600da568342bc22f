import Mathlib.Data.List.Infix

/-! # Runs of a partial deterministic machine

A machine is a partial step function on labelled actions; an interleaving is a
list of actions. The rules here carry a fact along a run: an invariant, a
property of every visited state, and the equivalence between a property of
the visited states and a condition on the steps taken. -/
namespace VcdTools.Lib.Runs

variable {σ α : Type*}

/-- The state a list of actions leads to, when every action is enabled. -/
def exec (step : σ → α → Option σ) : σ → List α → Option σ
  | s, [] => some s
  | s, a :: as => (step s a).bind fun s' => exec step s' as

/-- `P` holds of every state the run of `as` from `s` visits. -/
def Always (step : σ → α → Option σ) (P : σ → Prop) : σ → List α → Prop
  | s, [] => P s
  | s, a :: as => P s ∧ ∀ s', step s a = some s' → Always step P s' as

/-- `C` holds of every step the run of `as` from `s` takes, read in the state
before the step. -/
def Along (step : σ → α → Option σ) (C : σ → α → Prop) : σ → List α → Prop
  | _, [] => True
  | s, a :: as => ∀ s', step s a = some s' → C s a ∧ Along step C s' as

variable {step : σ → α → Option σ} {P I : σ → Prop} {C : σ → α → Prop}

/-- A run has one state after each step. -/
theorem along_cons_some {s s' : σ} {a : α} {as : List α} (h : step s a = some s') :
    Along step C s (a :: as) ↔ C s a ∧ Along step C s' as :=
  ⟨fun hall => hall s' h, fun hc _ ht => Option.some.inj (h.symm.trans ht) ▸ hc⟩

theorem along_cons_none {s : σ} {a : α} {as : List α} (h : step s a = none) :
    Along step C s (a :: as) :=
  fun _ ht => by rw [h] at ht; cases ht

instance decidableAlong [∀ s a, Decidable (C s a)] :
    (s : σ) → (as : List α) → Decidable (Along step C s as)
  | _, [] => isTrue trivial
  | s, a :: as =>
    match h : step s a with
    | none => isTrue (along_cons_none h)
    | some s' =>
      have := decidableAlong s' as
      decidable_of_iff _ (along_cons_some h).symm

@[simp] theorem exec_nil (s : σ) : exec step s [] = some s := rfl

@[simp] theorem exec_cons (s : σ) (a : α) (as : List α) :
    exec step s (a :: as) = (step s a).bind fun s' => exec step s' as := rfl

theorem exec_append (s : σ) (as bs : List α) :
    exec step s (as ++ bs) = (exec step s as).bind fun s' => exec step s' bs := by
  induction as generalizing s with
  | nil => rfl
  | cons a as ih =>
    simp only [List.cons_append, exec_cons]
    cases step s a with
    | none => rfl
    | some s' => exact ih s'

/-- What every step keeps, every run keeps. -/
theorem exec_invariant (hstep : ∀ s a s', I s → step s a = some s' → I s') :
    ∀ (as : List α) (s s' : σ), I s → exec step s as = some s' → I s'
  | [], s, s', hi, h => by
    cases Option.some.inj h
    exact hi
  | a :: as, s, s', hi, h => by
    obtain ⟨t, ht, hs⟩ := Option.bind_eq_some_iff.mp h
    exact exec_invariant hstep as t s' (hstep s a t hi ht) hs

/-- A relation between the first state and the current one, kept by every
step from a state where the invariant holds, relates the ends of every run. -/
theorem exec_relation {R : σ → Prop} (hi : ∀ s a s', I s → step s a = some s' → I s')
    (hr : ∀ s a s', I s → R s → step s a = some s' → R s')
    {as : List α} {s s' : σ} (h₀ : I s) (hr₀ : R s) (h : exec step s as = some s') : R s' :=
  (exec_invariant (I := fun t => I t ∧ R t)
    (fun t a t' ht hs => ⟨hi t a t' ht.1 hs, hr t a t' ht.1 ht.2 hs⟩) as s s' ⟨h₀, hr₀⟩ h).2

/-- `Always` says what its name says: `P` holds after every prefix. -/
theorem always_iff_prefix (s : σ) (as : List α) :
    Always step P s as ↔ ∀ ps, ps <+: as → ∀ t, exec step s ps = some t → P t := by
  induction as generalizing s with
  | nil =>
    simp only [Always, List.prefix_nil]
    constructor
    · rintro h ps rfl t ht
      cases Option.some.inj ht
      exact h
    · intro h
      exact h [] rfl s rfl
  | cons a as ih =>
    simp only [Always, ih]
    constructor
    · rintro ⟨hs, hr⟩ ps hps t ht
      cases ps with
      | nil => cases Option.some.inj ht; exact hs
      | cons b bs =>
        obtain ⟨rfl, hbs⟩ := List.cons_prefix_cons.mp hps
        obtain ⟨u, hu, ht⟩ := Option.bind_eq_some_iff.mp ht
        exact hr u hu bs hbs t ht
    · intro h
      refine ⟨h [] List.nil_prefix s rfl, fun s' hs' ps hps t ht => ?_⟩
      exact h (a :: ps) (List.cons_prefix_cons.mpr ⟨rfl, hps⟩) t (by simp [hs', ht])

/-- A weaker property holds along the same run. -/
theorem Always.imp {Q : σ → Prop} (himp : ∀ s, P s → Q s) :
    ∀ {as : List α} {s : σ}, Always step P s as → Always step Q s as
  | [], s, h => himp s h
  | _ :: _, s, ⟨hs, hrest⟩ => ⟨himp s hs, fun s' hs' => (hrest s' hs').imp himp⟩

/-- A run whose every step meets `C` keeps `P`, when a step that meets `C`
does. -/
theorem always_of_along (hi : ∀ s a s', I s → step s a = some s' → I s')
    (hc : ∀ s a s', I s → P s → C s a → step s a = some s' → P s') :
    ∀ (as : List α) (s : σ), I s → P s → Along step C s as → Always step P s as
  | [], _, _, hp, _ => hp
  | a :: as, s, his, hp, hal => ⟨hp, fun s' hs' =>
      have h := hal s' hs'
      always_of_along hi hc as s' (hi s a s' his hs') (hc s a s' his hp h.1 hs') h.2⟩

/-- Where a step leads to a `P` state exactly when it meets `C`, the runs
that stay in `P` are exactly those whose every step meets `C`. -/
theorem always_iff_along (hi : ∀ s a s', I s → step s a = some s' → I s')
    (hc : ∀ s a s', I s → P s → step s a = some s' → (C s a ↔ P s')) :
    ∀ (as : List α) (s : σ), I s → P s → (Always step P s as ↔ Along step C s as)
  | [], _, _, hp => ⟨fun _ => trivial, fun _ => hp⟩
  | a :: as, s, his, hp => by
    have step_iff := fun s' (hs' : step s a = some s') => hc s a s' his hp hs'
    have rest := fun s' (hs' : step s a = some s') (hp' : P s') =>
      always_iff_along hi hc as s' (hi s a s' his hs') hp'
    constructor
    · rintro ⟨_, hr⟩ s' hs'
      have hp' : P s' := by
        have := hr s' hs'
        cases as with
        | nil => exact this
        | cons _ _ => exact this.1
      exact ⟨(step_iff s' hs').mpr hp', (rest s' hs' hp').mp (hr s' hs')⟩
    · intro h
      refine ⟨hp, fun s' hs' => ?_⟩
      obtain ⟨hcs, hal⟩ := h s' hs'
      exact (rest s' hs' ((step_iff s' hs').mp hcs)).mpr hal

end VcdTools.Lib.Runs
