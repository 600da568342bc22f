import VcdTools.Lib.Runs

/-! # Causes

What a run owes a state to: a step of a certain kind, taken some time ago, and
a property that every state has had since. -/
namespace VcdTools.Lib.Runs

variable {σ α : Type*} {step : σ → α → Option σ} {A : σ → α → Prop} {P : σ → Prop} {s : σ}

/-- In the run of `as` from `s` some step was an `A`, and each state since then has `P`. -/
def Since (step : σ → α → Option σ) (A : σ → α → Prop) (P : σ → Prop) (s : σ)
    (as : List α) : Prop :=
  ∃ before a after t, as = before ++ a :: after ∧ exec step s before = some t ∧ A t a ∧
    ∀ ps, ps <+: after → ∀ u, exec step s (before ++ a :: ps) = some u → P u

/-- The step was the last one. -/
theorem since_now {as : List α} {a : α} {t u : σ} (ht : exec step s as = some t) (ha : A t a)
    (hu : step t a = some u) (hp : P u) : Since step A P s (as ++ [a]) := by
  refine ⟨as, a, [], t, rfl, ht, ha, fun ps hps v hv => ?_⟩
  cases List.prefix_nil.mp hps
  rw [exec_append, ht] at hv
  cases hu.symm.trans (by simpa using hv)
  exact hp

/-- The step was an earlier one. -/
theorem Since.later {as : List α} (h : Since step A P s as) {a : α} {u : σ}
    (hu : exec step s (as ++ [a]) = some u) (hp : P u) : Since step A P s (as ++ [a]) := by
  obtain ⟨before, b, after, t, rfl, ht, hb, hsince⟩ := h
  refine ⟨before, b, after ++ [a], t, by simp, ht, hb, fun ps hps v hv => ?_⟩
  rcases List.prefix_concat_iff.mp hps with rfl | hps
  · have hwhole : before ++ b :: after ++ [a] = before ++ b :: (after ++ [a]) := by simp
    rw [hwhole, hv] at hu
    cases hu
    exact hp
  · exact hsince ps hps v hv

/-- **A state that only an `A` leads to is owed to one.** When a step can lead to
a state with `P` and `B` only by being an `A` or from a state with both, every
such state of a run that starts without has its cause in the run. -/
theorem since_of_step {I B : σ → Prop} (hi : ∀ s a s', I s → step s a = some s' → I s')
    (hstep : ∀ s a s', I s → step s a = some s' → P s' → B s' → A s a ∨ P s ∧ B s)
    (h₀ : I s) (hb₀ : ¬ B s) {as : List α} :
    ∀ {t : σ}, exec step s as = some t → P t → B t → Since step A P s as := by
  induction as using List.reverseRecOn with
  | nil =>
    intro t ht _ hb
    cases ht
    exact absurd hb hb₀
  | append_singleton as a ih =>
    intro u hu hp hb
    obtain ⟨t, ht, hstepped⟩ := Option.bind_eq_some_iff.mp ((exec_append s as [a]).symm.trans hu)
    have hlast : step t a = some u := by simpa using hstepped
    rcases hstep t a u (exec_invariant hi as s t h₀ ht) hlast hp hb with ha | ⟨hp', hb'⟩
    · exact since_now ht ha hlast hp
    · exact (ih ht hp' hb').later hu hp

end VcdTools.Lib.Runs
