import VcdTools.Lib.Leases

/-! # Jobs through a queue

Jobs are admitted to a queue, taken from it by workers, started and finished.
`Tracked` ties the stage of every job to the queue, to the workers' claims and
to the history: no job is in two hands, and none is started twice. -/
namespace VcdTools.Lib.JobQueue
open Leases

inductive Stage
  | before | queued | running | after
  deriving DecidableEq, Repr

/-- Admitted, and not finished. -/
def Stage.scheduled : Stage → Bool
  | .queued | .running => true
  | .before | .after => false

/-- A step in which the queue and the workers have no part. -/
def Stage.Aside (stage stage' : Stage) : Prop :=
  stage' = stage ∨ stage = .before ∧ stage' = .after

theorem Stage.Aside.scheduled {stage stage' : Stage} (h : stage.Aside stage') :
    stage'.scheduled = stage.scheduled := by
  rcases h with rfl | ⟨rfl, rfl⟩
  · rfl
  · rfl

theorem Stage.Aside.eq {stage stage' : Stage} (h : stage.Aside stage') (hne : stage ≠ .before) :
    stage' = stage := by
  rcases h with h | ⟨h, _⟩
  · exact h
  · exact absurd h hne

variable {J W : Type} {stage stage' : J → Stage} {queue rest : List J} {claims : W → Option J}
  {admitted executed : List J} {job : J} {w : W}

structure Tracked (stage : J → Stage) (queue : List J) (claims : W → Option J)
    (admitted executed : List J) : Prop where
  queue_nodup : queue.Nodup
  queue_stage : ∀ job ∈ queue, stage job = .queued
  /-- What is scheduled and not in the queue is in the hands of one worker. -/
  leased : Leased (fun job => (stage job).scheduled = true ∧ job ∉ queue) claims
  admitted_nodup : admitted.Nodup
  executed_nodup : executed.Nodup
  admitted_iff : ∀ job, job ∈ admitted ↔ stage job = .queued ∨ job ∈ executed
  executed_stage : ∀ job ∈ executed, stage job = .running ∨ stage job = .after
  running : ∀ job, stage job = .running → job ∈ executed

theorem Tracked.initial : Tracked (fun _ : J => .before) [] (fun _ : W => none) [] [] where
  queue_nodup := List.nodup_nil
  queue_stage := fun _ h => (by cases h)
  leased := .initial fun _ h => Bool.false_ne_true h.1
  admitted_nodup := List.nodup_nil
  executed_nodup := List.nodup_nil
  admitted_iff := fun _ => iff_of_false (fun h => (by cases h)) fun h => by
    rcases h with h | h
    · cases h
    · cases h
  executed_stage := fun _ h => (by cases h)
  running := fun _ h => (by cases h)

/-- Jobs are turned away before they are admitted. -/
theorem Tracked.aside (h : Tracked stage queue claims admitted executed)
    (haside : ∀ job, (stage job).Aside (stage' job)) :
    Tracked stage' queue claims admitted executed := by
  have hsame : ∀ {job}, stage job ≠ .before → stage' job = stage job := fun hne =>
    (haside _).eq hne
  have hback : ∀ {job st}, stage' job = st → st ≠ .after → stage job = st := by
    intro job st hst hne
    rcases haside job with h | ⟨_, h⟩
    · exact h.symm.trans hst
    · exact absurd (hst.symm.trans h) hne
  constructor
  · exact h.queue_nodup
  · intro job hmem
    have hstage := h.queue_stage job hmem
    exact (hsame (by rw [hstage]; decide)).trans hstage
  · exact h.leased.congr fun job => by rw [(haside job).scheduled]
  · exact h.admitted_nodup
  · exact h.executed_nodup
  · intro job
    rw [h.admitted_iff]
    refine or_congr_left ⟨fun hq => ?_, fun hq => hback hq (by decide)⟩
    exact (hsame (by rw [hq]; decide)).trans hq
  · intro job hmem
    have hstage := h.executed_stage job hmem
    have hne : stage job ≠ .before := by
      rcases hstage with hs | hs
      · rw [hs]
        decide
      · rw [hs]
        decide
    rw [hsame hne]
    exact hstage
  · intro job hrunning
    exact h.running job (hback hrunning (by decide))

variable [DecidableEq J] [DecidableEq W]

omit [DecidableEq W] in
/-- A job comes into the queue. -/
theorem Tracked.accept (h : Tracked stage queue claims admitted executed)
    (hjob : stage job = .before) :
    Tracked (Function.update stage job .queued) (queue ++ [job]) claims (admitted ++ [job])
      executed := by
  have hqueue : job ∉ queue := fun hmem => by
    cases hjob.symm.trans (h.queue_stage job hmem)
  have hexecuted : job ∉ executed := fun hmem => by
    rcases h.executed_stage job hmem with hs | hs
    · cases hjob.symm.trans hs
    · cases hjob.symm.trans hs
  have hadmitted : job ∉ admitted := fun hmem => by
    rcases (h.admitted_iff job).mp hmem with hs | hs
    · cases hjob.symm.trans hs
    · exact hexecuted hs
  have hother : ∀ {k}, k ≠ job → Function.update stage job .queued k = stage k := fun hne =>
    Function.update_of_ne hne ..
  constructor
  · rw [List.nodup_append]
    refine ⟨h.queue_nodup, List.nodup_singleton _, ?_⟩
    rintro k hk _ hmem rfl
    cases List.mem_singleton.mp hmem
    exact hqueue hk
  · intro k hmem
    rcases List.mem_append.mp hmem with hk | hk
    · rw [hother (fun heq => hqueue (heq ▸ hk))]
      exact h.queue_stage k hk
    · cases List.mem_singleton.mp hk
      exact Function.update_self ..
  · refine h.leased.congr fun k => ?_
    by_cases hk : k = job
    · subst hk
      refine iff_of_false (fun hq => hq.2 (List.mem_append_right _ (List.mem_singleton.mpr rfl)))
        fun hq => ?_
      rw [hjob] at hq
      cases hq.1
    · rw [hother hk, List.mem_append, List.mem_singleton]
      simp only [hk, or_false]
  · rw [List.nodup_append]
    refine ⟨h.admitted_nodup, List.nodup_singleton _, ?_⟩
    rintro k hk _ hmem rfl
    cases List.mem_singleton.mp hmem
    exact hadmitted hk
  · exact h.executed_nodup
  · intro k
    rw [List.mem_append, List.mem_singleton, h.admitted_iff]
    by_cases hk : k = job
    · subst hk
      exact iff_of_true (.inr rfl) (.inl (Function.update_self ..))
    · rw [hother hk]
      simp only [hk, or_false]
  · intro k hk
    rw [hother (fun heq => hexecuted (heq ▸ hk))]
    exact h.executed_stage k hk
  · intro k hk
    by_cases hkj : k = job
    · subst hkj
      rw [Function.update_self] at hk
      cases hk
    · rw [hother hkj] at hk
      exact h.running k hk

/-- A worker takes the first job of the queue. -/
theorem Tracked.take (h : Tracked stage (job :: rest) claims admitted executed)
    (hw : claims w = none) :
    Tracked stage rest (Function.update claims w (some job)) admitted executed := by
  have hnodup := List.nodup_cons.mp h.queue_nodup
  have hstage := h.queue_stage job List.mem_cons_self
  exact { h with
    queue_nodup := hnodup.2
    queue_stage := fun k hk => h.queue_stage k (List.mem_cons_of_mem _ hk)
    leased := by
      refine h.leased.acquire (fun hactive => hactive.2 List.mem_cons_self) hw fun k => ?_
      by_cases hk : k = job
      · subst hk
        exact iff_of_true ⟨by rw [hstage]; rfl, hnodup.1⟩ (.inl rfl)
      · rw [List.mem_cons]
        simp only [hk, false_or] }

omit [DecidableEq W] in
/-- A worker starts its job. -/
theorem Tracked.start (h : Tracked stage queue claims admitted executed)
    (hw : claims w = some job) (hjob : stage job = .queued) :
    Tracked (Function.update stage job .running) queue claims admitted (executed ++ [job]) := by
  have hqueue : job ∉ queue := ((h.leased.active_iff job).mpr ⟨w, hw⟩).2
  have hexecuted : job ∉ executed := fun hmem => by
    rcases h.executed_stage job hmem with hs | hs
    · cases hjob.symm.trans hs
    · cases hjob.symm.trans hs
  have hother : ∀ {k}, k ≠ job → Function.update stage job .running k = stage k := fun hne =>
    Function.update_of_ne hne ..
  constructor
  · exact h.queue_nodup
  · intro k hk
    rw [hother (fun heq => hqueue (heq ▸ hk))]
    exact h.queue_stage k hk
  · refine h.leased.congr fun k => ?_
    by_cases hk : k = job
    · subst hk
      rw [Function.update_self, hjob]
      exact Iff.rfl
    · rw [hother hk]
  · exact h.admitted_nodup
  · rw [List.nodup_append]
    refine ⟨h.executed_nodup, List.nodup_singleton _, ?_⟩
    rintro k hk _ hmem rfl
    cases List.mem_singleton.mp hmem
    exact hexecuted hk
  · intro k
    rw [h.admitted_iff, List.mem_append, List.mem_singleton]
    by_cases hk : k = job
    · subst hk
      exact iff_of_true (.inl hjob) (.inr (.inr rfl))
    · rw [hother hk]
      simp only [hk, or_false]
  · intro k hk
    by_cases hkj : k = job
    · subst hkj
      exact .inl (Function.update_self ..)
    · rw [hother hkj]
      rcases List.mem_append.mp hk with hk | hk
      · exact h.executed_stage k hk
      · exact absurd (List.mem_singleton.mp hk) hkj
  · intro k hk
    by_cases hkj : k = job
    · exact List.mem_append_right _ (List.mem_singleton.mpr hkj)
    · rw [hother hkj] at hk
      exact List.mem_append_left _ (h.running k hk)

/-- A worker is done with its job. -/
theorem Tracked.finish (h : Tracked stage queue claims admitted executed)
    (hw : claims w = some job) (hjob : stage job = .running) :
    Tracked (Function.update stage job .after) queue (Function.update claims w none) admitted
      executed := by
  have hqueue : job ∉ queue := ((h.leased.active_iff job).mpr ⟨w, hw⟩).2
  have hother : ∀ {k}, k ≠ job → Function.update stage job .after k = stage k := fun hne =>
    Function.update_of_ne hne ..
  constructor
  · exact h.queue_nodup
  · intro k hk
    rw [hother (fun heq => hqueue (heq ▸ hk))]
    exact h.queue_stage k hk
  · refine h.leased.release hw fun k => ?_
    by_cases hk : k = job
    · subst hk
      refine iff_of_false (fun hactive => ?_) fun hactive => hactive.2 rfl
      rw [Function.update_self] at hactive
      cases hactive.1
    · rw [hother hk]
      simp only [ne_eq, hk, not_false_eq_true, and_true]
  · exact h.admitted_nodup
  · exact h.executed_nodup
  · intro k
    rw [h.admitted_iff]
    by_cases hk : k = job
    · subst hk
      refine iff_of_true (.inr (h.running k hjob)) (.inr (h.running k hjob))
    · rw [hother hk]
  · intro k hk
    by_cases hkj : k = job
    · subst hkj
      exact .inr (Function.update_self ..)
    · rw [hother hkj]
      exact h.executed_stage k hk
  · intro k hk
    by_cases hkj : k = job
    · subst hkj
      rw [Function.update_self] at hk
      cases hk
    · rw [hother hkj] at hk
      exact h.running k hk

omit [DecidableEq J] [DecidableEq W] in
/-- With nothing in the queue and no worker at work, what was admitted is done with. -/
theorem Tracked.drained (h : Tracked stage [] claims admitted executed)
    (hidle : ∀ w, claims w = none) (hmem : job ∈ admitted) :
    job ∈ executed ∧ stage job = .after := by
  have hnot : (stage job).scheduled = false := by
    rw [← Bool.not_eq_true]
    intro hscheduled
    obtain ⟨w, hw⟩ := (h.leased.active_iff job).mp ⟨hscheduled, List.not_mem_nil⟩
    cases (hidle w).symm.trans hw
  have hexecuted : job ∈ executed := by
    rcases (h.admitted_iff job).mp hmem with hs | hs
    · rw [hs] at hnot
      cases hnot
    · exact hs
  refine ⟨hexecuted, ?_⟩
  rcases h.executed_stage job hexecuted with hs | hs
  · rw [hs] at hnot
    cases hnot
  · exact hs

end VcdTools.Lib.JobQueue
