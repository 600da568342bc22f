import Mathlib.Data.List.Infix

/-! # Transducers fed in chunks

A transducer takes one input at a time, gives outputs and may fail. Fed whole,
it gives everything it put out before it failed. Fed in chunks by a caller who
sees the outputs of a chunk only when the whole chunk passed, it may give less:
the rules here say that it ends the same way however the input is cut, and
which cuttings lose nothing. -/
namespace VcdTools.Lib.Chunked

variable {σ α β ε : Type*}

/-- The outputs before the first failure, and how the run ends. -/
def run (step : σ → α → Except ε (List β × σ)) : σ → List α → List β × Except ε σ
  | s, [] => ([], .ok s)
  | s, a :: as =>
    match step s a with
    | .error e => ([], .error e)
    | .ok (bs, t) => (bs ++ (run step t as).1, (run step t as).2)

/-- The same, chunk by chunk: a chunk that fails puts out nothing. -/
def feed (step : σ → α → Except ε (List β × σ)) : σ → List (List α) → List β × Except ε σ
  | s, [] => ([], .ok s)
  | s, chunk :: chunks =>
    match run step s chunk with
    | (_, .error e) => ([], .error e)
    | (bs, .ok t) => (bs ++ (feed step t chunks).1, (feed step t chunks).2)

variable {step : σ → α → Except ε (List β × σ)} {s t : σ} {a : α} {as bs : List α}

@[simp] theorem run_nil : run step s [] = ([], .ok s) := rfl

theorem run_cons_error {e : ε} (h : step s a = .error e) :
    run step s (a :: as) = ([], .error e) := by
  simp only [run, h]

theorem run_cons_ok {out : List β} (h : step s a = .ok (out, t)) :
    run step s (a :: as) = (out ++ (run step t as).1, (run step t as).2) := by
  simp only [run, h]

/-- After a failure nothing more is read. -/
theorem run_append_error {e : ε} (h : (run step s as).2 = .error e) :
    run step s (as ++ bs) = run step s as := by
  induction as generalizing s with
  | nil => cases h
  | cons a as ih =>
    rw [List.cons_append]
    cases ha : step s a with
    | error e' => rw [run_cons_error ha, run_cons_error ha]
    | ok r =>
      obtain ⟨out, t⟩ := r
      rw [run_cons_ok ha] at h
      rw [run_cons_ok ha, run_cons_ok ha, ih h]

/-- A run that passed goes on from the state it reached. -/
theorem run_append_ok (h : (run step s as).2 = .ok t) :
    run step s (as ++ bs) =
      ((run step s as).1 ++ (run step t bs).1, (run step t bs).2) := by
  induction as generalizing s with
  | nil =>
    cases h
    rfl
  | cons a as ih =>
    rw [List.cons_append]
    cases ha : step s a with
    | error e =>
      rw [run_cons_error ha] at h
      cases h
    | ok r =>
      obtain ⟨out, u⟩ := r
      rw [run_cons_ok ha] at h
      rw [run_cons_ok ha, run_cons_ok ha, ih h, List.append_assoc]

/-- What one input keeps, a run keeps. -/
theorem run_invariant {I : σ → Prop} (hstep : ∀ s a out t, I s → step s a = .ok (out, t) → I t) :
    ∀ {as : List α} {s t : σ}, I s → (run step s as).2 = .ok t → I t
  | [], s, t, hi, h => by
    cases h
    exact hi
  | a :: as, s, t, hi, h => by
    cases ha : step s a with
    | error e =>
      rw [run_cons_error ha] at h
      cases h
    | ok r =>
      obtain ⟨out, u⟩ := r
      rw [run_cons_ok ha] at h
      exact run_invariant hstep (hstep s a out u hi ha) h

theorem feed_cons_error {chunk : List α} {chunks : List (List α)} {e : ε}
    (h : (run step s chunk).2 = .error e) : feed step s (chunk :: chunks) = ([], .error e) := by
  rcases hr : run step s chunk with ⟨out, r⟩
  rw [hr] at h
  cases h
  simp only [feed, hr]

theorem feed_cons_ok {chunk : List α} {chunks : List (List α)}
    (h : (run step s chunk).2 = .ok t) :
    feed step s (chunk :: chunks) =
      ((run step s chunk).1 ++ (feed step t chunks).1, (feed step t chunks).2) := by
  rcases hr : run step s chunk with ⟨out, r⟩
  rw [hr] at h
  cases h
  simp only [feed, hr]

/-- **The ending does not depend on the cutting.** -/
theorem feed_end (s : σ) (chunks : List (List α)) :
    (feed step s chunks).2 = (run step s chunks.flatten).2 := by
  induction chunks generalizing s with
  | nil => rfl
  | cons chunk chunks ih =>
    rw [List.flatten_cons]
    cases h : (run step s chunk).2 with
    | error e => rw [feed_cons_error h, run_append_error h, h]
    | ok t => rw [feed_cons_ok h, run_append_ok h, ih]

/-- The chunk that fails, if one does, had put out nothing before it failed. -/
def FailsEmpty (step : σ → α → Except ε (List β × σ)) (s : σ) (chunks : List (List α)) : Prop :=
  ∀ before chunk after t e, chunks = before ++ chunk :: after →
    (run step s before.flatten).2 = .ok t → (run step t chunk).2 = .error e →
    (run step t chunk).1 = []

theorem failsEmpty_cons_error {chunk : List α} {chunks : List (List α)} {e : ε}
    (h : (run step s chunk).2 = .error e) :
    FailsEmpty step s (chunk :: chunks) ↔ (run step s chunk).1 = [] := by
  constructor
  · intro hf
    exact hf [] chunk chunks s e rfl rfl h
  · intro hout before c after t e' heq ht he
    cases before with
    | nil =>
      cases heq
      cases ht
      exact hout
    | cons b before =>
      cases heq
      rw [List.flatten_cons, run_append_error h, h] at ht
      cases ht

theorem failsEmpty_cons_ok {chunk : List α} {chunks : List (List α)}
    (h : (run step s chunk).2 = .ok t) :
    FailsEmpty step s (chunk :: chunks) ↔ FailsEmpty step t chunks := by
  constructor
  · intro hf before c after u e heq hu he
    refine hf (chunk :: before) c after u e (by rw [heq, List.cons_append]) ?_ he
    rw [List.flatten_cons, run_append_ok h]
    exact hu
  · intro hf before c after u e heq hu he
    cases before with
    | nil =>
      cases heq
      cases hu
      rw [h] at he
      cases he
    | cons b before =>
      cases heq
      rw [List.flatten_cons, run_append_ok h] at hu
      exact hf before c after u e rfl hu he

/-- **A cutting loses no output exactly when the chunk that fails had none.** -/
theorem feed_eq_iff (s : σ) (chunks : List (List α)) :
    (feed step s chunks).1 = (run step s chunks.flatten).1 ↔ FailsEmpty step s chunks := by
  induction chunks generalizing s with
  | nil =>
    refine iff_of_true rfl fun before chunk after t e heq _ _ => ?_
    exact absurd heq.symm (List.append_ne_nil_of_right_ne_nil _ (List.cons_ne_nil _ _))
  | cons chunk chunks ih =>
    rw [List.flatten_cons]
    cases h : (run step s chunk).2 with
    | error e =>
      rw [feed_cons_error h, run_append_error h, failsEmpty_cons_error h]
      exact eq_comm
    | ok t =>
      rw [feed_cons_ok h, run_append_ok h, failsEmpty_cons_ok h, ← ih]
      exact List.append_right_inj _

end VcdTools.Lib.Chunked
