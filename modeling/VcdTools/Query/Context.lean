import VcdTools.Data

/-! # Query errors, limits and the cooperative context

`query/mod.rs`. A `QueryContext` is read at one instant: `cancelled` is what
the shared token says then, `expired` whether the clock has reached the
deadline. Whoever shares a context with other threads lets both change
between two reads. -/
namespace VcdTools.Query

inductive QueryLimitKind
  | signals | rows | resultBytes | commands
  deriving DecidableEq, Repr

inductive QueryError
  | cancelled
  | deadlineExceeded
  | limitExceeded (kind : QueryLimitKind) (limit actual : Nat)
  | staleSource (error : VcdError)
  | queueFull
  | sourceUnavailable (error : IoError)
  | signalNotFound (signal : String)
  | vcd (error : VcdError)
  | fst (message : String)
  | unsupportedWaveform (message : String)
  | internal (message : String)
  deriving DecidableEq, Repr

/-- `impl From<VcdError> for QueryError`. -/
def QueryError.fromVcd : VcdError → QueryError
  | .io error =>
    if isGenerationMismatch error then .staleSource (.io error) else .sourceUnavailable error
  | error => .vcd error

/-- The ways a query policy ends a scan: none of them is about the source. -/
def QueryError.isPolicy : QueryError → Bool
  | .cancelled | .deadlineExceeded | .limitExceeded .. => true
  | _ => false

/-- The one error that carries a list of names. -/
def QueryError.listsNames : QueryError → Bool
  | .vcd (.missingSignals _) => true
  | _ => false

@[simp] theorem QueryError.isPolicy_fromVcd (error : VcdError) :
    (QueryError.fromVcd error).isPolicy = false := by
  cases error with
  | io e =>
    simp only [fromVcd]
    split <;> rfl
  | _ => rfl

/-- `QueryLimits` without its deadline, which the context reads as `expired`. -/
structure QueryLimits where
  maxSignals : Option Nat := none
  maxRows : Option Nat := none
  maxResultBytes : Option Nat := none
  maxCommands : Option Nat := none
  deriving DecidableEq, Repr

structure QueryContext where
  cancelled : Bool := false
  expired : Bool := false
  limits : QueryLimits := {}
  deriving DecidableEq, Repr

/-- `QueryContext::check`: cancellation is reported before the deadline. -/
def QueryContext.check (context : QueryContext) : Except QueryError Unit :=
  if context.cancelled then .error .cancelled
  else if context.expired then .error .deadlineExceeded
  else .ok ()

/-- `QueryContext::check_signal_count`. -/
def QueryContext.checkSignalCount (context : QueryContext) (actual : Nat) :
    Except QueryError Unit := do
  context.check
  match context.limits.maxSignals with
  | some limit => if actual > limit then .error (.limitExceeded .signals limit actual) else .ok ()
  | none => .ok ()

/-- Neither cancelled nor past its deadline. -/
def QueryContext.Live (context : QueryContext) : Prop :=
  context.cancelled = false ∧ context.expired = false

instance (context : QueryContext) : Decidable context.Live :=
  inferInstanceAs (Decidable (_ ∧ _))

theorem QueryContext.check_live {context : QueryContext} (h : context.Live) :
    context.check = .ok () := by
  simp [check, h.1, h.2]

theorem QueryContext.checkSignalCount_none {context : QueryContext} (h : context.Live)
    (hnone : context.limits.maxSignals = none) (actual : Nat) :
    context.checkSignalCount actual = .ok () := by
  simp [checkSignalCount, check_live h, hnone, bind, Except.bind]

theorem QueryContext.check_ok {context : QueryContext} :
    context.check = .ok () ↔ context.Live := by
  unfold check Live
  cases context.cancelled <;> cases context.expired <;> simp

theorem QueryContext.check_error {context : QueryContext} {e : QueryError}
    (h : context.check = .error e) :
    (e = .cancelled ∧ context.cancelled = true) ∨
      (e = .deadlineExceeded ∧ context.expired = true) := by
  unfold check at h
  split at h
  · rename_i hc
    exact .inl ⟨(Except.error.inj h).symm, hc⟩
  · split at h
    · rename_i he
      exact .inr ⟨(Except.error.inj h).symm, he⟩
    · cases h

theorem QueryContext.not_live_of_check {context : QueryContext} {e : QueryError}
    (h : context.check = .error e) : ¬ context.Live := by
  intro hl
  rw [check_live hl] at h
  cases h

end VcdTools.Query
