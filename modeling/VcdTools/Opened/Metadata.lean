import VcdTools.Lib.Runs
import VcdTools.Query.Context

/-! # The shared metadata cache

`MetadataCache` of `opened/mod.rs`: one mutex-protected `MetadataState`, a
condition variable, and any number of callers of `metadata()`,
`metadata_with_context()` and `retry_metadata()`. A caller's code between two
releases of the mutex is one step. A caller blocked on the condition variable
may take the mutex again at any time, which covers notifications, timeouts
and spurious wakeups. `debug` says whether `debug_assertions` are compiled in. -/
namespace VcdTools.Opened
open VcdTools.Query VcdTools.Lib

inductive CachedMetadataError
  | generationMismatch
  | io (kind : ErrorKind) (message : String)
  | missingEndDefinitions
  | duplicateSignal (signal : String)
  | missingSignals (signals : String)
  | missingSignal (signal : String)
  | invalidOccurrence
  | parse (message : String)
  | builderPanicked
  deriving DecidableEq, Repr

def CachedMetadataError.capture : VcdError → CachedMetadataError
  | .io error =>
    if isGenerationMismatch error then .generationMismatch else .io error.kind error.message
  | .missingEndDefinitions => .missingEndDefinitions
  | .duplicateSignal signal => .duplicateSignal signal
  | .missingSignals signals => .missingSignals signals
  | .missingSignal signal => .missingSignal signal
  | .invalidOccurrence => .invalidOccurrence
  | .parse message => .parse message

def CachedMetadataError.toError : CachedMetadataError → VcdError
  | .generationMismatch => generationMismatchError
  | .io kind message => .io { kind, message }
  | .missingEndDefinitions => .missingEndDefinitions
  | .duplicateSignal signal => .duplicateSignal signal
  | .missingSignals signals => .missingSignals signals
  | .missingSignal signal => .missingSignal signal
  | .invalidOccurrence => .invalidOccurrence
  | .parse message => .parse message
  | .builderPanicked => .parse "metadata builder panicked"

inductive MetadataPhase
  | absent
  | building (attempt waiters : Nat)
  /-- `builder` is a ghost: the attempt whose scan was published. -/
  | ready (metadata : VcdMeta) (builder : Nat)
  | failed (attempt : Nat) (error : CachedMetadataError) (pendingWaiters : Nat)
  deriving DecidableEq, Repr

/-- `elections` is a ghost: the attempt ids in the order they were handed out. -/
structure MetadataState where
  nextAttempt : Nat
  phase : MetadataPhase
  elections : List Nat
  deriving DecidableEq, Repr

inductive Entry
  | metadata | metadataWithContext | retryMetadata
  deriving DecidableEq, Repr

/-- What a call ends with: `vcdError` from `metadata()` and `retry_metadata()`,
`queryError` from `metadata_with_context()`. -/
inductive Outcome
  | ok (metadata : VcdMeta)
  | vcdError (error : VcdError)
  | queryError (error : QueryError)
  | panicked
  deriving DecidableEq, Repr

/-- Where a caller stands between two steps. -/
inductive Pc
  /-- Before the first `context.check()?` of `get_or_build_with_context`. -/
  | entering
  /-- At the head of the loop of `retry_failed`; `asleep` on the condition
  variable or not yet. -/
  | retrying (asleep : Bool)
  /-- At the head of the loop of `get_or_build` or `get_or_build_with_context`,
  with `waiting_for` or the registration's attempt. -/
  | looping (waitingFor : Option Nat) (asleep : Bool)
  /-- Saw `Ready` and released the mutex; `context.check()?` is next. -/
  | observedReady (metadata : VcdMeta) (registration : Option Nat)
  /-- Saw `Failed` and released the mutex; the registration is dropped next. -/
  | acknowledging (registration : Nat) (result : Outcome)
  /-- Leaves with `result`; the registration is dropped next. -/
  | abandoning (registration : Nat) (result : Outcome)
  /-- Before the last `context.check()?`. -/
  | checking (result : Outcome)
  | building (attempt : Nat)
  | publishing (attempt : Nat) (result : Except VcdError VcdMeta)
  | publishingWithContext (attempt : Nat) (result : Except QueryError VcdMeta)
  /-- Unwinding with an armed `MetadataBuildGuard`. -/
  | unwinding (attempt : Nat)
  | returned (result : Outcome)
  deriving DecidableEq, Repr

/-- How an elected caller's `build()` ends. -/
inductive Scan
  | plain (result : Except VcdError VcdMeta)
  | withContext (result : Except QueryError VcdMeta)
  | panicked
  deriving DecidableEq, Repr

/-- One call. `scanned` is a ghost: the attempt it was elected for and how its
own scan ended. -/
structure Caller where
  entry : Entry
  context : QueryContext
  pc : Pc
  scanned : Option (Nat × Scan) := none
  deriving DecidableEq, Repr

/-- Only `metadata_with_context` has a context that can end it. -/
def Caller.Live (c : Caller) : Prop :=
  c.entry = .metadataWithContext → c.context.Live

instance (c : Caller) : Decidable c.Live := inferInstanceAs (Decidable (_ → _))

def Caller.new (entry : Entry) (context : QueryContext) : Caller where
  entry := entry
  context := context
  pc := match entry with
    | .metadata => .looping none false
    | .metadataWithContext => .entering
    | .retryMetadata => .retrying false

/-- The election in the `Absent` arm: `none` when `checked_add` overflows. -/
def MetadataState.elect (state : MetadataState) : Option MetadataState :=
  (checkedSucc state.nextAttempt).map fun next =>
    { nextAttempt := next
      phase := .building state.nextAttempt 0
      elections := state.elections ++ [state.nextAttempt] }

def MetadataState.withPhase (state : MetadataState) (phase : MetadataPhase) : MetadataState :=
  { state with phase }

@[simp] theorem MetadataState.withPhase_phase (state : MetadataState) (phase : MetadataPhase) :
    (state.withPhase phase).phase = phase := rfl

@[simp] theorem MetadataState.withPhase_nextAttempt (state : MetadataState)
    (phase : MetadataPhase) : (state.withPhase phase).nextAttempt = state.nextAttempt := rfl

@[simp] theorem MetadataState.withPhase_elections (state : MetadataState)
    (phase : MetadataPhase) : (state.withPhase phase).elections = state.elections := rfl

/-- One turn of the loop of `get_or_build`, from taking the mutex to releasing it. -/
def getOrBuild (debug : Bool) (state : MetadataState) (waitingFor : Option Nat) :
    MetadataState × Pc :=
  match state.phase with
  | .ready metadata _ => (state, .returned (.ok metadata))
  | .failed attempt error pendingWaiters =>
    if waitingFor = some attempt then
      -- debug_assert!(*pending_waiters > 0)
      if debug && pendingWaiters == 0 then (state, .returned .panicked)
      else (state.withPhase (.failed attempt error (pendingWaiters - 1)),
        .returned (.vcdError error.toError))
    else (state, .returned (.vcdError error.toError))
  | .building attempt waiters =>
    match waitingFor with
    | some expected =>
      -- debug_assert_eq!(expected, *attempt)
      if debug && expected != attempt then (state, .returned .panicked)
      else (state, .looping (some expected) true)
    | none => (state.withPhase (.building attempt (waiters + 1)), .looping (some attempt) true)
  | .absent =>
    -- debug_assert!(waiting_for.is_none())
    if debug && waitingFor.isSome then (state, .returned .panicked)
    else match state.elect with
      | none =>
        (state, .returned (.vcdError (.parse "metadata attempt identifier space exhausted")))
      | some elected => (elected, .building state.nextAttempt)

/-- What a caller does with the result of `context.check()` while it holds a
registration on `attempt`: leave, or block. -/
def blockOrLeave (context : QueryContext) (attempt : Nat) : Pc :=
  match context.check with
  | .error error => .abandoning attempt (.queryError error)
  | .ok () => .looping (some attempt) true

/-- One turn of the loop of `get_or_build_with_context`. -/
def getOrBuildWithContext (debug : Bool) (state : MetadataState) (context : QueryContext)
    (registration : Option Nat) : MetadataState × Pc :=
  match state.phase with
  | .ready metadata _ => (state, .observedReady metadata registration)
  | .failed attempt error _ =>
    let result := Outcome.queryError (.fromVcd error.toError)
    match registration with
    | none => (state, .checking result)
    | some registered =>
      -- debug_assert_eq!(registration.attempt, expected_attempt)
      if debug && registered != attempt then (state, .abandoning registered .panicked)
      else (state, .acknowledging registered result)
  | .building attempt waiters =>
    -- a registration on another attempt is disarmed and replaced
    if registration = some attempt then (state, blockOrLeave context attempt)
    else (state.withPhase (.building attempt (waiters + 1)), blockOrLeave context attempt)
  | .absent =>
    -- the old registration is disarmed first
    match context.check with
    | .error error => (state, .returned (.queryError error))
    | .ok () => match state.elect with
      | none =>
        (state, .returned (.queryError (.internal "metadata attempt identifier space exhausted")))
      | some elected => (elected, .building state.nextAttempt)

/-- One turn of the loop of `retry_failed`. -/
def retryFailed (state : MetadataState) : MetadataState × Pc :=
  match state.phase with
  | .failed _ _ 0 => (state.withPhase .absent, .looping none false)
  | .failed _ _ (_ + 1) => (state, .retrying true)
  | _ => (state, .looping none false)

/-- `impl Drop for MetadataWaiterRegistration`, for an active registration. -/
def dropRegistration (state : MetadataState) (registration : Nat) : MetadataState :=
  match state.phase with
  | .building attempt waiters =>
    if attempt = registration then state.withPhase (.building attempt (waiters - 1)) else state
  | .failed attempt error pendingWaiters =>
    if attempt = registration then state.withPhase (.failed attempt error (pendingWaiters - 1))
    else state
  | _ => state

/-- `impl Drop for MetadataBuildGuard`, for an armed guard. -/
def dropBuildGuard (state : MetadataState) (guarded : Nat) : MetadataState :=
  match state.phase with
  | .building attempt waiters =>
    if attempt = guarded then state.withPhase (.failed guarded .builderPanicked waiters) else state
  | _ => state

/-- The errors `get_or_build_with_context` caches; the others reset the phase. -/
def cacheError : QueryError → Option VcdError
  | .staleSource error | .vcd error => some error
  | .sourceUnavailable error => some (.io error)
  | _ => none

/-- The waiters of the builder's own attempt, or the branch that panics because
the metadata attempt changed while its builder was active. -/
def ownWaiters (state : MetadataState) (attempt : Nat) : Option Nat :=
  match state.phase with
  | .building active waiters => if active = attempt then some waiters else none
  | _ => none

/-- The publication at the end of `get_or_build`. -/
def publish (state : MetadataState) (attempt : Nat) (result : Except VcdError VcdMeta) :
    MetadataState × Pc :=
  match ownWaiters state attempt with
  | none => (state, .unwinding attempt)
  | some waiters =>
    match result with
    | .ok metadata => (state.withPhase (.ready metadata attempt), .returned (.ok metadata))
    | .error error =>
      (state.withPhase (.failed attempt (.capture error) waiters), .returned (.vcdError error))

/-- The publication at the end of `get_or_build_with_context`. -/
def publishWithContext (state : MetadataState) (attempt : Nat)
    (result : Except QueryError VcdMeta) : MetadataState × Pc :=
  match ownWaiters state attempt with
  | none => (state, .unwinding attempt)
  | some waiters =>
    match result with
    | .ok metadata => (state.withPhase (.ready metadata attempt), .checking (.ok metadata))
    | .error error =>
      match cacheError error with
      | some cached =>
        let cached := CachedMetadataError.capture cached
        (state.withPhase (.failed attempt cached waiters),
          .checking (.queryError (.fromVcd cached.toError)))
      | none => (state.withPhase .absent, .returned (.queryError error))

/-- The next step of a caller's own code; `none` when it has none: its scan is
running or it has returned. -/
def stepCaller (debug : Bool) (state : MetadataState) (c : Caller) :
    Option (MetadataState × Pc) :=
  match c.pc with
  | .entering => some (state, match c.context.check with
    | .error error => .returned (.queryError error)
    | .ok () => .looping none false)
  | .retrying _ => some (retryFailed state)
  | .looping waitingFor _ => some (match c.entry with
    | .metadataWithContext => getOrBuildWithContext debug state c.context waitingFor
    | _ => getOrBuild debug state waitingFor)
  | .observedReady metadata registration => some (state, match c.context.check, registration with
    | .ok (), _ => .returned (.ok metadata)
    | .error error, none => .returned (.queryError error)
    | .error error, some registered => .abandoning registered (.queryError error))
  | .acknowledging registration result =>
    some (dropRegistration state registration, .checking result)
  | .abandoning registration result =>
    some (dropRegistration state registration, .returned result)
  | .checking result => some (state, match c.context.check with
    | .error error => .returned (.queryError error)
    | .ok () => .returned result)
  | .publishing attempt result => some (publish state attempt result)
  | .publishingWithContext attempt result => some (publishWithContext state attempt result)
  | .unwinding attempt => some (dropBuildGuard state attempt, .returned .panicked)
  | .building _ | .returned _ => none

/-- The end of an elected caller's `build()`; `none` when the entry point does
not run that kind of scan. -/
def finishScan (c : Caller) (scan : Scan) : Option Pc :=
  match c.pc, scan, c.entry with
  | .building attempt, .panicked, _ => some (.unwinding attempt)
  | .building attempt, .withContext result, .metadataWithContext =>
    some (.publishingWithContext attempt result)
  | .building attempt, .plain result, .metadata => some (.publishing attempt result)
  | .building attempt, .plain result, .retryMetadata => some (.publishing attempt result)
  | _, _, _ => none

/-- The cache with its callers; a caller that returned stays in the list. -/
structure Cache where
  state : MetadataState
  callers : List Caller
  deriving DecidableEq, Repr

def Cache.init : Cache := ⟨⟨1, .absent, []⟩, []⟩

abbrev Cache.caller (s : Cache) (i : Nat) : Option Caller := s.callers[i]?

inductive Action
  | call (entry : Entry) (context : QueryContext)
  | cancel (i : Nat)
  | expire (i : Nat)
  | scan (i : Nat) (scan : Scan)
  | advance (i : Nat)
  deriving DecidableEq, Repr

def Caller.cancel (c : Caller) : Caller := { c with context := { c.context with cancelled := true } }

def Caller.expire (c : Caller) : Caller := { c with context := { c.context with expired := true } }

def Caller.attempt (c : Caller) : Nat :=
  match c.pc with
  | .building attempt => attempt
  | _ => 0

def Cache.step (debug : Bool) (s : Cache) : Action → Option Cache
  | .call entry context => some { s with callers := s.callers ++ [.new entry context] }
  | .cancel i => s.callers[i]?.map fun c => { s with callers := s.callers.set i c.cancel }
  | .expire i => s.callers[i]?.map fun c => { s with callers := s.callers.set i c.expire }
  | .scan i scan => s.callers[i]?.bind fun c => (finishScan c scan).map fun pc =>
    { s with callers := s.callers.set i { c with pc, scanned := some (c.attempt, scan) } }
  | .advance i => s.callers[i]?.bind fun c => (stepCaller debug s.state c).map fun (state, pc) =>
    { state, callers := s.callers.set i { c with pc } }

/-- The states some interleaving leads to. -/
def Reachable (debug : Bool) (s : Cache) : Prop :=
  ∃ as, Runs.exec (Cache.step debug) .init as = some s

end VcdTools.Opened
