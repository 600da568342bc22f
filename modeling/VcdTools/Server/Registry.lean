import Mathlib.Data.List.Nodup
import VcdTools.Lib.Runs
import VcdTools.Server.Protocol

/-! # The active requests of a connection

`ConnectionState` of `server/runtime.rs`: a map from the ids of the active
requests to their tokens, behind a lock, and a flag that says the connection is
gone. `disconnect` raises the flag first and sweeps the map afterwards, so the
two are steps of their own among everybody else's. -/
namespace VcdTools.Server
open VcdTools.Lib

/-- `active` maps the id of an active request to whether its token is cancelled. -/
structure ConnectionState where
  active : List (String × Bool)
  disconnected : Bool
  maxActive : Nat
  distinct : (active.map Prod.fst).Nodup

namespace ConnectionState

def new (maxActive : Nat) : ConnectionState where
  active := []
  disconnected := false
  maxActive := maxActive
  distinct := List.nodup_nil

def isActive (self : ConnectionState) (id : String) : Bool :=
  self.active.any fun entry => entry.1 == id

/-- The token of an active request is raised. -/
def isCancelled (self : ConnectionState) (id : String) : Bool :=
  self.active.any fun entry => entry.1 == id && entry.2

theorem isActive_iff {self : ConnectionState} {id : String} :
    self.isActive id = true ↔ id ∈ self.active.map Prod.fst := by
  simp only [isActive, List.any_eq_true, beq_iff_eq, List.mem_map]

theorem not_isActive_iff {self : ConnectionState} {id : String} :
    self.isActive id = false ↔ id ∉ self.active.map Prod.fst := by
  rw [← isActive_iff, Bool.not_eq_true]

def activeLimitExceeded (self : ConnectionState) : ProtocolError :=
  .new .limitExceeded "active requests per connection limit exceeded"
    (Json.object [("kind", .str "active_requests"),
      ("limit", .str (Nat.repr self.maxActive)),
      ("actual", .str (Nat.repr (self.active.length + 1)))]) false

/-- The map with a new request, whose token is fresh. -/
def insert (self : ConnectionState) (id : String) (h : self.isActive id = false) :
    ConnectionState where
  active := self.active ++ [(id, false)]
  disconnected := self.disconnected
  maxActive := self.maxActive
  distinct := by
    rw [List.map_append, List.nodup_append]
    refine ⟨self.distinct, List.nodup_singleton _, ?_⟩
    rintro k hk k' hk' rfl
    cases List.mem_singleton.mp hk'
    exact not_isActive_iff.mp h hk

def register (self : ConnectionState) (id : String) : Except ProtocolError ConnectionState :=
  if h : self.isActive id = false then
    if self.active.length ≥ self.maxActive then .error self.activeLimitExceeded
    else .ok (self.insert id h)
  else .error (.duplicateRequestId id)

/-- The map with the tokens of some requests cancelled. -/
def cancelWhere (self : ConnectionState) (chosen : String → Bool) : ConnectionState where
  active := self.active.map fun entry => (entry.1, entry.2 || chosen entry.1)
  disconnected := self.disconnected
  maxActive := self.maxActive
  distinct := by
    rw [List.map_map]
    exact self.distinct

def cancel (self : ConnectionState) (id : String) : Bool × ConnectionState :=
  if self.isActive id then (true, self.cancelWhere (· == id)) else (false, self)

def remove (self : ConnectionState) (id : String) : ConnectionState where
  active := self.active.filter fun entry => entry.1 != id
  disconnected := self.disconnected
  maxActive := self.maxActive
  distinct := self.distinct.sublist (List.filter_sublist.map _)

/-- The first half of `disconnect`. -/
def markDisconnected (self : ConnectionState) : ConnectionState :=
  { self with disconnected := true }

/-- The second half of `disconnect`. -/
def sweep (self : ConnectionState) : ConnectionState := self.cancelWhere fun _ => true

/-- `register` would take the id. -/
def Admits (self : ConnectionState) (id : String) : Prop :=
  self.isActive id = false ∧ self.active.length < self.maxActive

theorem register_ok_iff {self next : ConnectionState} {id : String} :
    self.register id = .ok next ↔
      ∃ h : self.isActive id = false, self.active.length < self.maxActive ∧
        next = self.insert id h := by
  rw [register]
  constructor
  · intro h
    split at h
    · rename_i hfree
      split at h
      · cases h
      · rename_i hroom
        cases h
        exact ⟨hfree, Nat.not_le.mp hroom, rfl⟩
    · cases h
  · rintro ⟨hfree, hroom, rfl⟩
    rw [dif_pos hfree, if_neg (Nat.not_le.mpr hroom)]

theorem admits_iff {self : ConnectionState} {id : String} :
    self.Admits id ↔ ∃ next, self.register id = .ok next := by
  constructor
  · rintro ⟨hfree, hroom⟩
    exact ⟨_, register_ok_iff.mpr ⟨hfree, hroom, rfl⟩⟩
  · rintro ⟨next, h⟩
    obtain ⟨hfree, hroom, _⟩ := register_ok_iff.mp h
    exact ⟨hfree, hroom⟩

/-- Every active request has a cancelled token. -/
def AllCancelled (self : ConnectionState) : Prop := ∀ entry ∈ self.active, entry.2 = true

theorem AllCancelled.cancelWhere {self : ConnectionState} (h : self.AllCancelled)
    (chosen : String → Bool) : (self.cancelWhere chosen).AllCancelled := by
  intro entry hmem
  obtain ⟨entry', hmem', rfl⟩ := List.mem_map.mp hmem
  show (entry'.2 || chosen entry'.1) = true
  rw [h entry' hmem', Bool.true_or]

theorem AllCancelled.remove {self : ConnectionState} (h : self.AllCancelled) (id : String) :
    (self.remove id).AllCancelled := fun entry hmem => h entry (List.mem_filter.mp hmem).1

theorem sweep_allCancelled (self : ConnectionState) : self.sweep.AllCancelled := by
  intro entry hmem
  obtain ⟨entry', _, rfl⟩ := List.mem_map.mp hmem
  exact Bool.or_true _

/-- A request that `register` has just taken has a live token. -/
theorem not_allCancelled_insert {self : ConnectionState} {id : String}
    (h : self.isActive id = false) : ¬ (self.insert id h).AllCancelled := fun hall =>
  Bool.false_ne_true (hall (id, false) (List.mem_append_right _ List.mem_cons_self))

end ConnectionState

/-! ## Every interleaving of the registry's callers -/

/-- `sweeping` counts the calls of `disconnect` between their two halves. -/
structure Registry where
  state : ConnectionState
  sweeping : Nat

inductive RegistryAction
  | register (id : String)
  | cancel (id : String)
  | remove (id : String)
  /-- A call of `disconnect` raises the flag. -/
  | mark
  /-- A call of `disconnect` sweeps the map and returns. -/
  | sweep

namespace Registry

def init (maxActive : Nat) : Registry := ⟨.new maxActive, 0⟩

/-- A refused `register` leaves the map as it is. -/
def step (s : Registry) : RegistryAction → Option Registry
  | .register id =>
    match s.state.register id with
    | .ok state => some { s with state }
    | .error _ => some s
  | .cancel id => some { s with state := (s.state.cancel id).2 }
  | .remove id => some { s with state := s.state.remove id }
  | .mark => some ⟨s.state.markDisconnected, s.sweeping + 1⟩
  | .sweep => if s.sweeping = 0 then none else some ⟨s.state.sweep, s.sweeping - 1⟩

/-- No disconnect is running and the flag is up. -/
def Gone (s : Registry) : Prop := s.state.disconnected = true ∧ s.sweeping = 0

def Swept (s : Registry) : Prop := s.Gone → s.state.AllCancelled

/-- `register` takes no request of a connection that is gone. -/
def RefusesLate (s : Registry) : RegistryAction → Prop
  | .register id => s.Gone → ¬ s.state.Admits id
  | _ => True

theorem swept_step (s : Registry) (a : RegistryAction) (s' : Registry) (hs : s.Swept)
    (h : s.step a = some s') : s.RefusesLate a ↔ s'.Swept := by
  cases a with
  | register id =>
    rw [step] at h
    cases hr : s.state.register id with
    | ok next =>
      rw [hr] at h
      cases h
      obtain ⟨hfree, hroom, rfl⟩ := ConnectionState.register_ok_iff.mp hr
      constructor
      · intro hlate hgone
        exact absurd ⟨hfree, hroom⟩ (hlate hgone)
      · intro hswept hgone _
        exact ConnectionState.not_allCancelled_insert hfree (hswept hgone)
    | error e =>
      rw [hr] at h
      cases h
      refine iff_of_true (fun _ hadmits => ?_) hs
      obtain ⟨next, hok⟩ := ConnectionState.admits_iff.mp hadmits
      rw [hr] at hok
      cases hok
  | cancel id =>
    cases h
    refine iff_of_true trivial fun hgone => ?_
    show (s.state.cancel id).2.AllCancelled
    have hflag : (s.state.cancel id).2.disconnected = s.state.disconnected := by
      rw [ConnectionState.cancel]
      split <;> rfl
    have hall := hs ⟨hflag ▸ hgone.1, hgone.2⟩
    rw [ConnectionState.cancel]
    split
    · exact hall.cancelWhere _
    · exact hall
  | remove id =>
    cases h
    exact iff_of_true trivial fun hgone => (hs hgone).remove id
  | mark =>
    cases h
    exact iff_of_true trivial fun hgone => absurd hgone.2 (Nat.succ_ne_zero _)
  | sweep =>
    rw [step] at h
    split at h
    · cases h
    · cases h
      exact iff_of_true trivial fun _ => ConnectionState.sweep_allCancelled s.state

/-- **A connection that is gone has only cancelled requests, in every state of a
run, exactly when no step of the run registers a request once it is gone.** -/
theorem disconnect_cancels_iff (maxActive : Nat) (acts : List RegistryAction) :
    Runs.Always step Swept (.init maxActive) acts ↔
      Runs.Along step RefusesLate (.init maxActive) acts :=
  Runs.always_iff_along (I := fun _ => True) (fun _ _ _ _ _ => trivial)
    (fun s a s' _ hs h => swept_step s a s' hs h) acts _ trivial
    fun hgone => absurd hgone.1 Bool.false_ne_true

/-- The reader registers `b` after a whole `disconnect`: nobody cancels it. -/
theorem register_after_disconnect :
    ¬ ∀ (maxActive : Nat) (acts : List RegistryAction),
      Runs.Always step Swept (.init maxActive) acts := by
  intro h
  have hrun : Runs.exec step (.init 1) [.mark, .sweep, .register "b"] =
      some ⟨(ConnectionState.new 1).markDisconnected.sweep.insert "b" rfl, 0⟩ := rfl
  have hswept := (Runs.always_iff_prefix _ _).mp (h 1 [.mark, .sweep, .register "b"]) _
    List.prefix_rfl _ hrun
  exact ConnectionState.not_allCancelled_insert rfl (hswept ⟨rfl, rfl⟩)

end Registry
end VcdTools.Server
