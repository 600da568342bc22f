import VcdTools.Lib.Leases
import VcdTools.Lib.Pool
import VcdTools.Server.Connection

/-! # What holds on a connection

Between two steps of anybody, the active ids are those that some line holds,
each line's place agrees with what the reader is about to do with it, and a
line has been answered only when it is on a worker or through. The client's
side of the history is kept as well: what it had outstanding when it sent. -/
namespace VcdTools.Server
open VcdTools.Lib Requests Leases

/-! ## The ids of the registry -/

namespace ConnectionState
variable {self next : ConnectionState} {id k : String}

theorem isActive_cancelWhere (chosen : String → Bool) :
    (self.cancelWhere chosen).isActive k = self.isActive k := by
  simp only [isActive, cancelWhere, List.any_map]
  rfl

theorem isActive_cancel : (self.cancel id).2.isActive k = self.isActive k := by
  rw [cancel]
  split
  · exact isActive_cancelWhere _
  · rfl

theorem maxActive_cancel : (self.cancel id).2.maxActive = self.maxActive := by
  rw [cancel]
  split <;> rfl

theorem isActive_remove : (self.remove id).isActive k = true ↔ self.isActive k = true ∧ k ≠ id := by
  simp only [isActive_iff, remove, List.mem_map, List.mem_filter, bne_iff_ne]
  constructor
  · rintro ⟨entry, ⟨hmem, hne⟩, rfl⟩
    exact ⟨⟨entry, hmem, rfl⟩, hne⟩
  · rintro ⟨⟨entry, hmem, rfl⟩, hne⟩
    exact ⟨entry, ⟨hmem, hne⟩, rfl⟩

theorem isActive_insert (h : self.isActive id = false) :
    (self.insert id h).isActive k = true ↔ k = id ∨ self.isActive k = true := by
  simp only [isActive_iff, insert, List.map_append, List.mem_append, List.map_cons, List.map_nil,
    List.mem_singleton]
  exact or_comm

end ConnectionState

/-! ## The client's side -/

section Client
variable {env : ConnectionEnv} {sent : List ClientLine} {within : Bool} {max : Nat}

/-- A fresh line is a request and comes after the terminal frames of all its
namesakes; a client that was within the maximum had room for each line that it sent. -/
structure SentOk (env : ConnectionEnv) (sent : List ClientLine) (within : Bool) : Prop where
  named : ∀ {i : Nat} {line : ClientLine}, sent[i]? = some line → line.fresh = true →
    ∃ id, env.requestId line.text = some id
  fresh : ∀ {i : Nat} {line : ClientLine} {id}, sent[i]? = some line → line.fresh = true →
    env.requestId line.text = some id → ∀ {j : Nat} {earlier : ClientLine}, j < i →
      sent[j]? = some earlier → env.requestId earlier.text = some id → earlier.terminated = true
  within : within = true → ∀ i < sent.length,
    (sent.take (i + 1)).countP env.outstanding ≤ env.config.maxActiveRequests

theorem get_terminate {i j : Nat} {line : ClientLine}
    (h : (sent.modify i ClientLine.terminate)[j]? = some line) :
    ∃ before, sent[j]? = some before ∧ before.text = line.text ∧ before.fresh = line.fresh ∧
      (before.terminated = true → line.terminated = true) ∧
      (line.terminated = true → j = i ∨ before.terminated = true) := by
  rw [List.getElem?_modify] at h
  obtain ⟨before, hbefore, rfl⟩ := Option.map_eq_some_iff.mp h
  refine ⟨before, hbefore, ?_⟩
  split
  · rename_i hij
    exact ⟨rfl, rfl, fun _ => rfl, fun _ => .inl hij.symm⟩
  · exact ⟨rfl, rfl, fun h => h, .inr⟩

/-- No line is lost or rewritten. -/
theorem get_terminate_of {i j : Nat} {line : ClientLine} (h : sent[j]? = some line) :
    ∃ after, (sent.modify i ClientLine.terminate)[j]? = some after ∧ after.text = line.text := by
  refine ⟨_, by rw [List.getElem?_modify, h]; rfl, ?_⟩
  split <;> rfl

theorem outstanding_terminate_le (sent : List ClientLine) : ∀ i k : Nat,
    ((sent.modify i ClientLine.terminate).take k).countP env.outstanding ≤
      (sent.take k).countP env.outstanding := by
  induction sent with
  | nil =>
    intro i k
    rw [List.modify_nil]
  | cons line sent ih =>
    intro i k
    cases k with
    | zero => exact Nat.le_refl _
    | succ k =>
      cases i with
      | zero =>
        rw [List.modify_zero_cons, List.take_succ_cons, List.take_succ_cons, List.countP_cons,
          List.countP_cons]
        have hnot : env.outstanding line.terminate = false := by
          simp only [ConnectionEnv.outstanding, ClientLine.terminate, Bool.not_true, Bool.and_false]
        rw [hnot]
        exact Nat.add_le_add_left (Nat.zero_le _) _
      | succ i =>
        rw [List.modify_succ_cons, List.take_succ_cons, List.take_succ_cons, List.countP_cons,
          List.countP_cons]
        exact Nat.add_le_add_right (ih i k) _

theorem SentOk.terminate (h : SentOk env sent within) (i : Nat) :
    SentOk env (sent.modify i ClientLine.terminate) within := by
  constructor
  · intro j line hline hfresh
    obtain ⟨line', hline', htext, hfresh', _⟩ := get_terminate hline
    obtain ⟨id, hid⟩ := h.named hline' (hfresh' ▸ hfresh)
    exact ⟨id, htext ▸ hid⟩
  · intro j line id hline hfresh hid k earlier hk hearlier heid
    obtain ⟨line', hline', htext, hfresh', _⟩ := get_terminate hline
    obtain ⟨earlier', hearlier', hetext, _, hterm, _⟩ := get_terminate hearlier
    have hid' : env.requestId line'.text = some id := by rw [htext, hid]
    have heid' : env.requestId earlier'.text = some id := by rw [hetext, heid]
    exact hterm (h.fresh hline' (hfresh' ▸ hfresh) hid' hk hearlier' heid')
  · intro hwithin j hj
    rw [List.length_modify] at hj
    exact Nat.le_trans (outstanding_terminate_le sent i (j + 1)) (h.within hwithin j hj)

theorem SentOk.send {s : Connection} (h : SentOk env s.sent s.within) (text : String) :
    SentOk env (s.send env text).sent (s.send env text).within := by
  constructor
  · intro i line hline hfresh
    rcases Pool.get_append hline with ⟨_, rfl⟩ | hold
    · obtain ⟨id, hid, _⟩ := (Option.any_eq_true _ _).mp hfresh
      exact ⟨id, hid⟩
    · exact h.named hold hfresh
  · intro i line id hline hfresh hid j earlier hj hearlier heid
    have hearlier' : s.sent[j]? = some earlier := by
      rcases Pool.get_append hearlier with ⟨rfl, _⟩ | hold
      · have hlen := (List.getElem?_eq_some_iff.mp hline).1
        rw [Connection.send, List.length_append, List.length_singleton] at hlen
        omega
      · exact hold
    rcases Pool.get_append hline with ⟨rfl, rfl⟩ | hold
    · -- the new line looked at all before it
      obtain ⟨id', hid', hall⟩ := (Option.any_eq_true _ _).mp hfresh
      cases hid.symm.trans hid'
      have hthis := List.all_eq_true.mp hall earlier (List.mem_of_getElem? hearlier')
      rw [heid, bne_self_eq_false, Bool.false_or] at hthis
      exact hthis
    · exact h.fresh hold hfresh hid hj hearlier' heid
  · intro hwithin i hi
    obtain ⟨hbefore, hnow⟩ := Bool.and_eq_true_iff.mp hwithin
    rw [Connection.send, List.length_append, List.length_singleton] at hi
    rw [Connection.send]
    rcases Nat.lt_or_ge i s.sent.length with hlt | hge
    · rw [List.take_append_of_le_length hlt]
      exact h.within hbefore i hlt
    · rw [List.take_of_length_le (by rw [List.length_append, List.length_singleton]; omega)]
      exact of_decide_eq_true hnow

end Client

/-! ## The invariant -/

/-- Where a line that has been answered may be. -/
def Place.settled : Place → Bool
  | .running _ => true
  | .gone => true
  | _ => false

/-- On its way through the scheduler, out of the reader's hands. -/
def Place.scheduled : Place → Bool
  | .queued _ => true
  | .running _ => true
  | _ => false

namespace Connection
variable {env : ConnectionEnv} {s s' : Connection} {i : Nat} {p : Place}

def holders (s : Connection) (i : Nat) : Option String := (s.places i).holds

/-- The frames that are on their way to the client. -/
def inFlight (s : Connection) : List OutputFrame := s.writer.frames ++ s.output

/-- A frame of the line is on its way, or its terminal frame has arrived. -/
def Answered (s : Connection) (i : Nat) : Prop :=
  (∃ frame ∈ s.inFlight, frame.owner = some i) ∨
    ∃ line, s.sent[i]? = some line ∧ line.terminated = true

/-- What the reader relies on at its next step. -/
def ReaderOk (env : ConnectionEnv) (s : Connection) : Prop :=
  match s.reader with
  | .registering i request => s.places i = .atReader ∧ i + 1 = s.next ∧
      s.registry.state.isActive request.id = false ∧ request.method.name ≠ "cancel" ∧
      ∃ line, s.sent[i]? = some line ∧ env.request line.text = some request
  | .preparing i request => s.places i = .admitting request.id
  | .submitting i request => s.places i = .admitting request.id
  | .releasing i id _ => s.places i = .admitting id
  | .cancelling i _ _ => s.places i = .gone
  | .replying i _ => s.places i = .gone
  | .reading | .rejecting _ | .forcing | .closing | .joining | .stopped => True

structure Inv (env : ConnectionEnv) (s : Connection) : Prop where
  maxActive : s.registry.state.maxActive = env.config.maxActiveRequests
  leased : Leased (fun id => s.registry.state.isActive id = true) s.holders
  admitted : ∀ {i id}, s.holders i = some id → ∃ line, s.sent[i]? = some line ∧
    env.requestId line.text = some id ∧ env.takesSlot line.text = true
  unread : ∀ {i}, s.next ≤ i → s.places i = .unread
  read : s.next ≤ s.sent.length
  settled : ∀ {i}, s.Answered i → (s.places i).settled = true
  sent : SentOk env s.sent s.within
  reader : s.ReaderOk env

theorem inv_init (env : ConnectionEnv) : Inv env (.init env) where
  maxActive := rfl
  leased := .initial fun _ h => Bool.false_ne_true h
  admitted := fun h => (by cases h)
  unread := fun _ => rfl
  read := Nat.le_refl _
  settled := by
    rintro i (⟨frame, hmem, _⟩ | ⟨line, hline, _⟩)
    · cases hmem
    · cases hline
  sent := ⟨fun h => (by cases h), fun h => (by cases h), fun _ _ h => absurd h (Nat.not_lt_zero _)⟩
  reader := trivial

theorem holders_place (s : Connection) (i : Nat) (p : Place) :
    (s.place i p).holders = Function.update s.holders i p.holds :=
  Function.comp_update Place.holds s.places i p

/-- A line that holds an id has been read. -/
theorem Inv.holds_lt (hi : Inv env s) {id : String} (h : s.holders i = some id) : i < s.next := by
  by_contra hge
  rw [holders, hi.unread (Nat.not_lt.mp hge)] at h
  cases h

/-- Only the places of scheduled lines, the ids and the client's lines move, and
those not in a way that the reader minds. -/
theorem ReaderOk.frame (h : s.ReaderOk env) (hreader : s'.reader = s.reader)
    (hnext : s'.next = s.next)
    (hplaces : ∀ i, (s.places i).scheduled = false → s'.places i = s.places i)
    (hactive : ∀ id, s'.registry.state.isActive id = true → s.registry.state.isActive id = true)
    (hsent : ∀ (i : Nat) (line : ClientLine), s.sent[i]? = some line →
      ∃ after : ClientLine, s'.sent[i]? = some after ∧ after.text = line.text) :
    s'.ReaderOk env := by
  have hkeep : ∀ {i p}, s.places i = p → p.scheduled = false → s'.places i = p := by
    rintro i p rfl hp
    exact hplaces i hp
  unfold ReaderOk at h ⊢
  rw [hreader]
  cases hr : s.reader with
  | registering i request =>
    simp only [hr] at h ⊢
    obtain ⟨hplace, hi, hfree, hname, line, hline, hrequest⟩ := h
    obtain ⟨after, hafter, htext⟩ := hsent i line hline
    refine ⟨hkeep hplace rfl, hi.trans hnext.symm, ?_, hname, after, hafter, htext ▸ hrequest⟩
    rw [← Bool.not_eq_true] at hfree ⊢
    exact fun hact => hfree (hactive _ hact)
  | preparing i request =>
    simp only [hr] at h ⊢
    exact hkeep h rfl
  | submitting i request =>
    simp only [hr] at h ⊢
    exact hkeep h rfl
  | releasing i id error =>
    simp only [hr] at h ⊢
    exact hkeep h rfl
  | cancelling i id target =>
    simp only [hr] at h ⊢
    exact hkeep h rfl
  | replying i frame =>
    simp only [hr] at h ⊢
    exact hkeep h rfl
  | reading | rejecting _ | forcing | closing | joining | stopped => trivial

/-- The reader goes on to something that it is ready for. -/
theorem Inv.withReader (hi : Inv env s) {pc : ReaderPc}
    (h : ({ s with reader := pc } : Connection).ReaderOk env) :
    Inv env { s with reader := pc } :=
  { hi with reader := h }

/-- The registry changes, but not its ids. -/
theorem Inv.withRegistry (hi : Inv env s) (registry : Registry)
    (hmax : registry.state.maxActive = s.registry.state.maxActive)
    (hactive : ∀ id, registry.state.isActive id = s.registry.state.isActive id) :
    Inv env { s with registry } :=
  { hi with
    maxActive := hmax.trans hi.maxActive
    leased := hi.leased.congr fun id => by rw [hactive]
    reader := hi.reader.frame rfl rfl (fun _ _ => rfl) (fun id h => hactive id ▸ h)
      fun _ line h => ⟨line, h, rfl⟩ }

theorem Inv.disconnect (hi : Inv env s) : Inv env s.disconnect :=
  hi.withRegistry _ rfl fun _ => rfl

end Connection
end VcdTools.Server
