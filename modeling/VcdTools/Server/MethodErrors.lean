import VcdTools.Server.ConnectionSteps
import VcdTools.Server.RequestCodec

/-! # Lines whose method or parameters are wrong

Such a line is a request by its envelope, so that an error could name its id.
The reader does not tell it from a line that is no request at all: it answers
without an id and leaves. -/
namespace VcdTools.Server
open VcdTools.Lib Requests

/-- A strict JSON object with the supported version, an id that is valid and not
active, a string method and an object of parameters; but the parameters do not
follow the grammar of the method, or no such method is there. -/
structure MethodError (serde : SerdeJson) (isActive : String → Bool) (text id : String) :
    Prop where
  idOk : IdOk id
  inactive : isActive id = false
  envelope : ∃ envelope name params, parseStrictJson serde text = .ok (.object envelope) ∧
    Fields.get envelope "v" = some (.number (.posInt 1)) ∧
    Fields.get envelope "id" = some (.string id) ∧
    Fields.get envelope "method" = some (.string name) ∧
    Fields.get envelope "params" = some (.object params) ∧
    ¬ Requests.Follows name (Fields.get params)

/-- The reader takes no more lines. -/
def ReaderPc.leaving : ReaderPc → Bool
  | .rejecting _ | .forcing | .closing | .joining | .stopped => true
  | _ => false

namespace Connection

variable {env : ConnectionEnv} {s s' : Connection} {i : Nat} {id : String}

/-- What the protocol has the server do with the line at hand: the reader is
back, an error frame with the line's id is on its way or has arrived, the
connection is open, and no live token has been cancelled. -/
structure Kept (s s' : Connection) (id : String) : Prop where
  reading : s'.reader = .reading
  answered : (∃ error, ⟨.ofError (some id) 0 error, some s.next⟩ ∈ s'.inFlight) ∨
    ∃ line, s'.sent[s.next]? = some line ∧ line.terminated = true
  flag : s'.flag = s.flag
  spared : ∀ k, (k, false) ∈ s.registry.state.active → s'.registry.state.isActive k = true →
    (k, false) ∈ s'.registry.state.active

/-- The decoder refuses the line. -/
theorem refused {serde : SerdeJson} {isActive : String → Bool} {text : String}
    (h : MethodError serde isActive text id) :
    ∃ error, decodeRequestWithActive serde text isActive = .error error := by
  cases hd : decodeRequestWithActive serde text isActive with
  | error error => exact ⟨error, rfl⟩
  | ok request =>
    obtain ⟨hdecode, _⟩ := decodeRequestWithActive_ok_iff.mp hd
    obtain ⟨hvalid, envelope, params, hparse, henv⟩ := decodeRequest_ok_iff.mp hdecode
    obtain ⟨envelope', name, params', hparse', _, _, hname, hparams, hnot⟩ := h.envelope
    cases hparse.symm.trans hparse'
    cases hname.symm.trans henv.method
    cases hparams.symm.trans henv.parameters
    exact absurd (follows_of_agrees hvalid.2 henv.agrees) hnot

/-! ## A reader that leaves -/

/-- The flag is up, and every active request is cancelled once no `disconnect` runs. -/
def HungUp (s : Connection) : Prop :=
  s.flag = true ∧ (s.registry.sweeping = 0 → s.registry.state.AllCancelled)

/-- The reader is leaving, and line `i` has got no frame of its own. -/
structure Dismissed (s : Connection) (i : Nat) : Prop where
  leaving : s.reader.leaving = true
  gone : s.places i = .gone
  silent : ¬ s.Answered i
  stopped : s.reader = .stopped → s.HungUp

theorem hungUp_disconnect (s : Connection) : s.disconnect.HungUp :=
  ⟨rfl, fun h => absurd h (Nat.succ_ne_zero _)⟩

theorem Dismissed.not_reading (h : s.Dismissed i) : s.reader ≠ .reading := by
  intro hreader
  have hleaving := h.leaving
  rw [hreader] at hleaving
  cases hleaving

/-- The line is refused with an error that has no id. -/
theorem Inv.dismissed (hi : Inv env s) {line : ClientLine} (hline : s.sent[s.next]? = some line)
    (h : MethodError env.serde s.registry.state.isActive line.text id)
    (hread : s.read env = some s') : s'.Dismissed s.next := by
  obtain ⟨line', _, hline', rfl⟩ := read_cases hread
  cases hline.symm.trans hline'
  obtain ⟨error, herror⟩ := refused h
  have hrefuse : ({ s with next := s.next + 1 } : Connection).accept env s.next line =
      ({ s with next := s.next + 1 } : Connection).refuse s.next error
        (line.fresh && error.code == .duplicateRequestId) := by
    rw [accept, herror]
  rw [hrefuse]
  exact ⟨rfl, place_self .., hi.not_answered, fun hstop => (by cases hstop)⟩

/-- Frames of other lines do not answer the line. -/
theorem not_answered_append {frames : List OutputFrame} {places : Nat → Place}
    {registry : Registry} {reader : ReaderPc} (h : ¬ s.Answered i)
    (hframes : ∀ frame ∈ frames, frame.owner ≠ some i) :
    ¬ ({ s with output := s.output ++ frames, places, registry, reader } : Connection).Answered
      i := by
  rintro (⟨frame, hmem, howner⟩ | hline)
  · rw [inFlight, ← List.append_assoc] at hmem
    rcases List.mem_append.mp hmem with hmem | hmem
    · exact h (.inl ⟨frame, hmem, howner⟩)
    · exact hframes frame hmem howner
  · exact h (.inr hline)

theorem Dismissed.turn (h : s.Dismissed i) {look : ReaderLook} (ht : s.turn env look = some s') :
    s'.Dismissed i := by
  have hleaving := h.leaving
  unfold Connection.turn at ht
  cases hreader : s.reader with
  | rejecting error =>
    simp only [hreader] at ht
    split at ht
    · cases ht
      refine ⟨rfl, h.gone, not_answered_append h.silent ?_, fun hstop => (by cases hstop)⟩
      intro frame hmem
      cases List.mem_singleton.mp hmem
      exact fun howner => (by cases howner)
    · split at ht <;> cases ht
      · exact ⟨rfl, h.gone, h.silent, fun hstop => (by cases hstop)⟩
      · exact h
  | forcing | closing =>
    simp only [hreader] at ht
    cases ht
    exact ⟨rfl, h.gone, h.silent, fun hstop => (by cases hstop)⟩
  | joining =>
    simp only [hreader] at ht
    cases ht
    exact ⟨rfl, h.gone, h.silent, fun _ => hungUp_disconnect s⟩
  | stopped =>
    rw [hreader] at ht
    cases ht
  | reading | cancelling _ _ _ | registering _ _ | preparing _ _ | submitting _ _
  | releasing _ _ _ | replying _ _ =>
    rw [hreader] at hleaving
    cases hleaving

/-- The writer's frames are those of others. -/
theorem Dismissed.shift (h : s.Dismissed i) {writer : WriterPc} {output : List OutputFrame}
    (hmem : ∀ frame ∈ writer.frames ++ output, frame ∈ s.inFlight) :
    ({ s with writer, output } : Connection).Dismissed i :=
  ⟨h.leaving, h.gone, fun hans => h.silent (hans.imp_left fun ⟨frame, hframe, howner⟩ =>
    ⟨frame, hmem frame hframe, howner⟩), h.stopped⟩

theorem Dismissed.disconnect (h : s.Dismissed i) : s.disconnect.Dismissed i :=
  ⟨h.leaving, h.gone, h.silent, fun _ => hungUp_disconnect s⟩

/-- Another line's place does not matter. -/
theorem Dismissed.place (h : s.Dismissed i) {j : Nat} (hne : i ≠ j) (p : Place) :
    (s.place j p).Dismissed i :=
  ⟨h.leaving, (place_of_ne s p hne).trans h.gone, h.silent, h.stopped⟩

theorem Dismissed.work (h : s.Dismissed i) {j : Nat} {look : Look}
    (hw : s.work env j look = some s') : s'.Dismissed i := by
  obtain ⟨job, next, _, hplace, _, hs'⟩ := work_cases hw
  have hne : i ≠ j := by
    rintro rfl
    rw [h.gone] at hplace
    cases hplace
  have hpushed : ({ s.place j (.running next) with
      output := s.output ++ pushed j job next } : Connection).Dismissed i := by
    have hmoved := h.place hne (.running next)
    refine ⟨hmoved.leaving, hmoved.gone, not_answered_append h.silent ?_, hmoved.stopped⟩
    intro frame hmem howner
    obtain ⟨_, _, rfl⟩ := List.mem_map.mp hmem
    exact hne (Option.some.inj howner).symm
  rcases hs' with rfl | rfl
  · exact hpushed
  · exact hpushed.disconnect

theorem Dismissed.deliver (h : s.Dismissed i) {frame : OutputFrame} (hmem : frame ∈ s.inFlight) :
    (s.deliver frame).Dismissed i := by
  unfold Connection.deliver
  split
  · rename_i j howner
    split
    · refine ⟨h.leaving, h.gone, ?_, h.stopped⟩
      rintro (hframe | ⟨line, hline, hterm⟩)
      · exact h.silent (.inl hframe)
      · obtain ⟨before, hbefore, _, _, _, hold⟩ := get_terminate hline
        rcases hold hterm with rfl | hterm'
        · exact h.silent (.inl ⟨frame, hmem, howner⟩)
        · exact h.silent (.inr ⟨before, hbefore, hterm'⟩)
    · exact h
  · exact h

/-- **Whoever moves, the reader is leaving and the line has no answer.** -/
theorem Dismissed.step (h : s.Dismissed i) {a : ConnectionAction}
    (hs : s.step env a = some s') : s'.Dismissed i := by
  cases a with
  | send text =>
    cases hs
    refine ⟨h.leaving, h.gone, ?_, h.stopped⟩
    rintro (hframe | ⟨line, hline, hterm⟩)
    · exact h.silent (.inl hframe)
    · rcases Pool.get_append hline with ⟨_, rfl⟩ | hold
      · cases hterm
      · exact h.silent (.inr ⟨line, hold, hterm⟩)
  | read =>
    obtain ⟨_, hreader, _⟩ := read_cases hs
    exact absurd hreader h.not_reading
  | turn look => exact h.turn hs
  | badFrame _ | close =>
    simp only [Connection.step] at hs
    split at hs
    · rename_i hreader
      exact absurd hreader h.not_reading
    · cases hs
  | pick j program =>
    simp only [Connection.step, pick] at hs
    split at hs
    · rename_i request hplace
      cases hs
      refine h.place ?_ _
      rintro rfl
      rw [h.gone] at hplace
      cases hplace
    · cases hs
  | work j look => exact h.work hs
  | release j =>
    obtain ⟨job, hplace, _, rfl⟩ := release_cases hs
    have hne : i ≠ j := by
      rintro rfl
      rw [h.gone] at hplace
      cases hplace
    refine ⟨h.leaving, (place_of_ne _ _ hne).trans h.gone, h.silent, fun hstop => ?_⟩
    obtain ⟨hflag, hall⟩ := h.stopped hstop
    exact ⟨hflag, fun hzero => (hall hzero).remove _⟩
  | recv =>
    simp only [Connection.step, recv] at hs
    split at hs
    · rename_i frame output hwriter houtput
      cases hs
      refine h.shift fun frame' hmem => ?_
      rw [inFlight, hwriter, houtput]
      exact hmem
    · cases hs
  | check =>
    simp only [Connection.step, check] at hs
    split at hs
    · rename_i frame hwriter
      cases hs
      refine h.shift fun frame' hmem => ?_
      rw [inFlight, hwriter]
      split at hmem
      · exact List.mem_cons_of_mem _ hmem
      · exact hmem
    · cases hs
  | wrote whole =>
    simp only [Connection.step, wrote] at hs
    split at hs
    · rename_i frame hwriter
      have hmem : frame ∈ s.inFlight := by
        rw [inFlight, hwriter]
        exact List.mem_cons_self
      split at hs <;> cases hs
      · exact (h.deliver hmem).shift fun frame' hmem' => List.mem_append_right _ hmem'
      · refine h.shift fun frame' hmem' => ?_
        rw [inFlight, hwriter]
        exact hmem'
    · cases hs
  | writeFails =>
    simp only [Connection.step, writeFails] at hs
    split at hs <;> cases hs
    exact h.disconnect.shift fun frame hmem => List.mem_append_right _ hmem
  | sweep =>
    obtain ⟨registry, hsweep, rfl⟩ := Option.map_eq_some_iff.mp hs
    rw [Registry.step] at hsweep
    split at hsweep <;> cases hsweep
    exact ⟨h.leaving, h.gone, h.silent, fun hstop =>
      ⟨(h.stopped hstop).1, fun _ => ConnectionState.sweep_allCancelled _⟩⟩

/-! ## The way out -/

/-- The reader's own steps from here to its end. -/
def farewell : ReaderPc → Nat
  | .rejecting _ => 4
  | .forcing => 3
  | .closing => 2
  | .joining => 1
  | _ => 0

def impatient : ReaderLook := { gaveUp := true }

theorem Dismissed.farewell_step (env : ConnectionEnv) (h : s.Dismissed i) (hne : s.reader ≠ .stopped) :
    ∃ s', s.turn env impatient = some s' ∧ farewell s'.reader + 1 = farewell s.reader := by
  have hleaving := h.leaving
  cases hreader : s.reader with
  | rejecting error =>
    rw [Connection.turn]
    simp only [hreader]
    split
    · exact ⟨_, rfl, rfl⟩
    · exact ⟨_, rfl, rfl⟩
  | forcing | closing | joining =>
    rw [Connection.turn]
    simp only [hreader]
    exact ⟨_, rfl, rfl⟩
  | stopped => exact absurd hreader hne
  | reading | cancelling _ _ _ | registering _ _ | preparing _ _ | submitting _ _
  | releasing _ _ _ | replying _ _ =>
    rw [hreader] at hleaving
    cases hleaving

/-- The reader is gone, the flag is up and every active request is cancelled. -/
structure Closed (s : Connection) : Prop where
  stopped : s.reader = .stopped
  flag : s.flag = true
  cancelled : s.registry.state.AllCancelled

/-- The reader's own steps, and the sweep of its last `disconnect`, close the connection. -/
theorem Dismissed.closes (h : s.Dismissed i) :
    ∃ acts s', Runs.exec (Connection.step env) s acts = some s' ∧ s'.Closed := by
  induction hn : farewell s.reader generalizing s with
  | zero =>
    have hstop : s.reader = .stopped := by
      by_contra hne
      obtain ⟨_, _, hless⟩ := h.farewell_step env hne
      omega
    obtain ⟨hflag, hall⟩ := h.stopped hstop
    by_cases hzero : s.registry.sweeping = 0
    · exact ⟨[], s, rfl, hstop, hflag, hall hzero⟩
    · refine ⟨[.sweep],
        { s with registry := ⟨s.registry.state.sweep, s.registry.sweeping - 1⟩ }, ?_, hstop, hflag,
        ConnectionState.sweep_allCancelled s.registry.state⟩
      rw [Runs.exec_cons, Connection.step, Registry.step, if_neg hzero]
      rfl
  | succ n ih =>
    have hne : s.reader ≠ .stopped := by
      intro hstop
      rw [hstop] at hn
      cases hn
    obtain ⟨s', hturn, hless⟩ := h.farewell_step env hne
    obtain ⟨acts, t, hrun, hclosed⟩ := ih (h.turn hturn) (by omega)
    refine ⟨.turn impatient :: acts, t, ?_, hclosed⟩
    rw [Runs.exec_cons, Connection.step, hturn]
    exact hrun

/-! ## Every run -/

theorem dismissed_run (hi : Inv env s) {line : ClientLine} (hline : s.sent[s.next]? = some line)
    (h : MethodError env.serde s.registry.state.isActive line.text id)
    {acts : List ConnectionAction}
    (hrun : Runs.exec (Connection.step env) s (.read :: acts) = some s') :
    s'.Dismissed s.next := by
  obtain ⟨t, hread, hrest⟩ := Option.bind_eq_some_iff.mp hrun
  exact Runs.exec_invariant (I := fun u => u.Dismissed s.next) (fun _ _ _ hu hs => hu.step hs)
    acts t s' (hi.dismissed hline h hread) hrest

theorem Dismissed.not_kept {t : Connection} (h : s'.Dismissed t.next) : ¬ t.Kept s' id :=
  fun hkept => h.not_reading hkept.reading

/-- **A line whose method or parameters are wrong closes the connection.** From
any state of any run in which such a line is the reader's next, the reader takes
it, and no run from there keeps the connection as the protocol has it: in all of
them the reader is leaving and the line has no answer, and the reader's
remaining steps cancel every request. -/
theorem method_error_closes {before : List ConnectionAction} {line : ClientLine}
    (hbefore : Runs.exec (Connection.step env) (.init env) before = some s)
    (hreader : s.reader = .reading) (hline : s.sent[s.next]? = some line)
    (h : MethodError env.serde s.registry.state.isActive line.text id) :
    (¬ ∃ acts s', Runs.exec (Connection.step env) s (.read :: acts) = some s' ∧ s.Kept s' id) ∧
    (∃ s', s.step env .read = some s') ∧
    ∀ acts s', Runs.exec (Connection.step env) s (.read :: acts) = some s' →
      s'.Dismissed s.next ∧
      ∃ acts' t, Runs.exec (Connection.step env) s' acts' = some t ∧ t.Closed := by
  have hi : Inv env s := Runs.exec_invariant (fun _ _ _ hi hs => hi.step hs) before _ s
    (inv_init env) hbefore
  refine ⟨?_, ?_, ?_⟩
  · rintro ⟨acts, s', hrun, hkept⟩
    exact (dismissed_run hi hline h hrun).not_kept hkept
  · refine ⟨({ s with next := s.next + 1 } : Connection).accept env s.next line, ?_⟩
    rw [Connection.step, read, hreader, hline]
  · intro acts s' hrun
    have hdismissed := dismissed_run hi hline h hrun
    exact ⟨hdismissed, hdismissed.closes⟩

/-! ## An unknown method -/

def nopeLine : String :=
  "\x7b\"v\":1,\"id\":\"a\",\"method\":\"nope\",\"params\":\x7b\x7d\x7d"

/-- A server whose deserializer knows the one line. -/
def nopeEnv : ConnectionEnv where
  serde := {
    events _ := (.map [("v", .number (.posInt 1)), ("id", .string "a"),
      ("method", .string "nope"), ("params", .map [] none)] none, none)
    display _ error := error
    print _ := nopeLine }
  ser := .whole
  config := {
    outputChunks := 8
    maxActiveRequests := 8
    maxTimeoutMs := 1000
    maxEncodedFrameBytes := 4096 }

/-- The connection once the line is sent. -/
def nopeSent : Connection := Connection.send nopeEnv (.init nopeEnv) nopeLine

theorem nope_methodError : MethodError nopeEnv.serde (fun _ => false) nopeLine "a" where
  idOk := ⟨by decide, by decide⟩
  inactive := rfl
  envelope := by
    refine ⟨[("id", .string "a"), ("method", .string "nope"), ("params", .object []),
      ("v", .number (.posInt 1))], "nope", [], rfl, rfl, rfl, rfl, rfl, ?_⟩
    rintro ⟨_, htable, _⟩
    cases htable

theorem method_error_closes_nope :
    (¬ ∃ acts s', Runs.exec (Connection.step nopeEnv) nopeSent (.read :: acts) = some s' ∧
      nopeSent.Kept s' "a") ∧
    (∃ s', nopeSent.step nopeEnv .read = some s') ∧
    ∀ acts s', Runs.exec (Connection.step nopeEnv) nopeSent (.read :: acts) = some s' →
      s'.Dismissed 0 ∧
      ∃ acts' t, Runs.exec (Connection.step nopeEnv) s' acts' = some t ∧ t.Closed := by
  have hbefore : Runs.exec (Connection.step nopeEnv) (.init nopeEnv) [.send nopeLine] =
      some nopeSent := rfl
  exact method_error_closes hbefore rfl rfl nope_methodError

/-- The protocol's promise about such lines fails on an unknown method. -/
theorem method_error_not_kept : ¬ ∀ (env : ConnectionEnv) (before : List ConnectionAction)
    (s : Connection) (line : ClientLine) (id : String),
    Runs.exec (Connection.step env) (.init env) before = some s → s.reader = .reading →
    s.sent[s.next]? = some line →
    MethodError env.serde s.registry.state.isActive line.text id →
    ∃ acts s', Runs.exec (Connection.step env) s (.read :: acts) = some s' ∧ s.Kept s' id := by
  intro h
  obtain ⟨acts, s', hrun, hkept⟩ :=
    h nopeEnv [.send nopeLine] nopeSent _ "a" rfl rfl rfl nope_methodError
  have hi : Inv nopeEnv nopeSent := (inv_init nopeEnv).sendStep nopeLine
  have hdismissed := dismissed_run hi (show nopeSent.sent[nopeSent.next]? = some _ from rfl) nope_methodError hrun
  exact hdismissed.not_kept hkept

end Connection
end VcdTools.Server
