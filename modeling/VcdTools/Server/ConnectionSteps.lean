import VcdTools.Server.ConnectionInvariant

/-! # Every step of a connection keeps the invariant

The moves that several steps share come first: a line changes its place with
the id that it holds, takes an id, or gives it back; frames come into the
channel or leave it. Each step is one of them or a few. -/
namespace VcdTools.Server.Connection
open VcdTools.Lib Requests Leases

variable {env : ConnectionEnv} {s s' : Connection} {i : Nat} {p : Place}

/-! ## Moves -/

theorem place_self (s : Connection) (i : Nat) (p : Place) : (s.place i p).places i = p :=
  Function.update_self ..

theorem place_of_ne (s : Connection) {i j : Nat} (p : Place) (h : j ≠ i) :
    (s.place i p).places j = s.places j := Function.update_of_ne h ..

theorem unread_place (hi : Inv env s) (hlt : i < s.next) {j : Nat} (hj : s.next ≤ j) :
    (s.place i p).places j = .unread := by
  rw [place_of_ne s p (by omega)]
  exact hi.unread hj

theorem settled_place (hi : Inv env s) (hp : s.Answered i → p.settled = true) {j : Nat}
    (hj : s.Answered j) : ((s.place i p).places j).settled = true := by
  by_cases hji : j = i
  · subst hji
    rw [place_self]
    exact hp hj
  · rw [place_of_ne s p hji]
    exact hi.settled hj

/-- A line goes elsewhere with what it holds. -/
theorem Inv.move (hi : Inv env s) (pc : ReaderPc) (hlt : i < s.next) (hholds : p.holds = s.holders i)
    (hp : s.Answered i → p.settled = true)
    (hreader : ({ s.place i p with reader := pc } : Connection).ReaderOk env) :
    Inv env { s.place i p with reader := pc } := by
  have hsame : (s.place i p).holders = s.holders := by
    rw [holders_place, hholds, Function.update_eq_self]
  exact { hi with
    leased := by
      show Leased _ (s.place i p).holders
      rw [hsame]
      exact hi.leased
    admitted := by
      intro j id hj
      have hj' : s.holders j = some id := hsame ▸ hj
      exact hi.admitted hj'
    unread := unread_place hi hlt
    settled := settled_place hi hp
    reader := hreader }

/-- A line goes elsewhere while the reader is with another. -/
theorem Inv.moveScheduled (hi : Inv env s) (hscheduled : (s.places i).scheduled = true)
    (hholds : p.holds = s.holders i) (hp : s.Answered i → p.settled = true) :
    Inv env (s.place i p) := by
  have hlt : i < s.next := by
    by_contra hge
    rw [hi.unread (Nat.not_lt.mp hge)] at hscheduled
    cases hscheduled
  refine hi.move s.reader hlt hholds hp ?_
  refine hi.reader.frame rfl rfl (fun j hj => place_of_ne s p ?_) (fun _ h => h)
    fun _ line h => ⟨line, h, rfl⟩
  rintro rfl
  rw [hscheduled] at hj
  cases hj

/-- A line gives its id back. -/
theorem Inv.giveBack (hi : Inv env s) (pc : ReaderPc) {id : String} (hholds : s.holders i = some id)
    (hreader : ({ (s.withState (s.registry.state.remove id)).place i .gone with
      reader := pc } : Connection).ReaderOk env) :
    Inv env { (s.withState (s.registry.state.remove id)).place i .gone with reader := pc } := by
  have hheld : (s.place i .gone).holders = Function.update s.holders i none :=
    holders_place s i .gone
  exact { hi with
    leased := by
      show Leased _ (s.place i .gone).holders
      rw [hheld]
      exact hi.leased.release hholds fun _ => ConnectionState.isActive_remove
    admitted := by
      intro j id' hj
      have hj' : Function.update s.holders i none j = some id' := hheld ▸ hj
      by_cases hji : j = i
      · subst hji
        rw [Function.update_self] at hj'
        cases hj'
      · rw [Function.update_of_ne hji] at hj'
        exact hi.admitted hj'
    unread := unread_place hi (hi.holds_lt hholds)
    settled := settled_place hi fun _ => rfl
    reader := hreader }

/-- Frames of lines that may be answered come into the channel. -/
theorem Inv.pushAll (hi : Inv env s) (frames : List OutputFrame)
    (hframes : ∀ frame ∈ frames, ∀ j, frame.owner = some j → (s.places j).settled = true) :
    Inv env { s with output := s.output ++ frames } :=
  { hi with
    settled := by
      rintro j (⟨frame, hmem, howner⟩ | hline)
      · rw [inFlight, ← List.append_assoc] at hmem
        rcases List.mem_append.mp hmem with hmem | hmem
        · exact hi.settled (.inl ⟨frame, hmem, howner⟩)
        · exact hframes frame hmem j howner
      · exact hi.settled (.inr hline) }

/-- Frames move on, and none is new. -/
theorem Inv.shift (hi : Inv env s) {writer : WriterPc} {output : List OutputFrame}
    (h : ∀ frame ∈ writer.frames ++ output, frame ∈ s.inFlight) :
    Inv env { s with writer, output } :=
  { hi with
    settled := by
      rintro j (⟨frame, hmem, howner⟩ | hline)
      · exact hi.settled (.inl ⟨frame, h frame hmem, howner⟩)
      · exact hi.settled (.inr hline) }

/-! ## The reader -/

theorem takesSlot_of_request {text : String} {request : Request}
    (h : env.request text = some request) (hname : request.method.name ≠ "cancel") :
    env.takesSlot text = true := by
  rw [ConnectionEnv.takesSlot, h]
  exact bne_iff_ne.mpr hname

theorem requestId_of_request {text : String} {request : Request}
    (h : env.request text = some request) : env.requestId text = some request.id := by
  rw [ConnectionEnv.requestId, h]
  rfl

/-- What `decode_request_with_active` adds to `decode_request`. -/
theorem decodeRequestWithActive_ok_iff {serde : SerdeJson} {line : String}
    {isActive : String → Bool} {request : Request} :
    decodeRequestWithActive serde line isActive = .ok request ↔
      decodeRequest serde line = .ok request ∧ isActive request.id = false := by
  rw [decodeRequestWithActive, Fallible.bind_ok_iff]
  constructor
  · rintro ⟨request', hdecode, h⟩
    obtain ⟨_, hactive, h⟩ := Fallible.bind_ok_iff.mp h
    cases h
    refine ⟨hdecode, ?_⟩
    rw [Request.validateInactive] at hactive
    split at hactive
    · cases hactive
    · rename_i hnot
      exact Bool.not_eq_true _ ▸ hnot
  · rintro ⟨hdecode, hactive⟩
    refine ⟨request, hdecode, Fallible.bind_ok_iff.mpr ⟨⟨⟩, ?_, rfl⟩⟩
    rw [Request.validateInactive, hactive]
    rfl

/-- What the reader may do with a line it has decoded. -/
theorem accept_cases (env : ConnectionEnv) (s : Connection) (i : Nat) (line : ClientLine) :
    (∃ error, decodeRequestWithActive env.serde line.text s.registry.state.isActive =
        .error error ∧
      s.accept env i line = s.refuse i error (line.fresh && error.code == .duplicateRequestId)) ∨
    (∃ id target, s.accept env i line =
      { s.place i .gone with reader := .cancelling i id target }) ∨
    (∃ frame, s.accept env i line = { s.place i .gone with reader := .replying i frame }) ∨
    ∃ request, decodeRequestWithActive env.serde line.text s.registry.state.isActive =
        .ok request ∧ request.method.name ≠ "cancel" ∧
      s.accept env i line = { s.place i .atReader with reader := .registering i request } := by
  cases hd : decodeRequestWithActive env.serde line.text s.registry.state.isActive with
  | error error =>
    exact .inl ⟨error, rfl, by rw [accept, hd]⟩
  | ok request =>
    obtain ⟨id, method⟩ := request
    cases ht : effectiveTimeoutMs method env.config.maxTimeoutMs with
    | error error =>
      cases method with
      | cancel params => exact .inr (.inl ⟨id, params.requestId, by rw [accept, hd]⟩)
      | _ =>
        exact .inr (.inr (.inl ⟨.ofError (some id) 0 error, by rw [accept, hd]; simp only [ht]⟩))
    | ok timeout =>
      cases method with
      | cancel params => exact .inr (.inl ⟨id, params.requestId, by rw [accept, hd]⟩)
      | _ => exact .inr (.inr (.inr ⟨⟨id, _⟩, rfl, by simp [RequestMethod.name],
          by rw [accept, hd]; simp only [ht]⟩))

/-- A line that is not read yet can be taken by the reader. -/
theorem Inv.advance (hi : Inv env s) (hreader : s.reader = .reading) {line : ClientLine}
    (hline : s.sent[s.next]? = some line) : Inv env { s with next := s.next + 1 } :=
  { hi with
    unread := fun hj => hi.unread (Nat.le_of_succ_le hj)
    read := (List.getElem?_eq_some_iff.mp hline).1
    reader := by
      unfold ReaderOk
      simp only [hreader] }

theorem Inv.not_answered (hi : Inv env s) : ¬ s.Answered s.next := by
  intro h
  have hsettled := hi.settled h
  rw [hi.unread (Nat.le_refl _)] at hsettled
  cases hsettled

theorem Inv.refuse (hi : Inv env s) (hlt : i < s.next) (hholds : s.holders i = none)
    (error : ProtocolError) (wrong : Bool) : Inv env (s.refuse i error wrong) :=
  { hi.move (p := .gone) (.rejecting error) hlt hholds.symm (fun _ => rfl) trivial with }

theorem read_cases (h : s.read env = some s') :
    ∃ line, s.reader = .reading ∧ s.sent[s.next]? = some line ∧
      s' = ({ s with next := s.next + 1 } : Connection).accept env s.next line := by
  unfold read at h
  split at h
  · rename_i line hreader hline
    exact ⟨line, hreader, hline, (Option.some.inj h).symm⟩
  · cases h

theorem Inv.readStep (hi : Inv env s) (h : s.read env = some s') : Inv env s' := by
  obtain ⟨line, hreader, hline, rfl⟩ := read_cases h
  have hi' := hi.advance hreader hline
  have hnone : s.holders s.next = none := by
    rw [holders, hi.unread (Nat.le_refl _)]
    rfl
  rcases accept_cases env { s with next := s.next + 1 } s.next line with
    ⟨error, _, heq⟩ | ⟨id, target, heq⟩ | ⟨frame, heq⟩ | ⟨request, hdecode, hname, heq⟩
  · rw [heq]
    exact hi'.refuse (Nat.lt_succ_self _) hnone error _
  · rw [heq]
    exact hi'.move _ (Nat.lt_succ_self _) hnone.symm (fun _ => rfl) (place_self ..)
  · rw [heq]
    exact hi'.move _ (Nat.lt_succ_self _) hnone.symm (fun _ => rfl) (place_self ..)
  · rw [heq]
    obtain ⟨hdecode, hfree⟩ := decodeRequestWithActive_ok_iff.mp hdecode
    refine hi'.move _ (Nat.lt_succ_self _) hnone.symm (fun h => absurd h hi.not_answered) ?_
    refine ⟨place_self .., rfl, hfree, hname, line, hline, ?_⟩
    rw [ConnectionEnv.request, hdecode]
    rfl

/-- The request that `register` takes gets its line. -/
theorem Inv.registerStep (hi : Inv env s) {request : Request} {line : ClientLine}
    (hreader : s.reader = .registering i request) (hline : s.sent[i]? = some line) :
    Inv env (s.register i request line) := by
  have hok := hi.reader
  unfold ReaderOk at hok
  simp only [hreader] at hok
  obtain ⟨hplace, hnext, hfree, hname, line', hline', hrequest⟩ := hok
  cases hline.symm.trans hline'
  have hlt : i < s.next := by omega
  have hnone : s.holders i = none := by
    rw [holders, hplace]
    rfl
  cases hr : s.registry.state.register request.id with
  | error error =>
    rw [Connection.register, hr]
    exact hi.refuse hlt hnone error _
  | ok state =>
    rw [Connection.register, hr]
    obtain ⟨hfree', _, rfl⟩ := ConnectionState.register_ok_iff.mp hr
    have hheld : (s.place i (.admitting request.id)).holders =
        Function.update s.holders i (some request.id) := holders_place s i _
    have hnot : ¬ s.Answered i := by
      intro h
      have hsettled := hi.settled h
      rw [hplace] at hsettled
      cases hsettled
    exact { hi with
      leased := by
        show Leased _ (s.place i (.admitting request.id)).holders
        rw [hheld]
        exact hi.leased.acquire (fun h => Bool.false_ne_true (hfree.symm.trans h)) hnone
          fun _ => ConnectionState.isActive_insert hfree'
      admitted := by
        intro j id hj
        have hj' : Function.update s.holders i (some request.id) j = some id := hheld ▸ hj
        by_cases hji : j = i
        · subst hji
          rw [Function.update_self] at hj'
          cases hj'
          exact ⟨line, hline, requestId_of_request hrequest, takesSlot_of_request hrequest hname⟩
        · rw [Function.update_of_ne hji] at hj'
          exact hi.admitted hj'
      unread := unread_place hi hlt
      settled := settled_place hi fun h => absurd h hnot
      reader := place_self .. }

theorem Inv.turnStep (hi : Inv env s) {look : ReaderLook} (h : s.turn env look = some s') :
    Inv env s' := by
  have hok := hi.reader
  unfold ReaderOk at hok
  unfold turn at h
  cases hreader : s.reader with
  | reading | stopped =>
    rw [hreader] at h
    cases h
  | cancelling i id target =>
    simp only [hreader] at h hok
    cases h
    have hsame := hi.withRegistry
      ⟨(s.registry.state.cancel target).2, s.registry.sweeping⟩ ConnectionState.maxActive_cancel
      fun _ => ConnectionState.isActive_cancel
    exact hsame.withReader hok
  | registering i request =>
    simp only [hreader] at h
    obtain ⟨line, hline, rfl⟩ := Option.map_eq_some_iff.mp h
    exact hi.registerStep hreader hline
  | preparing i request =>
    simp only [hreader] at h hok
    split at h <;> cases h
    · exact hi.withReader hok
    · exact hi.withReader hok
  | submitting i request =>
    simp only [hreader] at h hok
    split at h <;> cases h
    · exact hi.withReader hok
    · have hholds : s.holders i = some request.id := by
        rw [holders, hok]
        rfl
      refine hi.move _ (hi.holds_lt hholds) hholds.symm (fun h => ?_) trivial
      have hsettled := hi.settled h
      rw [hok] at hsettled
      cases hsettled
  | releasing i id error =>
    simp only [hreader] at h hok
    cases h
    refine hi.giveBack _ ?_ (place_self ..)
    rw [holders, hok]
    rfl
  | replying i frame =>
    simp only [hreader] at h hok
    split at h
    · cases h
      have hpushed := hi.pushAll [⟨frame, some i⟩] ?_
      · exact hpushed.withReader trivial
      · intro frame' hmem j howner
        cases List.mem_singleton.mp hmem
        cases howner
        rw [hok]
        rfl
    · split at h <;> cases h
      · exact hi.withReader trivial
      · exact hi
  | rejecting error =>
    simp only [hreader] at h
    split at h
    · cases h
      have hpushed := hi.pushAll [⟨.ofError none 0 error, none⟩] ?_
      · exact hpushed.withReader trivial
      · intro frame' hmem j howner
        cases List.mem_singleton.mp hmem
        cases howner
    · split at h <;> cases h
      · exact hi.withReader trivial
      · exact hi
  | forcing | closing | joining =>
    simp only [hreader] at h
    cases h
    exact hi.disconnect.withReader trivial

/-! ## The workers -/

/-- A job keeps its id. -/
theorem step_requestId {ser : Json.Serializer} {job next : Job} {look : Look}
    (h : job.step ser look = some next) : next.output.requestId = job.output.requestId := by
  unfold Job.step at h
  cases hpc : job.pc with
  | entering program =>
    simp only [hpc, Option.some.injEq] at h
    subst h
    rfl
  | dispatching program =>
    simp only [hpc, Option.some.injEq] at h
    subst h
    cases program with
    | done _ | panic => rfl
    | call frame k =>
      simp only [OutputSink.dispatchTurn]
      split <;> rfl
  | sending frame lifecycle k =>
    simp only [hpc, Option.some.injEq] at h
    subst h
    unfold OutputSink.sendTurn
    repeat' split
    all_goals rfl
  | ending error =>
    simp only [hpc, Option.some.injEq] at h
    subst h
    unfold OutputSink.requireTerminal
    repeat' split
    all_goals rfl
  | terminating frame =>
    simp only [hpc, Option.some.injEq] at h
    subst h
    unfold OutputSink.terminalTurn
    repeat' split
    all_goals rfl
  | done =>
    simp only [hpc] at h
    cases h

theorem Inv.pickStep (hi : Inv env s) {program : Dispatch Unit}
    (h : s.pick env i program = some s') : Inv env s' := by
  unfold pick at h
  split at h
  · rename_i request hplace
    cases h
    refine hi.moveScheduled ?_ ?_ fun _ => rfl
    · rw [hplace]
      rfl
    · rw [holders, hplace]
      rfl
  · cases h

theorem work_cases {look : Look} (h : s.work env i look = some s') :
    ∃ job next look', s.places i = .running job ∧ job.step env.ser look' = some next ∧
      (s' = { s.place i (.running next) with output := s.output ++ pushed i job next } ∨
        s' = ({ s.place i (.running next) with
          output := s.output ++ pushed i job next } : Connection).disconnect) := by
  unfold work at h
  split at h
  · rename_i job hplace
    obtain ⟨next, hstep, h⟩ := Option.map_eq_some_iff.mp h
    refine ⟨job, next, _, hplace, hstep, ?_⟩
    split at h
    · exact .inr h.symm
    · exact .inl h.symm
  · cases h

theorem Inv.workStep (hi : Inv env s) {look : Look} (h : s.work env i look = some s') :
    Inv env s' := by
  obtain ⟨job, next, look', hplace, hstep, hs'⟩ := work_cases h
  have hmoved : Inv env (s.place i (.running next)) := by
    refine hi.moveScheduled ?_ ?_ fun _ => rfl
    · rw [hplace]
      rfl
    · rw [holders, hplace]
      exact congrArg some (step_requestId hstep)
  have hpushed : Inv env { s.place i (.running next) with
      output := s.output ++ pushed i job next } := by
    refine hmoved.pushAll _ fun frame hmem j howner => ?_
    obtain ⟨frame', _, rfl⟩ := List.mem_map.mp hmem
    cases howner
    rw [place_self]
    rfl
  rcases hs' with rfl | rfl
  · exact hpushed
  · exact hpushed.disconnect

theorem release_cases (h : s.release i = some s') : ∃ job, s.places i = .running job ∧
    job.isDone = true ∧
    s' = (s.withState (s.registry.state.remove job.output.requestId)).place i .gone := by
  unfold release at h
  split at h
  · rename_i job hplace
    split at h
    · rename_i hdone
      exact ⟨job, hplace, hdone, (Option.some.inj h).symm⟩
    · cases h
  · cases h

theorem Inv.releaseStep (hi : Inv env s) (h : s.release i = some s') : Inv env s' := by
  obtain ⟨job, hplace, _, rfl⟩ := release_cases h
  have hholds : s.holders i = some job.output.requestId := by
    rw [holders, hplace]
    rfl
  refine hi.giveBack s.reader hholds ?_
  refine hi.reader.frame rfl rfl (fun j hj => place_of_ne s .gone ?_)
    (fun _ h => (ConnectionState.isActive_remove.mp h).1) fun _ line h => ⟨line, h, rfl⟩
  rintro rfl
  rw [hplace] at hj
  cases hj

/-! ## The writer and the client -/

theorem Inv.recvStep (hi : Inv env s) (h : s.recv = some s') : Inv env s' := by
  unfold recv at h
  split at h
  · rename_i frame output hwriter houtput
    cases h
    refine hi.shift fun frame' hmem => ?_
    rw [inFlight, hwriter, houtput]
    exact hmem
  · cases h

theorem Inv.checkStep (hi : Inv env s) (h : s.check = some s') : Inv env s' := by
  unfold check at h
  split at h
  · rename_i frame hwriter
    cases h
    refine hi.shift fun frame' hmem => ?_
    rw [inFlight, hwriter]
    split at hmem
    · exact List.mem_cons_of_mem _ hmem
    · exact hmem
  · cases h

theorem Inv.deliver (hi : Inv env s) {frame : OutputFrame} (hmem : frame ∈ s.inFlight) :
    Inv env (s.deliver frame) := by
  unfold Connection.deliver
  split
  · rename_i i howner
    split
    · exact { hi with
        admitted := by
          intro j id hj
          obtain ⟨line, hline, hid, hslot⟩ := hi.admitted hj
          obtain ⟨after, hafter, htext⟩ := get_terminate_of (i := i) hline
          exact ⟨after, hafter, by rw [htext, hid], by rw [htext, hslot]⟩
        read := by
          show s.next ≤ (s.sent.modify i ClientLine.terminate).length
          rw [List.length_modify]
          exact hi.read
        settled := by
          rintro j (hframe | ⟨line, hline, hterm⟩)
          · exact hi.settled (.inl hframe)
          · obtain ⟨before, hbefore, _, _, _, hold⟩ := get_terminate hline
            rcases hold hterm with rfl | hterm'
            · exact hi.settled (.inl ⟨frame, hmem, howner⟩)
            · exact hi.settled (.inr ⟨before, hbefore, hterm'⟩)
        sent := hi.sent.terminate i
        reader := hi.reader.frame rfl rfl (fun _ _ => rfl) (fun _ h => h)
          fun _ line h => get_terminate_of h }
    · exact hi
  · exact hi

theorem Inv.wroteStep (hi : Inv env s) {whole : Bool} (h : s.wrote whole = some s') :
    Inv env s' := by
  unfold wrote at h
  split at h
  · rename_i frame hwriter
    have hmem : frame ∈ s.inFlight := by
      rw [inFlight, hwriter]
      exact List.mem_cons_self
    split at h <;> cases h
    · refine (hi.deliver hmem).shift fun frame' hmem' => ?_
      exact List.mem_append_right _ hmem'
    · refine hi.shift fun frame' hmem' => ?_
      rw [inFlight, hwriter]
      exact hmem'
  · cases h

theorem Inv.writeFailsStep (hi : Inv env s) (h : s.writeFails = some s') : Inv env s' := by
  unfold writeFails at h
  split at h
  · cases h
    exact hi.disconnect.shift fun frame hmem => List.mem_append_right _ hmem
  · cases h

theorem Inv.sendStep (hi : Inv env s) (text : String) : Inv env (s.send env text) :=
  { hi with
    admitted := by
      intro j id hj
      obtain ⟨line, hline, h⟩ := hi.admitted hj
      exact ⟨line, Pool.get_append_old hline, h⟩
    read := by
      show s.next ≤ (s.sent ++ [_]).length
      rw [List.length_append]
      exact Nat.le_add_right_of_le hi.read
    settled := by
      rintro j (hframe | ⟨line, hline, hterm⟩)
      · exact hi.settled (.inl hframe)
      · rcases Pool.get_append hline with ⟨_, rfl⟩ | hold
        · cases hterm
        · exact hi.settled (.inr ⟨line, hold, hterm⟩)
    sent := hi.sent.send text
    reader := hi.reader.frame rfl rfl (fun _ _ => rfl) (fun _ h => h)
      fun _ line h => ⟨line, Pool.get_append_old h, rfl⟩ }

/-! ## All of them -/

/-- **Whoever moves, the invariant is kept.** -/
theorem Inv.step (hi : Inv env s) {a : ConnectionAction} (h : s.step env a = some s') :
    Inv env s' := by
  cases a with
  | send text =>
    cases h
    exact hi.sendStep text
  | read => exact hi.readStep h
  | turn look => exact hi.turnStep h
  | badFrame error =>
    simp only [Connection.step] at h
    split at h <;> cases h
    exact hi.withReader trivial
  | close =>
    simp only [Connection.step] at h
    split at h <;> cases h
    exact hi.withReader trivial
  | pick i program => exact hi.pickStep h
  | work i look => exact hi.workStep h
  | release i => exact hi.releaseStep h
  | recv => exact hi.recvStep h
  | check => exact hi.checkStep h
  | wrote whole => exact hi.wroteStep h
  | writeFails => exact hi.writeFailsStep h
  | sweep =>
    obtain ⟨registry, hsweep, rfl⟩ := Option.map_eq_some_iff.mp h
    rw [Registry.step] at hsweep
    split at hsweep <;> cases hsweep
    exact hi.withRegistry _ rfl fun _ => ConnectionState.isActive_cancelWhere _

end VcdTools.Server.Connection
