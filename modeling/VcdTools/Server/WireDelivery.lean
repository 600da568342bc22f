import VcdTools.Lib.Runs
import VcdTools.Server.ConnectionSteps
import VcdTools.Server.LineFraming
import VcdTools.Server.Wire

/-! # What a client gets

The socket carries the lines of the frames in the order in which they came into
the channel, cut off in one place if the connection ends early. A line has no
newline but its last byte, so that a client finds the frames again however the
stream is cut for it. -/
namespace VcdTools.Server
open VcdTools.Lib VcdTools.Lib.Runs

/-! ## A line is a line -/

/-- The text of a frame. -/
def ResponseFrame.text (frame : ResponseFrame) : List UInt8 := encodeUtf8 frame.toJson.render

theorem ResponseFrame.line_eq (frame : ResponseFrame) : frame.line = frame.text ++ [newline] := by
  rw [line, encodeUtf8_append]
  rfl

theorem ResponseFrame.newline_not_mem (frame : ResponseFrame) : newline ∉ frame.text := by
  intro h
  obtain ⟨c, hc, hnewline⟩ := ascii_mem_encodeUtf8 h (by decide)
  have hplain := Json.plain_render frame.toJson c hc
  have hten : newline.toNat = 10 := rfl
  omega

/-- What begins like a list of lines: some of them whole, and the begin of the
next one. -/
theorem linesOf_prefix {texts : List (List UInt8)} (htexts : ∀ text ∈ texts, newline ∉ text)
    {stream : List UInt8} (h : stream <+: (texts.map fun text => text ++ [newline]).flatten) :
    ∃ k rest, linesOf stream = texts.take k ++ [rest] ∧ newline ∉ rest ∧
      stream = ((texts.take k).map fun text => text ++ [newline]).flatten ++ rest ∧
        rest <+: (texts[k]?.getD []) := by
  induction texts generalizing stream with
  | nil =>
    rw [List.map_nil, List.flatten_nil, List.prefix_nil] at h
    subst h
    exact ⟨0, [], rfl, List.not_mem_nil, rfl, List.prefix_rfl⟩
  | cons text texts ih =>
    have htext := htexts text List.mem_cons_self
    rw [List.map_cons, List.flatten_cons, List.append_assoc, List.singleton_append] at h
    have hopen : stream <+: text →
        ∃ k rest, linesOf stream = (text :: texts).take k ++ [rest] ∧ newline ∉ rest ∧
          stream = (((text :: texts).take k).map fun text => text ++ [newline]).flatten ++ rest ∧
            rest <+: ((text :: texts)[k]?.getD []) := by
      intro hstream
      have hnone : newline ∉ stream := fun hmem => htext (hstream.subset hmem)
      exact ⟨0, stream, linesOf_open hnone, hnone, rfl, hstream⟩
    rcases List.prefix_or_prefix_of_prefix h (List.prefix_append text _) with hstream | ⟨more, rfl⟩
    · exact hopen hstream
    · rw [List.prefix_append_right_inj] at h
      cases more with
      | nil => exact hopen (by rw [List.append_nil])
      | cons byte more =>
        rw [List.cons_prefix_cons] at h
        obtain ⟨rfl, h⟩ := h
        obtain ⟨k, rest, hlines, hrest, hmore, hnext⟩ :=
          ih (fun text' htext' => htexts text' (List.mem_cons_of_mem _ htext')) h
        refine ⟨k + 1, rest, ?_, hrest, ?_, hnext⟩
        · rw [linesOf_newline htext, hlines, List.take_succ_cons, List.cons_append]
        · rw [hmore]
          simp

theorem fromUtf8_encodeUtf8 (text : List Char) :
    fromUtf8 (encodeUtf8 text) = some (String.ofList text) := by
  have hbytes : (⟨(encodeUtf8 text).toArray⟩ : ByteArray) = (encodeUtf8 text).toByteArray :=
    ByteArray.ext (List.data_toByteArray).symm
  rw [fromUtf8, hbytes, fromUTF8_encodeUtf8]

/-- Lines that fit are read. -/
theorem textsOf_fit {texts : List (List Char)} {max : Nat}
    (hmax : ∀ text ∈ texts, (encodeUtf8 text).length + 1 ≤ max) (rest : List UInt8) :
    textsOf max (texts.map encodeUtf8 ++ [rest]) = texts.map String.ofList := by
  induction texts with
  | nil => rfl
  | cons text texts ih =>
    have hfits : ¬ (encodeUtf8 text).length + 1 > max :=
      Nat.not_lt.mpr (hmax text List.mem_cons_self)
    rw [List.map_cons, List.cons_append, textsOf_cons (by simp), lineText, if_neg hfits,
      fromUtf8_encodeUtf8, ih fun text' htext' => hmax text' (List.mem_cons_of_mem _ htext')]
    rfl

section
variable {texts : List (List Char)} {max : Nat}

theorem not_bad_prefix (htexts : ∀ text ∈ texts, newline ∉ encodeUtf8 text) (positive : 0 < max)
    (hmax : ∀ text ∈ texts, (encodeUtf8 text).length + 1 ≤ max) {stream : List UInt8}
    (h : stream <+: ((texts.map encodeUtf8).map fun text => text ++ [newline]).flatten) :
    ¬ Bad max stream := by
  obtain ⟨k, rest, hlines, -, -, hrest⟩ := linesOf_prefix (by simpa using htexts) h
  rw [Bad, hlines]
  have hfit : ∀ line ∈ texts.map encodeUtf8, line.length + 1 ≤ max := by simpa using hmax
  rintro (⟨line, hline, hlong⟩ | ⟨line, hline, hbad⟩)
  · rcases List.mem_append.mp hline with hline | hline
    · have := hfit line (List.mem_of_mem_take hline)
      omega
    · rw [List.mem_singleton.mp hline] at hlong
      have hlength := hrest.length_le
      cases hnext : (texts.map encodeUtf8)[k]? with
      | none =>
        rw [hnext, Option.getD_none, List.length_nil] at hlength
        omega
      | some next =>
        rw [hnext, Option.getD_some] at hlength
        have := hfit next (List.mem_of_getElem? hnext)
        omega
  · rw [List.dropLast_concat] at hline
    obtain ⟨text, -, rfl⟩ := List.mem_map.mp (List.mem_of_mem_take hline)
    rw [fromUtf8_encodeUtf8] at hbad
    cases hbad

/-- **A line framer reads the whole lines** of such a stream, in any chunks. -/
theorem framesOf_prefix (htexts : ∀ text ∈ texts, newline ∉ encodeUtf8 text) (positive : 0 < max)
    (hmax : ∀ text ∈ texts, (encodeUtf8 text).length + 1 ≤ max) {chunks : List (List UInt8)}
    (h : chunks.flatten <+: ((texts.map encodeUtf8).map fun text => text ++ [newline]).flatten) :
    framesOf (answersTo max positive chunks) =
        (texts.take ((linesOf chunks.flatten).length - 1)).map String.ofList ∧
      errorOf (answersTo max positive chunks) = none := by
  have hgood : ∀ stream, stream <+: chunks.flatten → ¬ Bad max stream :=
    fun stream hstream => not_bad_prefix htexts positive hmax (hstream.trans h)
  have halone : GoesBadAlone max chunks := by
    rintro before chunk after rfl - hbad
    refine absurd hbad (hgood _ ?_)
    simp
  obtain ⟨k, rest, hlines, -, -, -⟩ := linesOf_prefix (by simpa using htexts) h
  constructor
  · rw [(frames_eq_iff positive chunks).mpr halone, goodLines, hlines, ← List.map_take,
      textsOf_fit fun text htext => hmax text (List.mem_of_mem_take htext)]
    rw [List.length_append, List.length_map, List.length_take, List.length_singleton,
      Nat.add_sub_cancel, ← List.take_eq_take_min]
  · rw [errorOf_answersTo]
    have hrun := (run_stream positive chunks.flatten).2
    cases hend : (Chunked.run (scanByte max) [] chunks.flatten).2 with
    | ok part => rfl
    | error e => exact absurd (hrun.mp ⟨e, hend⟩) (hgood _ List.prefix_rfl)

end

/-! ## The steps -/

/-- What a step of anybody but the writer leaves. -/
structure Grows (s s' : Connection) : Prop where
  writer : s'.writer = s.writer
  output : ∃ more, s'.output = s.output ++ more
  flag : s.flag = true → s'.flag = true

theorem Grows.of_same {s s' : Connection} (hwriter : s'.writer = s.writer)
    (houtput : s'.output = s.output)
    (hflag : s'.registry.state.disconnected = s.registry.state.disconnected) : Grows s s' :=
  ⟨hwriter, ⟨[], by rw [houtput, List.append_nil]⟩, fun h => hflag.trans h⟩

theorem Grows.disconnect {s s' : Connection} (h : Grows s s') : Grows s s'.disconnect :=
  ⟨h.writer, h.output, fun _ => rfl⟩

variable {env : ConnectionEnv} {s s' : Connection}

theorem accept_grows (i : Nat) (line : ClientLine) : Grows s (s.accept env i line) := by
  rcases Connection.accept_cases env s i line with
    ⟨error, _, heq⟩ | ⟨id, target, heq⟩ | ⟨frame, heq⟩ | ⟨request, hdecode, hname, heq⟩
  all_goals
    rw [heq]
    exact .of_same rfl rfl rfl

theorem disconnected_cancel (state : ConnectionState) (id : String) :
    (state.cancel id).2.disconnected = state.disconnected := by
  unfold ConnectionState.cancel
  split <;> rfl

theorem turn_grows {look : ReaderLook} (h : s.turn env look = some s') : Grows s s' := by
  unfold Connection.turn at h
  cases hreader : s.reader with
  | reading | stopped =>
    rw [hreader] at h
    cases h
  | cancelling i id target =>
    simp only [hreader] at h
    cases h
    exact .of_same rfl rfl (disconnected_cancel ..)
  | registering i request =>
    simp only [hreader] at h
    obtain ⟨line, -, rfl⟩ := Option.map_eq_some_iff.mp h
    unfold Connection.register
    split
    · exact .of_same rfl rfl rfl
    · rename_i state hstate
      obtain ⟨hfree, -, rfl⟩ := ConnectionState.register_ok_iff.mp hstate
      exact .of_same rfl rfl rfl
  | preparing i request | submitting i request =>
    simp only [hreader] at h
    split at h <;> cases h <;> exact .of_same rfl rfl rfl
  | releasing i id error =>
    simp only [hreader] at h
    cases h
    exact .of_same rfl rfl rfl
  | replying i frame | rejecting error =>
    simp only [hreader] at h
    split at h
    · cases h
      exact ⟨rfl, ⟨_, rfl⟩, id⟩
    · split at h <;> cases h <;> exact .of_same rfl rfl rfl
  | forcing | closing | joining =>
    simp only [hreader] at h
    cases h
    exact ⟨rfl, ⟨[], (List.append_nil _).symm⟩, fun _ => rfl⟩

theorem step_grows {action : ConnectionAction} (haction : action.isWriter = false)
    (h : s.step env action = some s') : Grows s s' := by
  cases action with
  | send text =>
    cases h
    exact .of_same rfl rfl rfl
  | read =>
    obtain ⟨line, -, -, rfl⟩ := Connection.read_cases h
    have haccept := @accept_grows env { s with next := s.next + 1 } s.next line
    exact ⟨haccept.writer, haccept.output, haccept.flag⟩
  | turn look => exact turn_grows h
  | badFrame error | close =>
    simp only [Connection.step] at h
    split at h <;> cases h
    exact .of_same rfl rfl rfl
  | pick i program =>
    simp only [Connection.step, Connection.pick] at h
    split at h <;> cases h
    exact .of_same rfl rfl rfl
  | work i look =>
    obtain ⟨job, next, look', -, -, rfl | rfl⟩ := Connection.work_cases h
    · exact ⟨rfl, ⟨_, rfl⟩, id⟩
    · exact Grows.disconnect ⟨rfl, ⟨_, rfl⟩, id⟩
  | release i =>
    obtain ⟨job, -, -, rfl⟩ := Connection.release_cases h
    exact .of_same rfl rfl rfl
  | recv | check | wrote whole | writeFails => cases haction
  | sweep =>
    simp only [Connection.step, Registry.step] at h
    split at h <;> cases h
    exact .of_same rfl rfl rfl

/-! ## The invariant -/

/-- The lines of a list of frames, one behind the other. -/
def linesBytes (frames : List OutputFrame) : List UInt8 :=
  (frames.map fun frame => frame.frame.line).flatten

@[simp] theorem linesBytes_nil : linesBytes [] = [] := rfl

@[simp] theorem linesBytes_append (frames frames' : List OutputFrame) :
    linesBytes (frames ++ frames') = linesBytes frames ++ linesBytes frames' := by
  simp [linesBytes]

@[simp] theorem linesBytes_singleton (frame : OutputFrame) :
    linesBytes [frame] = frame.frame.line := by
  simp [linesBytes]

/-- Nothing is lost: what came into the channel was written, is being written,
or is still there. -/
structure Intact (w : Wire) : Prop where
  split : ∃ delivered, w.pushed = delivered ++ w.connection.writer.frames ++ w.connection.output ∧
    w.socket = linesBytes delivered ++ (linesBytes w.connection.writer.frames).take w.offset
  within : ∀ frame ∈ w.connection.writer.frames, w.offset < frame.frame.line.length

/-- The writer has given up: nothing more will be written. -/
structure Broken (w : Wire) : Prop where
  flag : w.connection.flag = true
  writer : ∀ frame, w.connection.writer ≠ .writing frame
  received : w.socket <+: linesBytes w.pushed

/-- What every step of a wire keeps. -/
def Wire.Inv (w : Wire) : Prop := Intact w ∨ Broken w

theorem Intact.received {w : Wire} (h : Intact w) : w.socket <+: linesBytes w.pushed := by
  obtain ⟨delivered, hpushed, hsocket⟩ := h.split
  rw [hpushed, hsocket, linesBytes_append, linesBytes_append, List.append_assoc,
    List.prefix_append_right_inj]
  exact (List.take_prefix _ _).trans (List.prefix_append _ _)

theorem Wire.inv_init (env : ConnectionEnv) : (Wire.init env).Inv :=
  .inl ⟨⟨[], rfl, rfl⟩, fun _ h => nomatch h⟩

theorem ResponseFrame.line_pos (frame : ResponseFrame) : 0 < frame.line.length := by
  rw [line_eq, List.length_append, List.length_singleton]
  omega

namespace Wire.Inv
variable {w w' : Wire}

theorem other (hi : w.Inv) {action : ConnectionAction} (h : w.other env action = some w') :
    w'.Inv := by
  unfold Wire.other at h
  split at h
  · cases h
  · rename_i haction
    obtain ⟨connection, hstep, rfl⟩ := Option.map_eq_some_iff.mp h
    obtain ⟨hwriter, ⟨more, houtput⟩, hflag⟩ := step_grows (by simpa using haction) hstep
    rcases hi with hi | hi
    · obtain ⟨delivered, hpushed, hsocket⟩ := hi.split
      refine .inl ⟨⟨delivered, ?_, ?_⟩, ?_⟩
      · simp [houtput, hwriter, hpushed]
      · simp only [hwriter]
        exact hsocket
      · simp only [hwriter]
        exact hi.within
    · refine .inr ⟨hflag hi.flag, ?_, ?_⟩
      · simp only [hwriter]
        exact hi.writer
      · simp only [linesBytes_append]
        exact hi.received.trans (List.prefix_append _ _)

theorem recv (hi : w.Inv) (h : w.recv env = some w') : w'.Inv := by
  obtain ⟨connection, hstep, rfl⟩ := Option.map_eq_some_iff.mp h
  simp only [Connection.step, Connection.recv] at hstep
  split at hstep
  · rename_i frame output hwriter houtput
    cases hstep
    rcases hi with hi | hi
    · obtain ⟨delivered, hpushed, hsocket⟩ := hi.split
      rw [hwriter] at hpushed hsocket
      refine .inl ⟨⟨delivered, ?_, ?_⟩, ?_⟩
      · simp [hpushed, houtput, WriterPc.frames]
      · simpa [WriterPc.frames] using hsocket
      · intro frame' hframe'
        cases List.mem_singleton.mp hframe'
        exact frame.frame.line_pos
    · exact .inr ⟨hi.flag, fun _ => by simp, hi.received⟩
  · cases hstep

theorem check (hi : w.Inv) (h : w.check env = some w') : w'.Inv := by
  obtain ⟨connection, hstep, rfl⟩ := Option.map_eq_some_iff.mp h
  simp only [Connection.step, Connection.check] at hstep
  split at hstep
  · rename_i frame hwriter
    cases hstep
    by_cases hflag : w.connection.flag = true
    · refine .inr ⟨hflag, fun _ => by simp [hflag], ?_⟩
      exact hi.elim Intact.received Broken.received
    · rcases hi with hi | hi
      · obtain ⟨delivered, hpushed, hsocket⟩ := hi.split
        have hwithin := hi.within
        rw [hwriter] at hpushed hsocket hwithin
        refine .inl ⟨⟨delivered, ?_, ?_⟩, ?_⟩
        · simpa [hflag, WriterPc.frames] using hpushed
        · simpa [hflag, WriterPc.frames] using hsocket
        · simpa [hflag, WriterPc.frames] using hwithin
      · exact absurd hi.flag hflag
  · cases hstep

/-- A failed call gives the connection up. -/
theorem writeFails (hi : w.Inv) {connection : Connection}
    (h : w.connection.step env .writeFails = some connection) : ({ w with connection } : Wire).Inv := by
  simp only [Connection.step, Connection.writeFails] at h
  split at h
  · cases h
    exact .inr ⟨rfl, fun _ => by simp, hi.elim Intact.received Broken.received⟩
  · cases h

theorem deliver_output (s : Connection) (frame : OutputFrame) :
    (s.deliver frame).output = s.output := by
  unfold Connection.deliver
  split
  · split <;> rfl
  · rfl

/-- A call that writes. -/
theorem wrote (hi : w.Inv) {frame : OutputFrame} (hwriter : w.connection.writer = .writing frame)
    {count : Nat} (hcount : w.offset + count ≤ frame.frame.line.length)
    (h : w.wrote env count frame.frame.line = some w') : w'.Inv := by
  rcases hi with hi | hi
  · obtain ⟨connection, hstep, rfl⟩ := Option.map_eq_some_iff.mp h
    obtain ⟨delivered, hpushed, hsocket⟩ := hi.split
    rw [hwriter] at hpushed hsocket
    simp only [WriterPc.frames, linesBytes_singleton] at hpushed hsocket
    have htaken : w.socket ++ (frame.frame.line.drop w.offset).take count =
        linesBytes delivered ++ frame.frame.line.take (w.offset + count) := by
      rw [hsocket, List.append_assoc, ← List.take_add]
    simp only [Connection.step, Connection.wrote, hwriter] at hstep
    split at hstep
    · rename_i hwhole
      cases hstep
      have hall : frame.frame.line.take (w.offset + count) = frame.frame.line :=
        List.take_of_length_le (Nat.le_of_eq (of_decide_eq_true hwhole).symm)
      refine .inl ⟨⟨delivered ++ [frame], ?_, ?_⟩, by simp [WriterPc.frames]⟩
      · simpa [WriterPc.frames, deliver_output] using hpushed
      · simp [WriterPc.frames, htaken, hall]
    · rename_i hpart
      cases hstep
      have hlt : w.offset + count ≠ frame.frame.line.length := by simpa using hpart
      refine .inl ⟨⟨delivered, hpushed, ?_⟩, ?_⟩
      · simp only [WriterPc.frames, linesBytes_singleton]
        exact htaken
      · intro frame' hframe'
        cases List.mem_singleton.mp hframe'
        simp only
        omega
  · exact absurd hwriter (hi.writer frame)

theorem write (hi : w.Inv) {result : WriteResult} (h : w.write env result = some w') : w'.Inv := by
  unfold Wire.write at h
  split at h
  · rename_i frame count hwriter
    split at h
    · obtain ⟨connection, hstep, rfl⟩ := Option.map_eq_some_iff.mp h
      exact hi.writeFails hstep
    · split at h
      · rename_i hcount
        exact hi.wrote hwriter hcount h
      · cases h
  · rename_i frame hwriter
    obtain ⟨connection, hstep, rfl⟩ := Option.map_eq_some_iff.mp h
    simp only [Connection.step, Connection.wrote, hwriter] at hstep
    cases hstep
    rcases hi with hi | hi
    · obtain ⟨delivered, hpushed, hsocket⟩ := hi.split
      have hwithin := hi.within
      rw [hwriter] at hpushed hsocket hwithin
      exact .inl ⟨⟨delivered, hpushed, hsocket⟩, hwithin⟩
    · exact absurd hwriter (hi.writer frame)
  · obtain ⟨connection, hstep, rfl⟩ := Option.map_eq_some_iff.mp h
    exact hi.writeFails hstep
  · cases h

theorem step (hi : w.Inv) {action : WireAction} (h : w.step env action = some w') : w'.Inv := by
  cases action with
  | other action => exact hi.other h
  | recv => exact hi.recv h
  | check => exact hi.check h
  | write result => exact hi.write h

end Wire.Inv

/-! ## The connection of frames -/

/-- A step of the wire is a step of the connection. -/
theorem Wire.step_connection {w w' : Wire} {action : WireAction}
    (h : w.step env action = some w') :
    ∃ action', w.connection.step env action' = some w'.connection := by
  cases action with
  | other action =>
    simp only [Wire.step, Wire.other] at h
    split at h
    · cases h
    · obtain ⟨connection, hstep, rfl⟩ := Option.map_eq_some_iff.mp h
      exact ⟨action, hstep⟩
  | recv | check =>
    obtain ⟨connection, hstep, rfl⟩ := Option.map_eq_some_iff.mp h
    exact ⟨_, hstep⟩
  | write result =>
    simp only [Wire.step, Wire.write] at h
    split at h
    · split at h
      · obtain ⟨connection, hstep, rfl⟩ := Option.map_eq_some_iff.mp h
        exact ⟨_, hstep⟩
      · split at h
        · obtain ⟨connection, hstep, rfl⟩ := Option.map_eq_some_iff.mp h
          exact ⟨_, hstep⟩
        · cases h
    · obtain ⟨connection, hstep, rfl⟩ := Option.map_eq_some_iff.mp h
      exact ⟨_, hstep⟩
    · obtain ⟨connection, hstep, rfl⟩ := Option.map_eq_some_iff.mp h
      exact ⟨_, hstep⟩
    · cases h

/-- The connection is one that its own steps lead to. -/
def Wire.Reached (env : ConnectionEnv) (w : Wire) : Prop :=
  ∃ actions, exec (Connection.step env) (.init env) actions = some w.connection

theorem Wire.Reached.step {w w' : Wire} (hr : w.Reached env) {action : WireAction}
    (h : w.step env action = some w') : w'.Reached env := by
  obtain ⟨actions, hactions⟩ := hr
  obtain ⟨action', hstep⟩ := w.step_connection h
  refine ⟨actions ++ [action'], ?_⟩
  rw [exec_append, hactions, Option.bind_some, exec_cons, hstep]
  rfl

/-! ## What a client gets -/

/-- **What is on the socket.** -/
structure Delivers (env : ConnectionEnv) (w : Wire) : Prop where
  /-- The bytes refine the frames: the connection is one that its own steps
  lead to. -/
  reached : w.Reached env
  /-- No byte but those of the frames, in the order in which they came into the
  channel: none is lost in between, repeated or overtaken. -/
  received : w.socket <+: linesBytes w.pushed
  /-- Until somebody disconnects all of them are written or still on their way. -/
  whole : w.connection.flag = false → ∃ delivered,
    w.pushed = delivered ++ w.connection.writer.frames ++ w.connection.output ∧
      w.socket = linesBytes delivered ++ (linesBytes w.connection.writer.frames).take w.offset
  /-- A client with a line framer reads the first frames, whole and one by one,
  however the stream is cut for it. -/
  frames : ∀ (max : Nat) (positive : 0 < max) (chunks : List (List UInt8)),
    chunks.flatten = w.socket → (∀ frame ∈ w.pushed, frame.frame.line.length ≤ max) →
      framesOf (answersTo max positive chunks) =
          (w.pushed.take ((linesOf w.socket).length - 1)).map
            (fun frame => String.ofList frame.frame.toJson.render) ∧
        errorOf (answersTo max positive chunks) = none

theorem Wire.Inv.delivers {w : Wire} (hi : w.Inv) (hr : w.Reached env) : Delivers env w where
  reached := hr
  received := hi.elim Intact.received Broken.received
  whole := by
    intro hflag
    rcases hi with hi | hi
    · exact hi.split
    · rw [hi.flag] at hflag
      cases hflag
  frames := by
    intro max positive chunks hchunks hmax
    have hreceived := hi.elim Intact.received Broken.received
    have hlines : linesBytes w.pushed =
        (((w.pushed.map fun frame => frame.frame.toJson.render).map encodeUtf8).map
          fun text => text ++ [newline]).flatten := by
      rw [linesBytes, List.map_map, List.map_map]
      exact congrArg List.flatten (List.map_congr_left fun frame _ => frame.frame.line_eq)
    rw [← hchunks, hlines] at hreceived
    obtain ⟨hframes, herror⟩ := framesOf_prefix
      (by simpa using fun frame _ => frame.frame.newline_not_mem) positive
      (by
        simp only [List.mem_map, forall_exists_index, and_imp, forall_apply_eq_imp_iff₂]
        intro frame hframe
        have hfits := hmax frame hframe
        rwa [ResponseFrame.line_eq, List.length_append, List.length_singleton] at hfits) hreceived
    rw [hframes, hchunks, List.map_take, List.map_take, List.map_map]
    exact ⟨rfl, herror⟩

/-- **Every run of a connection delivers its frames**: with writes of any
length, calls that time out or fail, and disconnects at any instant. -/
theorem wire_delivers (env : ConnectionEnv) (actions : List WireAction) :
    Always (Wire.step env) (Delivers env) (.init env) actions := by
  rw [Runs.always_iff_prefix]
  intro taken _ w hw
  obtain ⟨hi, hr⟩ : w.Inv ∧ w.Reached env :=
    exec_invariant (I := fun w => w.Inv ∧ w.Reached env)
      (fun _ _ _ hi h => ⟨hi.1.step h, hi.2.step h⟩) taken (.init env) w
      ⟨Wire.inv_init env, [], rfl⟩ hw
  exact hi.delivers hr

end VcdTools.Server
