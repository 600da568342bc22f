import VcdTools.Lib.Runs
import VcdTools.Server.Output

/-! # What one job puts on its channel

`Spoken` follows the response language frame by frame, together with the
lifecycle the sink is in after them. Each step of a job keeps it, so whatever
the dispatcher and the surroundings do, the frames of a request are a prefix
of one response. -/
namespace VcdTools.Server
open VcdTools.Lib

variable {ser : Json.Serializer} {id : String} {output : OutputSink} {frame : ResponseFrame}
  {next : OutputLifecycle} {fs : List ResponseFrame} {look : Look}

def ResponseFrame.requestId : ResponseFrame → Option String
  | .result f => some f.id
  | .error f => f.id
  | .begin f => some f.id
  | .chunk f => some f.id
  | .end_ f => some f.id

def ResponseFrame.isTerminal : ResponseFrame → Bool
  | .result _ | .error _ | .end_ _ => true
  | .begin _ | .chunk _ => false

/-- One whole response to `id`: `result | error | begin chunk* end`, numbered
from 0. -/
inductive Response (id : String) : List ResponseFrame → Prop
  | result {f} : f.id = id → f.seq = 0 → Response id [.result f]
  | error {f} : f.id = some id → f.seq = 0 → Response id [.error f]
  | stream {b e} {cs : List ChunkFrame} : b.id = id → b.seq = 0 →
      (∀ (i : Nat) (c : ChunkFrame), cs[i]? = some c → c.id = id ∧ c.seq = i + 1) →
      e.id = id → e.seq = cs.length + 1 →
      Response id (.begin b :: cs.map .chunk ++ [.end_ e])

/-- The frames so far and the lifecycle they lead to. -/
inductive Spoken (id : String) : List ResponseFrame → OutputLifecycle → Prop
  | silent : Spoken id [] .notStarted
  | result {f} : f.id = id → f.seq = 0 → Spoken id [.result f] .terminal
  | error {f} : f.id = some id → f.seq = 0 → Spoken id [.error f] .terminal
  | begin {f} : f.id = id → f.seq = 0 → Spoken id [.begin f] (.streaming 1)
  | chunk {fs n f} : Spoken id fs (.streaming n) → f.id = id → f.seq = n →
      Spoken id (fs ++ [.chunk f]) (.streaming (n + 1))
  | end_ {fs n f} : Spoken id fs (.streaming n) → f.id = id → f.seq = n →
      Spoken id (fs ++ [.end_ f]) .terminal

/-! ## The language -/

theorem Spoken.streaming {n : Nat} (h : Spoken id fs (.streaming n)) :
    ∃ b, ∃ cs : List ChunkFrame, fs = .begin b :: cs.map .chunk ∧ n = cs.length + 1 ∧
      b.id = id ∧ b.seq = 0 ∧
      ∀ (i : Nat) (c : ChunkFrame), cs[i]? = some c → c.id = id ∧ c.seq = i + 1 := by
  generalize hl : OutputLifecycle.streaming n = lifecycle at h
  induction h generalizing n with
  | @begin f hid hseq =>
    cases hl
    exact ⟨f, [], rfl, rfl, hid, hseq, by simp⟩
  | @chunk fs m f h hid hseq ih =>
    cases hl
    obtain ⟨b, cs, rfl, rfl, hbid, hbseq, hcs⟩ := ih rfl
    refine ⟨b, cs ++ [f], by simp, by simp, hbid, hbseq, fun i c hc => ?_⟩
    rcases Nat.lt_trichotomy i cs.length with hi | hi | hi
    · rw [List.getElem?_append_left hi] at hc
      exact hcs i c hc
    · subst hi
      simp only [List.getElem?_concat_length, Option.some.injEq] at hc
      subst hc
      exact ⟨hid, hseq⟩
    · rw [List.getElem?_eq_none (by simp; omega)] at hc
      cases hc
  | silent | result | error | end_ => cases hl

/-- The frames spoken so far can always be completed, and are complete in the
terminal lifecycle. -/
theorem Spoken.response {lifecycle : OutputLifecycle} (h : Spoken id fs lifecycle) :
    (∃ rest, Response id (fs ++ rest)) ∧ (lifecycle = .terminal → Response id fs) := by
  cases h with
  | silent =>
    refine ⟨⟨[.error ⟨1, some id, 0, "error", false, panicError⟩], .error rfl rfl⟩, fun h => ?_⟩
    cases h
  | result hid hseq => exact ⟨⟨[], .result hid hseq⟩, fun _ => .result hid hseq⟩
  | error hid hseq => exact ⟨⟨[], .error hid hseq⟩, fun _ => .error hid hseq⟩
  | @begin f hid hseq =>
    refine ⟨⟨[.end_ ⟨1, id, 1, "end", false, none, none⟩], ?_⟩, fun h => ?_⟩
    · exact @Response.stream id f _ [] hid hseq (by simp) rfl rfl
    · cases h
  | @chunk fs n f h hid hseq =>
    refine ⟨?_, fun h => ?_⟩
    · obtain ⟨b, cs, hfs, _, hbid, hbseq, hcs⟩ := (Spoken.chunk h hid hseq).streaming
      refine ⟨[.end_ ⟨1, id, cs.length + 1, "end", false, none, none⟩], ?_⟩
      rw [hfs]
      exact .stream hbid hbseq hcs rfl rfl
    · cases h
  | @end_ fs n f h hid hseq =>
    obtain ⟨b, cs, rfl, rfl, hbid, hbseq, hcs⟩ := h.streaming
    have hr : Response id (.begin b :: cs.map .chunk ++ [.end_ f]) :=
      .stream hbid hbseq hcs hid hseq
    exact ⟨⟨[], by simpa using hr⟩, fun _ => hr⟩

theorem Spoken.requestId {lifecycle : OutputLifecycle} (h : Spoken id fs lifecycle) :
    ∀ f ∈ fs, f.requestId = some id := by
  induction h with
  | silent => simp
  | result hid _ | begin hid _ => simp [ResponseFrame.requestId, hid]
  | error hid _ => simp [ResponseFrame.requestId, hid]
  | chunk _ hid _ ih | end_ _ hid _ ih =>
    intro f hf
    rcases List.mem_append.mp hf with hf | hf
    · exact ih f hf
    · cases List.mem_singleton.mp hf
      simp [ResponseFrame.requestId, hid]

/-- A terminal frame has been spoken exactly in the terminal lifecycle. -/
theorem Spoken.terminals {lifecycle : OutputLifecycle} (h : Spoken id fs lifecycle) :
    fs.countP ResponseFrame.isTerminal = if lifecycle = .terminal then 1 else 0 := by
  induction h with
  | silent | result _ _ | error _ _ | begin _ _ => simp [ResponseFrame.isTerminal]
  | chunk _ _ _ ih | end_ _ _ _ ih => simp [ResponseFrame.isTerminal, ih]

theorem Spoken.nextSeq {n : Nat} (h : Spoken id fs (.streaming n)) : n = fs.length := by
  obtain ⟨b, cs, rfl, rfl, _⟩ := h.streaming
  simp

/-! ## One step -/

/-- A frame `validate_frame` accepts continues the response. -/
theorem OutputSink.validateFrame_spoken (h : output.validateFrame frame = .ok next)
    (hs : Spoken output.requestId fs output.lifecycle) :
    Spoken output.requestId (fs ++ [frame]) next := by
  unfold OutputSink.validateFrame at h
  cases hl : output.lifecycle with
  | notStarted =>
    rw [hl] at hs h
    have hnil : fs = [] := by cases hs; rfl
    subst hnil
    cases frame with
    | result f =>
      simp only at h
      split at h <;> cases h
      exact .result (‹_ ∧ _›).1 (‹_ ∧ _›).2
    | error f =>
      simp only at h
      split at h <;> cases h
      exact .error (‹_ ∧ _›).1 (‹_ ∧ _›).2
    | begin f =>
      simp only at h
      split at h <;> cases h
      exact .begin (‹_ ∧ _›).1 (‹_ ∧ _›).2
    | chunk f | end_ f => cases h
  | streaming n =>
    rw [hl] at hs h
    cases frame with
    | chunk f =>
      simp only at h
      split at h
      · split at h <;> cases h
        exact .chunk hs (‹_ ∧ _›).1 (‹_ ∧ _›).2
      · cases h
    | end_ f =>
      simp only at h
      split at h <;> cases h
      exact .end_ hs (‹_ ∧ _›).1 (‹_ ∧ _›).2
    | result f | error f | begin f => cases h
  | terminal =>
    rw [hl] at h
    cases h

theorem OutputSink.terminalFrame_spoken {error : ProtocolError}
    (h : output.terminalFrame error = some frame)
    (hs : Spoken output.requestId fs output.lifecycle) :
    Spoken output.requestId (fs ++ [frame]) .terminal := by
  unfold OutputSink.terminalFrame at h
  split at h
  · rename_i hl
    rw [hl] at hs
    cases h
    cases hs
    exact .error rfl rfl
  · rename_i n hl
    rw [hl] at hs
    cases h
    exact .end_ hs rfl rfl
  · cases h

theorem OutputSink.accept_ok (h : output.accept ser frame = .ok next) :
    output.validateFrame frame = .ok next ∧ ∃ line, output.encodeBounded ser frame = .ok line := by
  unfold OutputSink.accept at h
  cases hv : output.validateFrame frame with
  | error e =>
    rw [hv] at h
    cases h
  | ok lifecycle =>
    rw [hv] at h
    cases he : output.encodeBounded ser frame with
    | error e =>
      rw [he] at h
      cases h
    | ok line =>
      rw [he] at h
      cases h
      exact ⟨rfl, line, rfl⟩

/-- What holds of a job between two looks. -/
structure JobOk (id : String) (job : Job) : Prop where
  requestId : job.output.requestId = id
  spoken : Spoken id job.output.enqueued job.output.lifecycle
  pc : match job.pc with
    | .sending frame next _ => job.output.validateFrame frame = .ok next
    | .terminating frame => ∃ error, job.output.terminalFrame error = some frame
    | .done => job.output.lifecycle = .terminal ∨ job.disconnected = true
    | _ => True

theorem jobOk_start (maxEncodedFrameBytes : Nat) (disconnected : Bool) (program : Dispatch Unit) :
    JobOk id (.start id maxEncodedFrameBytes disconnected program) :=
  ⟨rfl, .silent, trivial⟩

section Turns
variable {disconnected : Bool} (hid : output.requestId = id)
  (hs : Spoken id output.enqueued output.lifecycle)
include hid hs

theorem OutputSink.push_spoken (h : output.validateFrame frame = .ok next) :
    Spoken id (output.push frame next).enqueued (output.push frame next).lifecycle := by
  subst hid
  exact OutputSink.validateFrame_spoken h hs

theorem dispatchTurn_ok (program : Dispatch Unit) :
    JobOk id (output.dispatchTurn ser disconnected program) := by
  cases program with
  | done result => cases result <;> exact ⟨hid, hs, trivial⟩
  | panic => exact ⟨hid, hs, trivial⟩
  | call frame k =>
    unfold OutputSink.dispatchTurn
    simp only
    split
    · exact ⟨hid, hs, trivial⟩
    · rename_i ha
      exact ⟨hid, hs, (OutputSink.accept_ok ha).1⟩

theorem sendTurn_ok {k : Except ProtocolError Unit → Dispatch Unit}
    (hv : output.validateFrame frame = .ok next) :
    JobOk id (output.sendTurn disconnected frame next k look) := by
  unfold OutputSink.sendTurn
  split
  · exact ⟨hid, hs, trivial⟩
  · split
    · exact ⟨hid, hs, trivial⟩
    · split
      · exact ⟨hid, OutputSink.push_spoken hid hs hv, trivial⟩
      · exact ⟨hid, hs, hv⟩
      · exact ⟨hid, hs, trivial⟩

theorem requireTerminal_ok (error : ProtocolError) :
    JobOk id (output.requireTerminal ser disconnected error) := by
  unfold OutputSink.requireTerminal
  split
  · rename_i hn
    refine ⟨hid, hs, .inl ?_⟩
    unfold OutputSink.terminalFrame at hn
    split at hn
    · cases hn
    · cases hn
    · assumption
  · rename_i frame hf
    split
    · exact ⟨hid, hs, error, hf⟩
    · exact ⟨hid, hs, .inr rfl⟩

theorem terminalTurn_ok {error : ProtocolError} (hf : output.terminalFrame error = some frame) :
    JobOk id (output.terminalTurn disconnected frame look) := by
  unfold OutputSink.terminalTurn
  split
  · exact ⟨hid, hs, .inr ‹_›⟩
  · split
    · refine ⟨hid, ?_, .inl rfl⟩
      subst hid
      exact OutputSink.terminalFrame_spoken hf hs
    · split
      · exact ⟨hid, hs, .inr rfl⟩
      · exact ⟨hid, hs, error, hf⟩
    · exact ⟨hid, hs, .inr rfl⟩

end Turns

/-- **One look keeps it.** -/
theorem JobOk.step {job job' : Job} (hj : JobOk id job) (h : job.step ser look = some job') :
    JobOk id job' := by
  obtain ⟨hid, hs, hpc⟩ := hj
  unfold Job.step at h
  cases hp : job.pc with
  | entering program =>
    simp only [hp, Option.some.injEq] at h
    subst h
    refine ⟨hid, hs, ?_⟩
    cases requestCheck look <;> trivial
  | dispatching program =>
    simp only [hp, Option.some.injEq] at h
    subst h
    exact dispatchTurn_ok hid hs program
  | sending frame next k =>
    simp only [hp, Option.some.injEq] at h hpc
    subst h
    exact sendTurn_ok hid hs hpc
  | ending error =>
    simp only [hp, Option.some.injEq] at h
    subst h
    exact requireTerminal_ok hid hs error
  | terminating frame =>
    simp only [hp, Option.some.injEq] at h hpc
    subst h
    obtain ⟨error, hf⟩ := hpc
    exact terminalTurn_ok hid hs hf
  | done =>
    simp only [hp] at h
    cases h

/-- **Output lifecycle.** Whatever the dispatcher does and however its
surroundings change, the frames enqueued for a request are a prefix of one
response with its own id, contiguous numbers that agree with `next_seq`, and at
most one terminal frame; when the worker is done with the job, exactly one
terminal frame was enqueued or the connection is marked disconnected. -/
theorem output_lifecycle {maxEncodedFrameBytes : Nat} {disconnected : Bool}
    {program : Dispatch Unit} {looks : List Look} {job : Job}
    (h : Runs.exec (Job.step ser) (.start id maxEncodedFrameBytes disconnected program) looks =
      some job) :
    (∃ rest, Response id (job.output.enqueued ++ rest)) ∧
    (∀ f ∈ job.output.enqueued, f.requestId = some id) ∧
    (∀ n, job.output.lifecycle = .streaming n → n = job.output.enqueued.length ∧
      job.output.enqueued.countP ResponseFrame.isTerminal = 0) ∧
    job.output.enqueued.countP ResponseFrame.isTerminal ≤ 1 ∧
    (∀ look, job.step ser look = none ↔ job.pc = .done) ∧
    (job.pc = .done → Response id job.output.enqueued ∧
        job.output.enqueued.countP ResponseFrame.isTerminal = 1 ∨
      job.disconnected = true) := by
  obtain ⟨_, hs, hpc⟩ := Runs.exec_invariant (I := JobOk id) (fun _ _ _ hj hs => hj.step hs) looks
    _ _ (jobOk_start maxEncodedFrameBytes disconnected program) h
  refine ⟨hs.response.1, hs.requestId, fun n hn => ?_, ?_, fun look => ?_, fun hdone => ?_⟩
  · have hs' := hs
    rw [hn] at hs'
    exact ⟨hs'.nextSeq, by rw [hs'.terminals]; rfl⟩
  · rw [hs.terminals]
    split <;> omega
  · unfold Job.step
    cases job.pc <;> simp
  · rw [hdone] at hpc
    rcases hpc with ht | hd
    · exact .inl ⟨hs.response.2 ht, by rw [hs.terminals, if_pos ht]⟩
    · exact .inr hd

/-- A dispatcher that panics in the middle of its stream. -/
def panickingStream : Dispatch Unit :=
  .call (.ofBegin "a" "signal_name.v1" "1") fun _ => .panic

def Job.isDone (job : Job) : Bool :=
  match job.pc with
  | .done => true
  | _ => false

theorem Job.done_of_isDone {job : Job} (h : job.isDone = true) : job.pc = .done := by
  unfold Job.isDone at h
  split at h
  · assumption
  · cases h

theorem output_lifecycle_panic :
    ∃ job, Runs.exec (Job.step .whole) (.start "a" 4096 false panickingStream)
      [{}, {}, { channel := .full }, {}, {}, {}, {}] = some job ∧ job.pc = .done ∧
      (Response "a" job.output.enqueued ∧
        job.output.enqueued.countP ResponseFrame.isTerminal = 1 ∨
          job.disconnected = true) := by
  have hany : (Runs.exec (Job.step .whole) (.start "a" 4096 false panickingStream)
      [{}, {}, { channel := .full }, {}, {}, {}, {}]).any Job.isDone = true := by decide +kernel
  obtain ⟨job, h, hdone⟩ := (Option.any_eq_true _ _).mp hany
  have hdone := Job.done_of_isDone hdone
  exact ⟨job, h, hdone, (output_lifecycle h).2.2.2.2.2 hdone⟩

end VcdTools.Server
