import Mathlib.Data.List.Pairwise
import VcdTools.Lib.Fallible
import VcdTools.Query.ExtractItems

/-! # The metadata scans

`compute_time_bounds_in_place` of `lib.rs`, and `compute_metadata` and
`compute_metadata_with_context` of `opened/mod.rs`, over the body an extraction
reads too. A context answers every read alike, as it does while nobody cancels
and no deadline passes. -/
namespace VcdTools.Opened
open VcdTools.Lib VcdTools.Lib.Fallible VcdTools.Lib.Iter VcdTools.Query

/-- `current_time`, `start_time` and `end_time`. -/
structure TimeBounds where
  currentTime : Nat
  startTime : Option Nat
  endTime : Option Nat

/-- What a scan's `match` does with a command. -/
def TimeBounds.read (bounds : TimeBounds) : Command → TimeBounds
  | .timestamp time => ⟨time, some (bounds.startTime.getD time), some time⟩
  | .changeScalar _ _ | .changeVector _ _ | .changeReal _ _ | .changeString _ _ =>
    { bounds with
      startTime := some (bounds.startTime.getD bounds.currentTime)
      endTime := some bounds.currentTime }
  | .other _ => bounds

/-- The loop of `compute_time_bounds_in_place`. -/
def timeBoundsLoop (bounds : TimeBounds) : List ParseResult → Except VcdError TimeBounds
  | [] => .ok bounds
  | .error error :: _ => .error (.io error)
  | .ok command :: rest => timeBoundsLoop (bounds.read command) rest

/-- `compute_time_bounds_in_place`. -/
def computeTimeBoundsInPlace (parser : List ParseResult) : Except VcdError (Nat × Nat) := do
  let bounds ← timeBoundsLoop ⟨0, none, none⟩ parser
  let start := bounds.startTime.getD 0
  return (start, bounds.endTime.getD start)

section
variable (opened : OpenedVcd) (timescale : Option Timescale)

/-- `OpenedVcd::compute_metadata`. -/
def computeMetadata : Except VcdError VcdMeta := do
  let parser ← opened.bodyParser
  let (startTime, endTime) ← computeTimeBoundsInPlace parser
  opened.validateComplete
  return ⟨timescale, opened.catalog.signals.length, startTime, endTime⟩

/-- The loop of `compute_metadata_with_context`. -/
def metadataLoop (context : QueryContext) (bounds : TimeBounds) (commands : Nat) :
    List ParseResult → Except QueryError TimeBounds
  | [] => .ok bounds
  | result :: rest => do
    let commands := saturatingAdd commands 1
    match context.limits.maxCommands with
    | some limit =>
      if commands > limit then throw (.limitExceeded .commands limit commands)
    | none => pure ()
    let command ← (result.mapError VcdError.io).mapError QueryError.fromVcd
    match command with
    | .timestamp _ => context.check
    | _ => if commands % commandCheckInterval = 0 then context.check
    metadataLoop context (bounds.read command) commands rest

/-- `OpenedVcd::compute_metadata_with_context`. -/
def computeMetadataWithContext (context : QueryContext) : Except QueryError VcdMeta := do
  context.check
  let parser ← opened.bodyParser.mapError QueryError.fromVcd
  let bounds ← metadataLoop context ⟨0, none, none⟩ 0 parser
  context.check
  opened.validateComplete.mapError QueryError.fromVcd
  context.check
  let startTime := bounds.startTime.getD 0
  return ⟨timescale, opened.catalog.signals.length, startTime, bounds.endTime.getD startTime⟩

end

/-! ## What the scans should say -/

/-- The times that timestamps and changes reach. -/
def reachedTimes : Nat → List ParseResult → List Nat
  | _, [] => []
  | _, .ok (.timestamp time) :: rest => time :: reachedTimes time rest
  | time, .ok (.other _) :: rest => reachedTimes time rest
  | time, .ok (.changeScalar _ _) :: rest | time, .ok (.changeVector _ _) :: rest
  | time, .ok (.changeReal _ _) :: rest | time, .ok (.changeString _ _) :: rest =>
    time :: reachedTimes time rest
  | time, .error _ :: rest => reachedTimes time rest

/-- How many commands a scan needs: all, or those up to the first error. -/
def commandsNeeded : List ParseResult → Nat
  | [] => 0
  | .error _ :: _ => 1
  | .ok _ :: rest => commandsNeeded rest + 1

/-- The timestamps of a body. -/
def timestamps (results : List ParseResult) : List Nat :=
  results.filterMap fun
    | .ok (.timestamp time) => some time
    | _ => none

/-- **What the two scans of a body should say.** -/
structure MetadataScansAgree (opened : OpenedVcd) (timescale : Option Timescale) : Prop where
  /-- Without a command limit the scans answer alike. -/
  unlimited : ∀ context : QueryContext, context.Live → context.limits.maxCommands = none →
    computeMetadataWithContext opened timescale context =
      (computeMetadata opened timescale).mapError QueryError.fromVcd
  /-- A body that parses has the first and the last time it reaches. -/
  bounds : ∀ results, opened.bodyParser = .ok results → opened.validateComplete = .ok () →
    (∀ result ∈ results, ∃ command, result = .ok command) →
    computeMetadata opened timescale = .ok {
      timescale := timescale
      signalCount := opened.catalog.signals.length
      startTime := (reachedTimes 0 results).head?.getD 0
      endTime := (reachedTimes 0 results).getLast?.getD 0 }
  /-- A body that does not parse has its first error. -/
  failure : ∀ (commands : List Command) error rest,
    opened.bodyParser = .ok (commands.map Except.ok ++ .error error :: rest) →
    computeMetadata opened timescale = .error (.io error)
  /-- A command limit stops the scans that need more commands, and no other. -/
  limited : ∀ (context : QueryContext) results limit, context.Live →
    context.limits.maxCommands = some limit → opened.bodyParser = .ok results →
    (limit < u64Max ∨ results.length ≤ u64Max) →
    ((∃ kind limit' actual, computeMetadataWithContext opened timescale context =
      .error (.limitExceeded kind limit' actual)) ↔ limit < commandsNeeded results)
  /-- Where timestamps never decrease, every row lies between the bounds. -/
  rows : ∀ results metadata, opened.bodyParser = .ok results →
    (timestamps results).Pairwise (· ≤ ·) → computeMetadata opened timescale = .ok metadata →
    ∀ targets window context iter, opened.extract targets window context = .ok iter →
      ∀ n row, answer OpenedTimeValueIter.next iter n = some (.ok row) →
        metadata.startTime ≤ row.time ∧ row.time ≤ metadata.endTime

/-! ## The loops -/

variable {opened : OpenedVcd} {timescale : Option Timescale} {context : QueryContext}
  {results : List ParseResult}

/-- A command that passes in a live context. -/
theorem metadataLoop_ok (hlive : context.Live) (bounds : TimeBounds) (commands : Nat)
    (command : Command) (rest : List ParseResult)
    (hlimit : ∀ limit ∈ context.limits.maxCommands, saturatingAdd commands 1 ≤ limit) :
    metadataLoop context bounds commands (.ok command :: rest) =
      metadataLoop context (bounds.read command) (saturatingAdd commands 1) rest := by
  rw [metadataLoop]
  have hcheck := QueryContext.check_live hlive
  cases hmax : context.limits.maxCommands with
  | none => cases command <;> simp [hcheck, Except.mapError, bind, Except.bind]
  | some limit =>
    have hle := hlimit limit hmax
    cases command <;> simp [hcheck, Nat.not_lt.mpr hle, Except.mapError, bind, Except.bind]

theorem metadataLoop_error (bounds : TimeBounds) (commands : Nat) (error : IoError)
    (rest : List ParseResult)
    (hlimit : ∀ limit ∈ context.limits.maxCommands, saturatingAdd commands 1 ≤ limit) :
    metadataLoop context bounds commands (.error error :: rest) =
      .error (QueryError.fromVcd (.io error)) := by
  rw [metadataLoop]
  cases hmax : context.limits.maxCommands with
  | none => rfl
  | some limit =>
    have hle := hlimit limit hmax
    simp [Nat.not_lt.mpr hle, Except.mapError, bind, Except.bind]

/-- **Within the limit** the two loops are one. -/
theorem metadataLoop_within (hlive : context.Live) (bounds : TimeBounds) (commands : Nat)
    (hlimit : ∀ limit ∈ context.limits.maxCommands, commands + commandsNeeded results ≤ limit) :
    metadataLoop context bounds commands results =
      (timeBoundsLoop bounds results).mapError QueryError.fromVcd := by
  induction results generalizing bounds commands with
  | nil => rfl
  | cons result rest ih =>
    have hsaturating : saturatingAdd commands 1 ≤ commands + 1 := Nat.min_le_left _ _
    cases result with
    | error error =>
      rw [metadataLoop_error]
      · rfl
      · intro limit hmax
        exact Nat.le_trans hsaturating (hlimit limit hmax)
    | ok command =>
      rw [metadataLoop_ok hlive, ih, timeBoundsLoop]
      · intro limit hmax
        have hle := hlimit limit hmax
        rw [commandsNeeded] at hle
        omega
      · intro limit hmax
        have hle := hlimit limit hmax
        rw [commandsNeeded] at hle
        omega

/-- **Past the limit** the scan is refused at the command after it. -/
theorem metadataLoop_over (hlive : context.Live) {limit : Nat}
    (hmax : context.limits.maxCommands = some limit) (hroom : limit < u64Max) (bounds : TimeBounds)
    {commands : Nat} (hcommands : commands ≤ limit)
    (hover : limit < commands + commandsNeeded results) :
    metadataLoop context bounds commands results =
      .error (.limitExceeded .commands limit (limit + 1)) := by
  induction results generalizing bounds commands with
  | nil =>
    rw [commandsNeeded] at hover
    omega
  | cons result rest ih =>
    have hsum : saturatingAdd commands 1 = commands + 1 := by
      unfold saturatingAdd
      omega
    by_cases hfull : commands = limit
    · rw [metadataLoop, hsum, hmax, hfull]
      simp [bind, Except.bind, throw, throwThe, MonadExceptOf.throw]
    · have hroom' : ∀ limit' ∈ context.limits.maxCommands, saturatingAdd commands 1 ≤ limit' := by
        intro limit' hlimit'
        rw [hmax] at hlimit'
        cases hlimit'
        omega
      cases result with
      | error error =>
        rw [commandsNeeded] at hover
        omega
      | ok command =>
        rw [metadataLoop_ok hlive _ _ _ _ hroom', hsum]
        rw [commandsNeeded] at hover
        exact ih _ (by omega) (by omega)

/-- The times a body reaches extend the bounds found so far. -/
theorem timeBoundsLoop_reached (hparsed : ∀ result ∈ results, ∃ command, result = .ok command)
    (bounds : TimeBounds) :
    ∃ currentTime, timeBoundsLoop bounds results = .ok {
      currentTime := currentTime
      startTime := bounds.startTime <|> (reachedTimes bounds.currentTime results).head?
      endTime := (reachedTimes bounds.currentTime results).getLast? <|> bounds.endTime } := by
  induction results generalizing bounds with
  | nil =>
    refine ⟨bounds.currentTime, ?_⟩
    simp [timeBoundsLoop, reachedTimes]
  | cons result rest ih =>
    obtain ⟨command, rfl⟩ := hparsed result List.mem_cons_self
    obtain ⟨currentTime, hrest⟩ :=
      ih (fun result hresult => hparsed result (List.mem_cons_of_mem _ hresult)) (bounds.read command)
    refine ⟨currentTime, ?_⟩
    rw [timeBoundsLoop, hrest]
    cases command with
    | other text => rfl
    | timestamp time | changeScalar id value | changeVector id value | changeReal id value
    | changeString id value =>
      cases hstart : bounds.startTime <;>
        simp [TimeBounds.read, reachedTimes, hstart, List.getLast?_cons]

theorem timeBoundsLoop_failure (bounds : TimeBounds) (commands : List Command) (error : IoError)
    (rest : List ParseResult) :
    timeBoundsLoop bounds (commands.map Except.ok ++ .error error :: rest) = .error (.io error) := by
  induction commands generalizing bounds with
  | nil => rfl
  | cons command commands ih => exact ih (bounds.read command)

/-! ## The rows -/

variable {times : List Nat} {stream : SelectedChangeStream} {iter : OpenedTimeValueIter}

/-- The times a stream still reaches are among `times`. -/
def ReachesIn (times : List Nat) (stream : SelectedChangeStream) : Prop :=
  stream.finished = false → ∀ time ∈ reachedTimes stream.currentTime stream.parser, time ∈ times

theorem convertSelected_time {command : Command} {change : SelectedChange}
    (h : stream.convertSelected command = some change) : change.time = stream.currentTime := by
  cases command with
  | timestamp _ => cases h
  | other _ => cases h
  | changeScalar | changeVector | changeReal | changeString =>
    cases h
    rfl

/-- A command that changes an identifier reaches the current time. -/
theorem reachedTimes_changed {command : Command} {id : IdCode} {time : Nat}
    (h : command.changedId = some id) (rest : List ParseResult) :
    reachedTimes time (.ok command :: rest) = time :: reachedTimes time rest := by
  cases command with
  | timestamp _ => cases h
  | other _ => cases h
  | changeScalar | changeVector | changeReal | changeString => rfl

/-- A command that passes the checks is the one the parser delivered. -/
theorem checkResult_ok {result : ParseResult} {command : Command}
    (h : stream.checkResult result = .ok command) : result = .ok command := by
  unfold SelectedChangeStream.checkResult at h
  obtain ⟨_, _, h⟩ := bind_ok_iff.mp h
  cases result with
  | error error =>
    obtain ⟨_, _, h⟩ := bind_ok_iff.mp h
    cases h
  | ok command' =>
    cases command' with
    | timestamp time =>
      obtain ⟨_, _, h⟩ := bind_ok_iff.mp h
      obtain ⟨_, _, h⟩ := bind_ok_iff.mp h
      cases h
      rfl
    | other | changeScalar | changeVector | changeReal | changeString =>
      obtain ⟨_, _, h⟩ := bind_ok_iff.mp h
      cases h
      rfl

/-- A call that answers a change at one of `times`, or none, and still reaches
no other. -/
def AnswersIn (times : List Nat)
    (answered : Option (Except QueryError SelectedChange) × SelectedChangeStream) : Prop :=
  ReachesIn times answered.2 ∧ ∀ change, answered.1 = some (.ok change) → change.time ∈ times

theorem fail_answersIn (stream : SelectedChangeStream) (error : QueryError) :
    AnswersIn times (stream.fail error) :=
  ⟨fun h => (by cases h), fun _ h => (by cases h)⟩

theorem finishSuccess_answersIn (stream : SelectedChangeStream) :
    AnswersIn times stream.finishSuccess := by
  unfold SelectedChangeStream.finishSuccess
  split
  · exact ⟨fun h => (by cases h), fun _ h => (by cases h)⟩
  · exact fail_answersIn _ _

theorem nextLoop_answersIn (rest : List ParseResult) (stream : SelectedChangeStream)
    (h : ∀ time ∈ reachedTimes stream.currentTime rest, time ∈ times) :
    AnswersIn times (stream.nextLoop rest) := by
  induction rest generalizing stream with
  | nil => exact finishSuccess_answersIn _
  | cons result rest ih =>
    unfold SelectedChangeStream.nextLoop
    simp only
    split
    · exact fail_answersIn _ _
    · rename_i time hadmitted
      rw [checkResult_ok hadmitted, reachedTimes] at h
      split
      · exact finishSuccess_answersIn _
      · exact ih _ fun time' htime => h time' (List.mem_cons_of_mem _ htime)
    · rename_i command hcommand hadmitted
      rw [checkResult_ok hadmitted] at h
      split
      · rename_i hid
        refine ih _ ?_
        cases command with
        | timestamp time => exact absurd rfl (hcommand time)
        | other text => exact h
        | changeScalar | changeVector | changeReal | changeString => cases hid
      · rename_i id hid
        rw [reachedTimes_changed hid] at h
        have hrest : ∀ time ∈ reachedTimes stream.currentTime rest, time ∈ times :=
          fun time htime => h time (List.mem_cons_of_mem _ htime)
        split
        · split
          · exact fail_answersIn _ _
          · split
            · rename_i change hchange
              refine ⟨fun _ => hrest, fun change' heq => ?_⟩
              cases heq
              rw [convertSelected_time hchange]
              exact h _ List.mem_cons_self
            · exact ih _ hrest
        · exact ih _ hrest

theorem next_answersIn (h : ReachesIn times stream) : AnswersIn times stream.next := by
  unfold SelectedChangeStream.next
  split
  · exact ⟨h, fun _ h => (by cases h)⟩
  · rename_i hfinished
    exact nextLoop_answersIn _ _ (h (by simpa using hfinished))

/-- An extraction starts with the whole body ahead. -/
theorem extract_reachesIn {targets : List String} {window : TimeWindow}
    (hbody : opened.bodyParser = .ok results)
    (h : opened.extract targets window context = .ok iter) :
    iter.pending = [] ∧ ReachesIn (reachedTimes 0 results) iter.stream := by
  obtain ⟨stream, hstream, h⟩ := bind_ok_iff.mp h
  cases h
  obtain ⟨_, _, hstream⟩ := bind_ok_iff.mp hstream
  obtain ⟨_, _, hstream⟩ := bind_ok_iff.mp hstream
  obtain ⟨_, _, hstream⟩ := bind_ok_iff.mp hstream
  obtain ⟨parser, hparser, hstream⟩ := bind_ok_iff.mp hstream
  cases hstream
  rw [hbody] at hparser
  cases hparser
  exact ⟨rfl, fun _ _ h => h⟩

/-! ## The two scans -/

theorem computeTimeBounds_parsed (hparsed : ∀ result ∈ results, ∃ command, result = .ok command) :
    computeTimeBoundsInPlace results =
      .ok ((reachedTimes 0 results).head?.getD 0, (reachedTimes 0 results).getLast?.getD 0) := by
  obtain ⟨currentTime, hloop⟩ := timeBoundsLoop_reached hparsed ⟨0, none, none⟩
  rw [computeTimeBoundsInPlace, hloop]
  cases reachedTimes 0 results with
  | nil => rfl
  | cons time times => simp [List.getLast?_cons, bind, Except.bind, pure, Except.pure]

/-- A body whose times are found has no error. -/
theorem timeBoundsLoop_parsed {bounds bounds' : TimeBounds}
    (h : timeBoundsLoop bounds results = .ok bounds') :
    ∀ result ∈ results, ∃ command, result = .ok command := by
  induction results generalizing bounds with
  | nil => exact fun _ hresult => (by cases hresult)
  | cons result rest ih =>
    cases result with
    | error error => cases h
    | ok command =>
      intro result hresult
      obtain rfl | hresult := List.mem_cons.mp hresult
      · exact ⟨command, rfl⟩
      · exact ih h result hresult

/-- Ordered timestamps reach ordered times, none before the current one. -/
theorem reachedTimes_ordered (hordered : (timestamps results).Pairwise (· ≤ ·)) {time : Nat}
    (hfrom : ∀ t ∈ timestamps results, time ≤ t) :
    (reachedTimes time results).Pairwise (· ≤ ·) ∧ ∀ t ∈ reachedTimes time results, time ≤ t := by
  induction results generalizing time with
  | nil => exact ⟨.nil, fun _ h => (by cases h)⟩
  | cons result rest ih =>
    match result with
    | .error error => exact ih hordered hfrom
    | .ok (.other text) => exact ih hordered hfrom
    | .ok (.timestamp t) =>
      have hcons : (t :: timestamps rest).Pairwise (· ≤ ·) := hordered
      obtain ⟨hhead, htail⟩ := List.pairwise_cons.mp hcons
      obtain ⟨hrest, hafter⟩ := ih htail hhead
      have ht : time ≤ t := hfrom t List.mem_cons_self
      refine ⟨hrest.cons hafter, fun t' h => ?_⟩
      obtain rfl | h := List.mem_cons.mp h
      · exact ht
      · exact Nat.le_trans ht (hafter t' h)
    | .ok (.changeScalar _ _) | .ok (.changeVector _ _) | .ok (.changeReal _ _)
    | .ok (.changeString _ _) =>
      obtain ⟨hrest, hafter⟩ := ih hordered hfrom
      refine ⟨hrest.cons hafter, fun t' h => ?_⟩
      obtain rfl | h := List.mem_cons.mp h
      · exact Nat.le_refl _
      · exact hafter t' h

/-- The ends of an ordered list bound its members. -/
theorem ordered_bounds {times : List Nat} (hordered : times.Pairwise (· ≤ ·)) {time : Nat}
    (h : time ∈ times) : times.head?.getD 0 ≤ time ∧ time ≤ times.getLast?.getD 0 := by
  cases times with
  | nil => cases h
  | cons first rest =>
    rw [List.getLast?_eq_some_getLast (List.cons_ne_nil first rest)]
    constructor
    · obtain rfl | hrest := List.mem_cons.mp h
      · exact Nat.le_refl _
      · exact (List.pairwise_cons.mp hordered).1 time hrest
    · exact hordered.rel_getLast h

theorem fromVcd_not_limitExceeded (error : VcdError) (kind : QueryLimitKind) (limit actual : Nat) :
    QueryError.fromVcd error ≠ .limitExceeded kind limit actual := by
  intro h
  have hpolicy := QueryError.isPolicy_fromVcd error
  rw [h] at hpolicy
  cases hpolicy

/-- The scan under a limit it stays within. -/
theorem metadata_within (hlive : context.Live) (hbody : opened.bodyParser = .ok results)
    (hlimit : ∀ limit ∈ context.limits.maxCommands, commandsNeeded results ≤ limit) :
    computeMetadataWithContext opened timescale context =
      (computeMetadata opened timescale).mapError QueryError.fromVcd := by
  have hcheck := QueryContext.check_live hlive
  have hloop : metadataLoop context ⟨0, none, none⟩ 0 results =
      (timeBoundsLoop ⟨0, none, none⟩ results).mapError QueryError.fromVcd := by
    refine metadataLoop_within hlive _ _ fun limit hmax => ?_
    rw [Nat.zero_add]
    exact hlimit limit hmax
  simp only [computeMetadataWithContext, computeMetadata, computeTimeBoundsInPlace, hcheck, hbody,
    hloop, Except.mapError, bind, Except.bind, pure, Except.pure]
  cases timeBoundsLoop ⟨0, none, none⟩ results with
  | error error => rfl
  | ok bounds => cases opened.validateComplete <;> rfl

/-- The scan under a limit it goes past. -/
theorem metadata_over (hlive : context.Live) (hbody : opened.bodyParser = .ok results) {limit : Nat}
    (hmax : context.limits.maxCommands = some limit) (hroom : limit < u64Max)
    (hover : limit < commandsNeeded results) :
    computeMetadataWithContext opened timescale context =
      .error (.limitExceeded .commands limit (limit + 1)) := by
  have hcheck := QueryContext.check_live hlive
  have hloop : metadataLoop context ⟨0, none, none⟩ 0 results =
      .error (.limitExceeded .commands limit (limit + 1)) :=
    metadataLoop_over hlive hmax hroom _ (Nat.zero_le limit) (by rwa [Nat.zero_add])
  simp only [computeMetadataWithContext, hcheck, hbody, hloop, Except.mapError, bind, Except.bind]

theorem commandsNeeded_le_length (results : List ParseResult) :
    commandsNeeded results ≤ results.length := by
  induction results with
  | nil => exact Nat.le_refl _
  | cons result rest ih =>
    cases result with
    | error error => exact Nat.le_add_left 1 _
    | ok command => exact Nat.succ_le_succ ih

/-- **The two metadata scans agree**, and bound the rows of every extraction. -/
theorem metadata_scans_agree (opened : OpenedVcd) (timescale : Option Timescale) :
    MetadataScansAgree opened timescale where
  unlimited context hlive hmax := by
    cases hbody : opened.bodyParser with
    | error error =>
      simp only [computeMetadataWithContext, computeMetadata, QueryContext.check_live hlive, hbody,
        Except.mapError, bind, Except.bind]
    | ok results =>
      refine metadata_within hlive hbody fun limit hlimit => ?_
      rw [hmax] at hlimit
      cases hlimit
  bounds results hbody hcomplete hparsed := by
    simp only [computeMetadata, hbody, computeTimeBounds_parsed hparsed, hcomplete, bind,
      Except.bind, pure, Except.pure]
  failure commands error rest hbody := by
    simp only [computeMetadata, computeTimeBoundsInPlace, hbody,
      timeBoundsLoop_failure, bind, Except.bind]
  limited context results limit hlive hmax hbody hcount := by
    constructor
    · intro ⟨kind, limit', actual, hexceeded⟩
      by_contra hwithin
      have hneeded : ∀ limit' ∈ context.limits.maxCommands, commandsNeeded results ≤ limit' := by
        intro limit' hlimit'
        rw [hmax] at hlimit'
        cases hlimit'
        exact Nat.not_lt.mp hwithin
      have hsame : computeMetadataWithContext opened timescale context = _ :=
        metadata_within hlive hbody hneeded
      rw [hexceeded] at hsame
      cases hmetadata : computeMetadata opened timescale with
      | ok metadata =>
        rw [hmetadata] at hsame
        cases hsame
      | error error =>
        rw [hmetadata] at hsame
        exact fromVcd_not_limitExceeded error kind limit' actual (Except.error.inj hsame).symm
    · intro hover
      have hneeded := commandsNeeded_le_length results
      exact ⟨_, _, _, metadata_over hlive hbody hmax (by omega) hover⟩
  rows results metadata hbody hordered hmetadata targets window context iter hextract n row hrow := by
    obtain ⟨hpending, hstream⟩ := extract_reachesIn hbody hextract
    have htime := OpenedTimeValueIter.answer_rowsIn (S := ReachesIn (reachedTimes 0 results))
      (P := fun _ time _ => time ∈ reachedTimes 0 results)
      (fun _ h => ⟨(next_answersIn h).1, fun change hchange _ _ => (next_answersIn h).2 change hchange⟩)
      (OpenedTimeValueIter.rowsIn_start hpending hstream) n hrow
    have hreached := (reachedTimes_ordered hordered fun t _ => Nat.zero_le t).1
    obtain ⟨parser, hparser, hscan⟩ := bind_ok_iff.mp hmetadata
    rw [hbody] at hparser
    cases hparser
    obtain ⟨⟨first, last⟩, htimes, hscan⟩ := bind_ok_iff.mp hscan
    obtain ⟨bounds, hbounds, _⟩ := bind_ok_iff.mp htimes
    rw [computeTimeBounds_parsed (timeBoundsLoop_parsed hbounds)] at htimes
    cases htimes
    obtain ⟨_, _, hscan⟩ := bind_ok_iff.mp hscan
    cases hscan
    exact ordered_bounds hreached htime

/-- A change between two timestamps. -/
def boundedBody : List ParseResult :=
  [.ok (.timestamp 3), .ok (.changeScalar ⟨33⟩ .v1), .ok (.timestamp 9)]

def readError : IoError := ⟨.invalidData, "unexpected token", false⟩

theorem metadata_scans_agree_bounded :
    computeMetadata (aliasedVcd boundedBody) none = .ok ⟨none, 2, 3, 9⟩ ∧
    computeMetadataWithContext (aliasedVcd boundedBody) none {} = .ok ⟨none, 2, 3, 9⟩ ∧
    computeMetadata (aliasedVcd (boundedBody ++ [.error readError])) none =
      .error (.io readError) ∧
    (∃ kind limit actual, computeMetadataWithContext (aliasedVcd boundedBody) none
      { limits := { maxCommands := some 2 } } = .error (.limitExceeded kind limit actual)) ∧
    ∃ iter, (aliasedVcd boundedBody).extract ["a"] ⟨none, none⟩ {} = .ok iter ∧
      ∀ n row, answer OpenedTimeValueIter.next iter n = some (.ok row) →
        3 ≤ row.time ∧ row.time ≤ 9 := by
  have hlive : ∀ limits, QueryContext.Live { limits := limits } := fun _ => ⟨rfl, rfl⟩
  have hagree := metadata_scans_agree (aliasedVcd boundedBody) none
  have hbounds : computeMetadata (aliasedVcd boundedBody) none = .ok ⟨none, 2, 3, 9⟩ :=
    hagree.bounds boundedBody rfl rfl (by simp [boundedBody])
  obtain ⟨iter, hiter⟩ := extract_starts (hlive {}) rfl
    (⟨rfl, rfl⟩ : (aliasedVcd boundedBody).Unchanged boundedBody)
    (show ∀ name ∈ ["a"], ((aliasedVcd boundedBody).signal name).isSome by decide) ⟨none, none⟩
  refine ⟨hbounds, (hagree.unlimited {} (hlive {}) rfl).trans (by rw [hbounds]; rfl), ?_, ?_, iter,
    hiter, hagree.rows boundedBody _ rfl (by decide) hbounds ["a"] ⟨none, none⟩ {} iter hiter⟩
  · exact (metadata_scans_agree (aliasedVcd (boundedBody ++ [.error readError])) none).failure
      [.timestamp 3, .changeScalar ⟨33⟩ .v1, .timestamp 9] readError [] rfl
  · exact (hagree.limited { limits := { maxCommands := some 2 } } boundedBody 2 (hlive _) rfl rfl
      (.inl (by decide))).mpr (by decide)

end VcdTools.Opened
