import VcdTools.Query.ExtractReference

/-! # Collecting an extraction

The loop over an opened iterator that ends at its first error, and what it
gives for a waveform whose body parses. -/
namespace VcdTools.Query
open VcdTools.Lib VcdTools.Lib.Iter

/-! ## The iterator gets smaller -/

theorem finishSuccess_not_ok (stream : SelectedChangeStream) (change : SelectedChange) :
    stream.finishSuccess.1 ≠ some (.ok change) := by
  unfold SelectedChangeStream.finishSuccess SelectedChangeStream.fail
  split <;> exact fun h => (by cases h)

/-- A change that the stream delivers leaves less for the parser. -/
theorem nextLoop_parser_length (rest : List ParseResult) (stream : SelectedChangeStream)
    {change : SelectedChange} {stream' : SelectedChangeStream}
    (h : stream.nextLoop rest = (some (.ok change), stream')) :
    stream'.parser.length < rest.length := by
  induction rest generalizing stream with
  | nil =>
    exact absurd (congrArg Prod.fst h) (finishSuccess_not_ok _ _)
  | cons result rest ih =>
    have hlater : ∀ stream : SelectedChangeStream,
        stream.nextLoop rest = (some (.ok change), stream') →
        stream'.parser.length < (result :: rest).length :=
      fun stream hstream => (ih stream hstream).trans (Nat.lt_succ_self _)
    unfold SelectedChangeStream.nextLoop at h
    simp only at h
    split at h
    · cases congrArg Prod.fst h
    · split at h
      · exact absurd (congrArg Prod.fst h) (finishSuccess_not_ok _ _)
      · exact hlater _ h
    · split at h
      · exact hlater _ h
      · split at h
        · split at h
          · cases congrArg Prod.fst h
          · split at h
            · cases h
              exact Nat.lt_succ_self _
            · exact hlater _ h
        · exact hlater _ h

namespace OpenedTimeValueIter

/-- What the parser still delivers, and the rows that wait. -/
def size (iter : OpenedTimeValueIter) : Nat × Nat :=
  (iter.stream.parser.length, iter.pending.length)

theorem emitPending_ok {iter iter' : OpenedTimeValueIter} {row : TimeValue}
    (h : iter.emitPending = (some (.ok row), iter')) :
    iter'.stream = iter.stream ∧ iter'.pending.length < iter.pending.length := by
  unfold emitPending at h
  split at h
  · cases h
  · rename_i event pending hpending
    split at h
    · cases h
    · cases h
      rw [hpending]
      exact ⟨rfl, Nat.lt_succ_self _⟩

theorem next_shrinks (iter : OpenedTimeValueIter) (row : TimeValue) (iter' : OpenedTimeValueIter)
    (h : iter.next = (some (.ok row), iter')) :
    Prod.Lex (· < ·) (· < ·) iter'.size iter.size := by
  unfold next at h
  split at h
  · cases h
  · split at h
    · rename_i event iter₁ hemit
      cases h
      obtain ⟨hstream, hpending⟩ := emitPending_ok hemit
      rw [size, size, hstream]
      exact Prod.Lex.right _ hpending
    · rename_i iter₁ hemit
      have hstream : iter₁.stream = iter.stream := by
        unfold emitPending at hemit
        split at hemit
        · cases hemit
          rfl
        · split at hemit <;> cases hemit
      rw [hstream] at h
      split at h
      · cases h
      · rename_i change stream hnext
        obtain ⟨hstream', -⟩ := emitPending_ok h
        have hlength : stream.parser.length < iter.stream.parser.length := by
          unfold SelectedChangeStream.next at hnext
          split at hnext
          · cases hnext
          · exact nextLoop_parser_length _ _ hnext
        rw [size, size, hstream']
        exact Prod.Lex.left _ _ hlength
      · cases h

/-- `for event in events { rows.push(event?) }`. -/
def collect (iter : OpenedTimeValueIter) : Except QueryError (List TimeValue) :=
  Iter.collect next size next_shrinks iter

end OpenedTimeValueIter

/-- The rows of an extraction, or its first error. -/
def OpenedVcd.extractRows (opened : OpenedVcd) (targets : List String) (window : TimeWindow)
    (context : QueryContext) : Except QueryError (List TimeValue) := do
  let events ← opened.extract targets window context
  events.collect

/-! ## A body that parses -/

/-- The value change of a parse result at its time. -/
def timedChange : Nat × ParseResult → Option (Nat × IdCode × ChangeValue)
  | (time, .ok command) => (commandToChangeValue command).map fun change => (time, change)
  | (_, .error _) => none

/-- The value changes of a body, with their times. -/
def timedChanges (time : Nat) (commands : List ParseResult) :
    List (Nat × IdCode × ChangeValue) :=
  (timed time commands).filterMap timedChange

/-- The rows that a change asks for. -/
def changeRows (names : IdCode → List String) (window : TimeWindow) :
    Nat × IdCode × ChangeValue → List TimeValue
  | (time, id, value) =>
    if Covers window time then (names id).map fun name => ⟨name, time, value⟩ else []

/-- A body without parse errors whose timestamps never decrease. -/
structure Orderly (commands : List ParseResult) : Prop where
  parses : ∀ result ∈ commands, ∃ command, result = .ok command
  sorted : (timed 0 commands).Pairwise fun a b => a.1 ≤ b.1

variable {names : IdCode → List String} {window : TimeWindow}

theorem rowsAt_eq (time : Nat) (command : Command) :
    rowsAt names window time command =
      (((commandToChangeValue command).map fun change => (time, change)).toList).flatMap
        (changeRows names window) := by
  unfold rowsAt
  cases commandToChangeValue command with
  | none => rfl
  | some change => exact (List.append_nil _).symm

theorem timedChanges_cons (time : Nat) (command : Command) (rest : List ParseResult) :
    timedChanges time (.ok command :: rest) =
      ((commandToChangeValue command).map fun change => (time, change)).toList ++
        timedChanges (timeAfter time (.ok command)) rest := by
  rw [timedChanges, timed, List.filterMap_cons, timedChanges, timedChange]
  cases commandToChangeValue command <;> rfl

/-- Everything is read at or after the time where reading starts. -/
theorem timed_ge {time : Nat} {commands : List ParseResult}
    (h : (timed time commands).Pairwise fun a b => a.1 ≤ b.1) :
    ∀ entry ∈ timed time commands, time ≤ entry.1 := by
  intro entry hentry
  cases commands with
  | nil => cases hentry
  | cons result rest =>
    rcases List.mem_cons.mp hentry with rfl | hrest
    · exact Nat.le_refl _
    · exact (List.pairwise_cons.mp h).1 entry hrest

/-- A change after the end of the window asks for nothing. -/
theorem changeRows_late {time : Nat} {commands : List ParseResult}
    (h : (timed time commands).Pairwise fun a b => a.1 ≤ b.1)
    (hlate : isLate window (.ok (.timestamp time)) = true) :
    (timedChanges time commands).flatMap (changeRows names window) = [] := by
  rw [List.flatMap_eq_nil_iff]
  rintro ⟨t, id, value⟩ hchange
  obtain ⟨entry, hentry, hmatch⟩ := List.mem_filterMap.mp hchange
  have ht : t = entry.1 := by
    obtain ⟨time, result⟩ := entry
    cases result with
    | ok command =>
      obtain ⟨change, -, heq⟩ := Option.map_eq_some_iff.mp hmatch
      exact (congrArg Prod.fst heq).symm
    | error error => cases hmatch
  have hge := timed_ge h entry hentry
  rw [isLate, Option.any_eq_true] at hlate
  obtain ⟨end_, hend, hlt⟩ := hlate
  have hnot : ¬ Covers window t := by
    intro hcovers
    have hle := hcovers.2 end_ hend
    have hgt : end_ < time := by simpa using hlt
    omega
  exact if_neg hnot

/-- **The reference of an orderly body**: nothing that the window covers stands
behind the first late timestamp. -/
theorem reference_orderly {time : Nat} {commands : List ParseResult}
    (hparses : ∀ result ∈ commands, ∃ command, result = .ok command)
    (hsorted : (timed time commands).Pairwise fun a b => a.1 ≤ b.1) :
    (timed time (untilError (scanned window commands))).flatMap (expand names window) =
      ((timedChanges time commands).flatMap (changeRows names window)).map .ok := by
  induction commands generalizing time with
  | nil => rfl
  | cons result rest ih =>
    obtain ⟨command, rfl⟩ := hparses result List.mem_cons_self
    have hrest := (List.pairwise_cons.mp hsorted).2
    have htail := ih (fun r hr => hparses r (List.mem_cons_of_mem _ hr)) hrest
    rw [scanned_cons]
    by_cases hlate : isLate window (.ok command) = true
    · rw [if_pos hlate]
      cases command with
      | timestamp t =>
        have hnone := @changeRows_late names _ _ _ hrest hlate
        rw [timedChanges_cons]
        exact (congrArg (List.map Except.ok) hnone).symm
      | changeScalar | changeVector | changeReal | changeString | other => cases hlate
    · rw [if_neg hlate, untilError_ok, timed, List.flatMap_cons, htail, timedChanges_cons,
        List.flatMap_append, List.map_append, ← rowsAt_eq]
      rfl

variable {opened : OpenedVcd} {commands : List ParseResult} {context : QueryContext}

/-- **Extraction from an orderly body** gives the rows of its changes. -/
theorem extractRows_ok (hcontext : context.Unlimited) (hsource : opened.Unchanged commands)
    (horderly : Orderly commands) {targets : List String}
    (hfound : ∀ name ∈ targets, (opened.signal name).isSome) (window : TimeWindow) :
    opened.extractRows targets window context =
      .ok ((timedChanges 0 commands).flatMap
        (changeRows (opened.catalog.requested targets) window)) := by
  obtain ⟨iter, hiter⟩ := extract_starts hcontext.live
      (QueryContext.checkSignalCount_none hcontext.live (by rw [hcontext.limits]) _) hsource hfound
    window
  have hyields := (extract_yields hcontext.live hsource hiter).1
  rw [hcontext.limits, answers_unlimited, work_items,
    reference_orderly horderly.parses horderly.sorted, List.map_map] at hyields
  rw [OpenedVcd.extractRows, hiter]
  exact (collect_of_yields _ hyields).trans (allOk_map_ok _)

/-- A missing name makes an extraction fail. -/
theorem extractRows_missing (hcontext : context.Unlimited) {targets : List String} {name : String}
    (hname : name ∈ targets) (hmissing : opened.signal name = none) (window : TimeWindow) :
    ∃ error, opened.extractRows targets window context = .error error := by
  have hcount : context.checkSignalCount targets.length = .ok () :=
    QueryContext.checkSignalCount_none hcontext.live (by rw [hcontext.limits]) _
  obtain ⟨byId, -, -, heq⟩ := resolve_eq opened hcontext.live hcount
  have hsome : ¬ targets.filter (fun name => (opened.signal name).isNone) = [] := by
    intro hnone
    have hfound := filter_missing_iff.mp hnone name hname
    rw [hmissing] at hfound
    cases hfound
  rw [if_neg hsome] at heq
  refine ⟨.fromVcd (.missingSignals
    (", ".intercalate (targets.filter fun name => (opened.signal name).isNone))), ?_⟩
  simp only [OpenedVcd.extractRows, OpenedVcd.extract, OpenedVcd.selectedChangeStream,
    QueryContext.check_live hcontext.live, heq, bind, Except.bind]

end VcdTools.Query
