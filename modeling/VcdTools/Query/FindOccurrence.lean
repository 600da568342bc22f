import VcdTools.Query.ExtractItems

/-! # Finding an occurrence

A search visits the items of an extraction. It leaves at the matching row it
was asked for, so that it depends on the items up to there and on nothing
behind them. -/
namespace VcdTools.Query
open VcdTools.Lib VcdTools.Lib.Iter

/-! ## The search -/

/-- The normalised value of a row is that of the target. -/
def isMatch (std : StdText) (targetValue : TargetValue) (row : TimeValue) : Bool :=
  normalize std row.value = targetValue.normalize std

variable {std : StdText} {targetValue : TargetValue} {occurrence : Nat}

/-- The matching rows before the one that is asked for are counted. -/
theorem visit_before (before : List TimeValue) (rest : List (Except QueryError TimeValue))
    (state : Occurrences)
    (h : state.count + (before.filter (isMatch std targetValue)).length < occurrence) :
    visit (nthOccurrence std (targetValue.normalize std) occurrence) state
        (before.map .ok ++ rest) =
      visit (nthOccurrence std (targetValue.normalize std) occurrence)
        { state with count := state.count + (before.filter (isMatch std targetValue)).length }
        rest := by
  induction before generalizing state with
  | nil => rfl
  | cons row before ih =>
    rw [List.map_cons, List.cons_append]
    by_cases hmatch : isMatch std targetValue row = true
    · have hlength : ((row :: before).filter (isMatch std targetValue)).length =
          (before.filter (isMatch std targetValue)).length + 1 := by
        rw [List.filter_cons_of_pos hmatch, List.length_cons]
      rw [hlength] at h ⊢
      have hstep : nthOccurrence std (targetValue.normalize std) occurrence state row =
          .ok (true, { state with count := state.count + 1 }) := by
        rw [nthOccurrence, if_pos (by simpa [isMatch] using hmatch)]
        exact if_neg (by omega)
      have hadd : state.count + 1 + (before.filter (isMatch std targetValue)).length =
          state.count + ((before.filter (isMatch std targetValue)).length + 1) := by
        omega
      rw [visit_more hstep, ih _ (by simp only; omega), hadd]
    · have hstep : nthOccurrence std (targetValue.normalize std) occurrence state row =
          .ok (true, state) := by
        rw [nthOccurrence, if_neg (by simpa [isMatch] using hmatch)]
      rw [List.filter_cons_of_neg hmatch] at h ⊢
      rw [visit_more hstep, ih state h]

/-- The row that is asked for. -/
theorem visit_hit {before : List TimeValue} {row : TimeValue}
    (after : List (Except QueryError TimeValue)) (hmatch : isMatch std targetValue row = true)
    (h : (before.filter (isMatch std targetValue)).length + 1 = occurrence) :
    visit (nthOccurrence std (targetValue.normalize std) occurrence) {}
        (before.map .ok ++ .ok row :: after) = .ok (false, ⟨occurrence, some row⟩) := by
  rw [visit_before before _ _ (by simp only; omega)]
  refine visit_leave ?_
  rw [nthOccurrence, if_pos (by simpa [isMatch] using hmatch)]
  simp only [Nat.zero_add, h, if_true]

theorem visit_miss {rows : List TimeValue}
    (h : (rows.filter (isMatch std targetValue)).length < occurrence) :
    visit (nthOccurrence std (targetValue.normalize std) occurrence) {} (rows.map .ok) =
      .ok (true, ⟨(rows.filter (isMatch std targetValue)).length, none⟩) := by
  have hempty : ({} : Occurrences).count + (rows.filter (isMatch std targetValue)).length <
      occurrence := by
    simpa using h
  have hbefore := visit_before rows [] {} hempty
  rw [List.append_nil] at hbefore
  rw [hbefore, Nat.zero_add]
  rfl

theorem visit_broken {before : List TimeValue} (error : QueryError)
    (after : List (Except QueryError TimeValue))
    (h : (before.filter (isMatch std targetValue)).length < occurrence) :
    visit (nthOccurrence std (targetValue.normalize std) occurrence) {}
        (before.map .ok ++ .error error :: after) = .error error := by
  rw [visit_before before _ _ (by simpa using h), visit_error]

/-- What a search answers when its visit ends so: it checks the source once more
when it has found the row. -/
def searched (recheck : Except QueryError Unit) (width : Nat) :
    Except QueryError (Bool × Occurrences) → Except QueryError (Option TimeValue × Nat)
  | .error error => .error error
  | .ok (true, _) => .ok (none, width)
  | .ok (false, state) => recheck.map fun _ => (state.found, width)

/-! ## An opened VCD -/

variable {opened : OpenedVcd} {targets : List String} {window : TimeWindow}
  {context : QueryContext} {iter : OpenedTimeValueIter}

/-- **An extraction from a VCD delivers these items**, or it does not start. -/
def OpenedVcd.Delivers (opened : OpenedVcd) (targets : List String) (window : TimeWindow)
    (context : QueryContext) (items : List (Except QueryError TimeValue)) : Prop :=
  match opened.extract targets window context with
  | .error error => items = [.error error]
  | .ok iter => Yields OpenedTimeValueIter.next iter items

/-- What an iterator starts with, whatever its source does. -/
structure Starts (opened : OpenedVcd) (context : QueryContext) (iter : OpenedTimeValueIter) :
    Prop where
  filled : iter.stream.selection.byId.Filled
  streamContext : iter.stream.context = context
  complete : iter.stream.validateComplete = opened.validateComplete
  context : iter.context = context

theorem extract_starting (h : opened.extract targets window context = .ok iter) :
    context.Live ∧ context.checkSignalCount targets.length = .ok () ∧
      Starts opened context iter := by
  obtain ⟨hlive, selection, commands, hselection, -, rfl⟩ := extract_ok_iff.mp h
  have hresolves := resolve_ok hlive hselection
  exact ⟨hlive, hresolves.counted, hresolves.filled, rfl, rfl, rfl⟩

/-- **Every extraction from a VCD delivers some items.** -/
theorem OpenedVcd.exists_delivers (opened : OpenedVcd) (targets : List String) (window : TimeWindow)
    (context : QueryContext) : ∃ items, opened.Delivers targets window context items := by
  unfold OpenedVcd.Delivers
  cases hextract : opened.extract targets window context with
  | error error => exact ⟨[.error error], rfl⟩
  | ok iter => exact iter.exists_yields (extract_starting hextract).2.2.filled

/-- The check of the source after a search. -/
def OpenedVcd.recheck (opened : OpenedVcd) (context : QueryContext) : Except QueryError Unit := do
  context.check
  opened.validateComplete.mapError QueryError.fromVcd

theorem Starts.keeps (h : Starts opened context iter) {iter' : OpenedTimeValueIter}
    (hkeeps : OpenedTimeValueIter.Keeps iter iter') : Starts opened context iter' where
  filled := by
    rw [hkeeps.selection]
    exact h.filled
  streamContext := hkeeps.streamContext.trans h.streamContext
  complete := hkeeps.complete.trans h.complete
  context := hkeeps.context.trans h.context

theorem Starts.validate (h : Starts opened context iter) :
    iter.validateCurrentGeneration = opened.recheck context := by
  simp only [OpenedTimeValueIter.validateCurrentGeneration,
    SelectedChangeStream.validateCurrentGeneration, OpenedVcd.recheck, h.context, h.streamContext,
    h.complete]
  cases context.check with
  | error error => rfl
  | ok _ =>
    cases opened.validateComplete with
    | error error => rfl
    | ok _ => rfl

/-- A loop over an extraction visits its items. -/
theorem forEach_visit {τ : Type} (visitor : τ → TimeValue → Except QueryError (Bool × τ))
    (visited : τ) {items : List (Except QueryError TimeValue)}
    (h : Yields OpenedTimeValueIter.next iter items) :
    (iter.forEach visitor visited).map (fun ended => (ended.1, ended.2.1)) =
      visit visitor visited items :=
  iterate_of_yields OpenedTimeValueIter.next_shrinks h

theorem forEach_starts {τ : Type} {visitor : τ → TimeValue → Except QueryError (Bool × τ)}
    {visited visited' : τ} {more : Bool} {iter' : OpenedTimeValueIter}
    (hstarts : Starts opened context iter)
    (h : iter.forEach visitor visited = .ok (more, visited', iter')) :
    Starts opened context iter' :=
  iterate_keeps OpenedTimeValueIter.next_shrinks
    (fun iter hiter => hiter.keeps (iter.next_keeps hiter.filled).1) hstarts h

/-- **A search in a VCD** visits the items of the extraction. -/
theorem findNthOccurrence_eq {signal : String} {found : SignalMeta}
    (hfound : opened.signal signal = some found) (hoccurrence : 1 ≤ occurrence)
    {items : List (Except QueryError TimeValue)}
    (hitems : opened.Delivers [signal] window context items) :
    opened.findNthOccurrence std signal targetValue occurrence window context =
      searched (opened.recheck context) found.size
        (visit (nthOccurrence std (targetValue.normalize std) occurrence) {} items) := by
  have hnot : ¬ occurrence < 1 := by omega
  unfold OpenedVcd.Delivers at hitems
  unfold OpenedVcd.findNthOccurrence
  simp only [hnot, if_false, hfound]
  cases hextract : opened.extract [signal] window context with
  | error error =>
    rw [hextract] at hitems
    subst hitems
    rw [visit_error]
    cases hcheck : context.check with
    | ok _ => rfl
    | error error' =>
      rw [OpenedVcd.extract, OpenedVcd.selectedChangeStream, hcheck] at hextract
      cases hextract
      rfl
  | ok iter =>
    rw [hextract] at hitems
    obtain ⟨hlive, -, hstarts⟩ := extract_starting hextract
    have hvisit := forEach_visit (nthOccurrence std (targetValue.normalize std) occurrence) {}
      hitems
    simp only [QueryContext.check_live hlive, bind, Except.bind, pure, Except.pure]
    cases hloop : iter.forEach (nthOccurrence std (targetValue.normalize std) occurrence) {} with
    | error error =>
      rw [hloop] at hvisit
      rw [← hvisit]
      rfl
    | ok ended =>
      obtain ⟨more, state, events⟩ := ended
      rw [hloop] at hvisit
      rw [← hvisit]
      cases more with
      | true => rfl
      | false =>
        simp only [Except.map, searched, (forEach_starts hstarts hloop).validate]

/-! ## A longer body -/

/-- The same waveform with more behind its body. -/
def OpenedVcd.longer (opened : OpenedVcd) (commands more : List ParseResult) : OpenedVcd :=
  { opened with bodyParser := .ok (commands ++ more) }

variable {commands : List ParseResult}

theorem resolveLoop_longer (more : List ParseResult) (targets : List (String × Nat))
    (byId : Groups IdCode TargetBinding) (missing : List String) :
    resolveLoop (opened.longer commands more) context byId missing targets =
      resolveLoop opened context byId missing targets := by
  induction targets generalizing byId missing with
  | nil => rfl
  | cons target targets ih =>
    obtain ⟨name, requestIndex⟩ := target
    have hsignal : (opened.longer commands more).signal name = opened.signal name := rfl
    simp only [resolveLoop, hsignal, ih]

theorem extract_longer (more : List ParseResult) (hbody : opened.bodyParser = .ok commands)
    (h : opened.extract targets window context = .ok iter) :
    (opened.longer commands more).extract targets window context = .ok (iter.longer more) := by
  have hresolve : TargetSelection.resolve (opened.longer commands more) targets context =
      TargetSelection.resolve opened targets context := by
    simp only [TargetSelection.resolve, resolveLoop_longer]
  have hlonger : (opened.longer commands more).bodyParser = .ok (commands ++ more) := rfl
  simp only [OpenedVcd.extract, OpenedVcd.selectedChangeStream, hresolve, hlonger, hbody, bind,
    Except.bind, Except.mapError, pure, Except.pure] at h ⊢
  cases hcheck : context.check with
  | error error =>
    rw [hcheck] at h
    cases h
  | ok _ =>
    rw [hcheck] at h
    simp only at h ⊢
    cases hselection : TargetSelection.resolve opened targets context with
    | error error =>
      rw [hselection] at h
      cases h
    | ok selection =>
      rw [hselection] at h
      cases h
      rfl

/-- A row that a search finds is found whatever stands behind it. -/
theorem findNthOccurrence_longer {signal : String} {row : TimeValue} {width : Nat}
    (more : List ParseResult) (hbody : opened.bodyParser = .ok commands)
    (h : opened.findNthOccurrence std signal targetValue occurrence window context =
      .ok (some row, width)) :
    (opened.longer commands more).findNthOccurrence std signal targetValue occurrence window
      context = .ok (some row, width) := by
  have hsignal : (opened.longer commands more).signal signal = opened.signal signal := rfl
  unfold OpenedVcd.findNthOccurrence at h ⊢
  simp only [hsignal] at h ⊢
  by_cases hoccurrence : occurrence < 1
  · rw [if_pos hoccurrence] at h
    cases h
  rw [if_neg hoccurrence] at h ⊢
  cases hcheck : context.check with
  | error error =>
    rw [hcheck] at h
    cases h
  | ok _ =>
    cases hfound : opened.signal signal with
    | none =>
      rw [hcheck, hfound] at h
      cases h
    | some found =>
      cases hextract : opened.extract [signal] window context with
      | error error =>
        rw [hcheck, hfound, hextract] at h
        cases h
      | ok iter =>
        rw [hcheck, hfound, hextract] at h
        rw [extract_longer more hbody hextract]
        simp only [bind, Except.bind, pure, Except.pure] at h ⊢
        cases hloop : iter.forEach
            (nthOccurrence std (targetValue.normalize std) occurrence) {} with
        | error error =>
          rw [hloop] at h
          cases h
        | ok ended =>
          obtain ⟨_ | _, state, events⟩ := ended
          · obtain ⟨events', hloop', rfl⟩ := iterate_leave OpenedTimeValueIter.next_shrinks
              (R := fun iter iter' => iter' = iter.longer more)
              (fun iter iter' row rest hiter hnext =>
                ⟨rest.longer more, by rw [hiter]; exact iter.next_longer more hnext, rfl⟩)
              rfl hloop
            rw [hloop] at h
            rw [OpenedTimeValueIter.forEach, hloop']
            exact h
          · rw [hloop] at h
            cases h

end VcdTools.Query
