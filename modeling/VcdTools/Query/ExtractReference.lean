import VcdTools.Query.ExtractRuns
import VcdTools.Legacy

/-! # Extraction, its reference and the legacy iterator

Under an unlimited context nothing is refused, so the opened iterator yields
its whole work, which is the reference. The legacy iterator reads on after a
parse error; up to the first one it yields the same. -/
namespace VcdTools.Query
open VcdTools.Lib VcdTools.Lib.Iter

variable {names : IdCode → List String} {window : TimeWindow}

/-- Neither cancelled nor expired, and without limits. -/
structure QueryContext.Unlimited (context : QueryContext) : Prop where
  live : context.Live
  limits : context.limits = {}

/-- An item of the reference as the opened iterator reports it. -/
def queryItem (item : Except IoError TimeValue) : Except QueryError TimeValue :=
  item.mapError fun error => .vcd (.io error)

/-- An item of the reference as the legacy iterator reports it. -/
def legacyItem (item : Except IoError TimeValue) : Except VcdError TimeValue :=
  item.mapError .io

/-! ## The whole work -/

theorem charge_unlimited (used : Usage) (w : Work) : ∃ used', charge {} used w = .ok used' := by
  cases w <;> exact ⟨_, rfl⟩

theorem answers_unlimited (used : Usage) (ws : List Work) :
    answers {} used ws = ws.filterMap Work.item := by
  induction ws generalizing used with
  | nil => rfl
  | cons w ws ih =>
    obtain ⟨used', hok⟩ := charge_unlimited used w
    rw [answers_cons_ok hok, ih, List.filterMap_cons]
    cases w.item <;> rfl

theorem filterMap_item_rows (rows : List TimeValue) :
    (rows.map Work.row).filterMap Work.item = (rows.map .ok).map queryItem := by
  induction rows with
  | nil => rfl
  | cons row rows ih =>
    rw [List.map_cons, List.filterMap_cons]
    exact congrArg (.ok row :: ·) ih

theorem scanned_cons (result : ParseResult) (rest : List ParseResult) :
    scanned window (result :: rest) =
      if isLate window result then [] else result :: scanned window rest := by
  rw [scanned, List.takeWhile_cons]
  cases isLate window result <;> rfl

/-- The work of a run delivers the reference. -/
theorem work_items (time : Nat) (commands : List ParseResult) :
    (extractWork names window time commands).filterMap Work.item =
      ((timed time (untilError (scanned window commands))).flatMap
        (expand names window)).map queryItem := by
  induction commands generalizing time with
  | nil => rfl
  | cons result rest ih =>
    rw [scanned_cons]
    cases result with
    | error error => rfl
    | ok command =>
      rw [extractWork, List.filterMap_cons]
      by_cases hlate : isLate window (.ok command) = true
      · rw [if_pos hlate, if_pos hlate]
        rfl
      · rw [if_neg hlate, if_neg hlate, untilError_ok, timed, List.flatMap_cons, List.map_append,
          List.filterMap_append, ih, filterMap_item_rows]
        rfl

/-! ## The legacy iterator -/

/-- What the legacy iterator yields: the expansion of all parse results before
the first late timestamp. -/
def legacyItems (names : IdCode → List String) (window : TimeWindow) (time : Nat)
    (commands : List ParseResult) : List (Except VcdError TimeValue) :=
  ((timed time (scanned window commands)).flatMap (expand names window)).map legacyItem

/-- What the legacy iterator keeps while it runs. -/
structure LegacyReady (names : IdCode → List String) (window : TimeWindow)
    (iter : TimeValueIter) : Prop where
  names : ∀ id, iter.targetMap.getD id = names id
  filled : iter.targetMap.Filled
  early : iter.finished = false → isLate window (.ok (.timestamp iter.currentTime)) = false
  window : iter.window = window

/-- What is to come from the legacy iterator. -/
def LegacyAhead (names : IdCode → List String) (window : TimeWindow)
    (todo : List (Except VcdError TimeValue)) (iter : TimeValueIter) : Prop :=
  LegacyReady names window iter ∧
    todo = iter.pending.map .ok ++
      if iter.finished then [] else legacyItems names window iter.currentTime iter.parser

theorem map_legacyItem_ok (rows : List TimeValue) :
    (rows.map .ok).map legacyItem = rows.map .ok := by
  rw [List.map_map]
  rfl

/-- One parse result that is not late, in front of the others. -/
theorem legacyItems_cons {time : Nat} {result : ParseResult} {rest : List ParseResult}
    (hlate : isLate window result = false) :
    legacyItems names window time (result :: rest) =
      (expand names window (time, result)).map legacyItem ++
        legacyItems names window (timeAfter time result) rest := by
  rw [legacyItems, scanned_cons, hlate]
  simp [timed, legacyItems]

/-- What the legacy loop does with a change command. -/
theorem legacy_changed {iter : TimeValueIter} {command : Command} {id : IdCode}
    {value : ChangeValue} (hchange : commandToChangeValue command = some (id, value))
    {rest : List ParseResult} :
    iter.nextLoop (.ok command :: rest) =
      match iter.targetMap.get id with
      | none => TimeValueIter.nextLoop { iter with parser := rest } rest
      | some names =>
        if ¬ iter.window.contains iter.currentTime then
          if iter.window.end_.any (fun end_ => iter.currentTime > end_) then
            TimeValueIter.finish { iter with parser := rest }
          else TimeValueIter.nextLoop { iter with parser := rest } rest
        else
          match iter.pending ++ names.map fun name => ⟨name, iter.currentTime, value⟩ with
          | tv :: pending => (some (.ok tv), { iter with parser := rest, pending := pending })
          | [] => TimeValueIter.nextLoop { iter with parser := rest } rest := by
  cases command with
  | timestamp _ => cases hchange
  | other _ => cases hchange
  | changeScalar | changeVector | changeReal | changeString =>
    rw [TimeValueIter.nextLoop]
    · exact hchange ▸ rfl
    · intro time htime
      cases htime

/-- **The legacy loop** answers the first item to come: by induction on what
the parser still delivers. -/
theorem legacy_nextLoop (rest : List ParseResult) (iter : TimeValueIter)
    (h : LegacyReady names window iter) (hpending : iter.pending = [])
    (hrun : iter.finished = false) :
    (iter.nextLoop rest).1 = (legacyItems names window iter.currentTime rest).head? ∧
      LegacyAhead names window ((legacyItems names window iter.currentTime rest).drop 1)
        (iter.nextLoop rest).2 := by
  induction rest generalizing iter with
  | nil =>
    refine ⟨rfl, ⟨h.names, h.filled, fun hfalse => (by cases hfalse), h.window⟩, ?_⟩
    simp [TimeValueIter.nextLoop, TimeValueIter.finish, hpending, legacyItems, scanned, timed]
  | cons result rest ih =>
    have hready : LegacyReady names window { iter with parser := rest } :=
      ⟨h.names, h.filled, h.early, h.window⟩
    cases result with
    | error error =>
      rw [legacyItems_cons rfl]
      refine ⟨rfl, hready, ?_⟩
      simp [TimeValueIter.nextLoop, expand, hpending, hrun, timeAfter]
    | ok command =>
      cases hchange : commandToChangeValue command with
      | none =>
        have hrows : expand names window (iter.currentTime, .ok command) = [] := by
          simp [expand, rowsAt, hchange]
        by_cases hlate : isLate window (.ok command) = true
        · have hnone : legacyItems names window iter.currentTime (.ok command :: rest) = [] := by
            rw [legacyItems, scanned_cons, if_pos hlate]
            rfl
          rw [hnone]
          have hloop : iter.nextLoop (.ok command :: rest) =
              TimeValueIter.finish { iter with
                parser := rest, currentTime := timeAfter iter.currentTime (.ok command) } := by
            cases command with
            | timestamp time =>
              rw [← h.window] at hlate
              rw [TimeValueIter.nextLoop]
              simp only
              exact if_pos hlate
            | _ => cases hlate
          rw [hloop]
          refine ⟨rfl, ⟨h.names, h.filled, fun hfalse => (by cases hfalse), h.window⟩, ?_⟩
          simp [TimeValueIter.finish, hpending]
        · have hearly : isLate window
              (.ok (.timestamp (timeAfter iter.currentTime (.ok command)))) = false := by
            cases command with
            | timestamp time => simpa [timeAfter] using hlate
            | _ => exact h.early hrun
          have hloop : iter.nextLoop (.ok command :: rest) =
              TimeValueIter.nextLoop { iter with
                parser := rest, currentTime := timeAfter iter.currentTime (.ok command) } rest := by
            cases command with
            | timestamp time =>
              rw [← h.window] at hlate
              rw [TimeValueIter.nextLoop]
              simp only
              exact if_neg hlate
            | other text => rfl
            | _ => cases hchange
          rw [hloop, legacyItems_cons (by simpa using hlate), hrows]
          exact ih _ ⟨h.names, h.filled, fun _ => hearly, h.window⟩ hpending hrun
      | some change =>
        obtain ⟨id, value⟩ := change
        obtain ⟨hnot, hsame⟩ := isLate_of_change window hchange
        rw [legacyItems_cons hnot, hsame]
        rw [legacy_changed hchange]
        have hget := h.filled.get_eq id
        rw [h.names id] at hget
        rw [hget]
        by_cases hnames : names id = []
        · have hrows : expand names window (iter.currentTime, .ok command) = [] := by
            simp [expand, rowsAt, hchange, hnames]
          rw [if_pos hnames, hrows]
          exact ih _ hready hpending hrun
        rw [if_neg hnames]
        by_cases hcovers : Covers window iter.currentTime
        · have hin : iter.window.contains iter.currentTime = true := by
            rw [h.window]
            exact (contains_iff _ _).mpr hcovers
          obtain ⟨name, more, hmore⟩ := List.exists_cons_of_ne_nil hnames
          have hrows : expand names window (iter.currentTime, .ok command) =
              ((names id).map fun name => ⟨name, iter.currentTime, value⟩).map .ok := by
            simp only [expand, rowsAt, hchange, if_pos hcovers]
          simp only [hrows, hmore, hin, hpending, map_legacyItem_ok, List.map_cons,
            List.nil_append, not_true_eq_false, if_false]
          refine ⟨rfl, ⟨h.names, h.filled, h.early, h.window⟩, ?_⟩
          simp [hrun]
        · have hout : iter.window.contains iter.currentTime = false := by
            rw [h.window, Bool.eq_false_iff]
            exact fun hin => hcovers ((contains_iff _ _).mp hin)
          have hearly : iter.window.end_.any (fun end_ => iter.currentTime > end_) = false := by
            rw [h.window]
            exact h.early hrun
          have hrows : expand names window (iter.currentTime, .ok command) = [] := by
            simp [expand, rowsAt, hchange, hcovers]
          simp only [hout, hearly, hrows]
          exact ih _ hready hpending hrun

/-- **Every call of the legacy iterator** answers the first item to come. -/
theorem legacy_next (todo : List (Except VcdError TimeValue)) (iter : TimeValueIter)
    (h : LegacyAhead names window todo iter) :
    iter.next.1 = todo.head? ∧ LegacyAhead names window (todo.drop 1) iter.next.2 := by
  obtain ⟨hready, rfl⟩ := h
  unfold TimeValueIter.next
  cases hpending : iter.pending with
  | cons tv pending =>
    exact ⟨rfl, ⟨hready.names, hready.filled, hready.early, hready.window⟩, rfl⟩
  | nil =>
    simp only [List.map_nil, List.nil_append]
    by_cases hfinished : iter.finished = true
    · rw [if_pos hfinished, if_pos hfinished]
      refine ⟨rfl, hready, ?_⟩
      simp [hpending, hfinished]
    · rw [if_neg hfinished, if_neg hfinished]
      exact legacy_nextLoop iter.parser iter hready hpending (by simpa using hfinished)

/-- The legacy iterator on a map of the requested names yields the expansion of
all parse results before the first late timestamp. -/
theorem legacy_yields {mapping : Groups IdCode String} (hfilled : mapping.Filled)
    (hnames : ∀ id, mapping.getD id = names id) (commands : List ParseResult) :
    Yields TimeValueIter.next (.new commands mapping window)
      (legacyItems names window 0 commands) := by
  have hstep : ∀ (done todo : List (Except VcdError TimeValue)) (iter : TimeValueIter),
      LegacyAhead names window todo iter →
      iter.next.1 = todo.head? ∧ LegacyAhead names window (todo.drop 1) iter.next.2 :=
    fun _ todo iter h => legacy_next todo iter h
  have hearly : isLate window (.ok (.timestamp 0)) = false := by
    obtain ⟨start, end_⟩ := window
    cases end_ <;> simp [isLate]
  exact yields_of_simulation hstep ⟨⟨hnames, hfilled, fun _ => hearly, rfl⟩, rfl⟩

/-! ## One reference for both -/

/-- Cutting the parse results at their first error cuts the items there. -/
theorem untilError_legacyItems (time : Nat) (commands : List ParseResult) :
    untilError (((timed time commands).flatMap (expand names window)).map legacyItem) =
      ((timed time (untilError commands)).flatMap (expand names window)).map legacyItem := by
  induction commands generalizing time with
  | nil => rfl
  | cons result rest ih =>
    cases result with
    | error error => rfl
    | ok command =>
      rw [untilError_ok, timed, timed, List.flatMap_cons, List.flatMap_cons, List.map_append,
        List.map_append, expand, map_legacyItem_ok, untilError_map_ok, ih]

/-- **Extraction equals its reference and the legacy iterator.** On names that
all exist and a source that does not change, an unlimited extraction starts and
yields the reference; the target map of the same names is complete, and the
legacy iterator over it yields the same up to the first parse error. -/
theorem extract_reference (opened : OpenedVcd) (targets : List String) (window : TimeWindow)
    (context : QueryContext) (commands : List ParseResult) (hcontext : context.Unlimited)
    (hsource : opened.Unchanged commands)
    (hfound : ∀ name ∈ targets, (opened.signal name).isSome) :
    (∃ iter, opened.extract targets window context = .ok iter ∧
      Yields OpenedTimeValueIter.next iter
        ((reference (opened.catalog.requested targets) window commands).map queryItem)) ∧
    ∃ signals index mapping items,
      opened.catalog.toCompatibilityParts = .ok (signals, index) ∧
      buildTargetMap index targets = (mapping, []) ∧
      Yields TimeValueIter.next (.new commands mapping window) items ∧
      untilError items =
        (reference (opened.catalog.requested targets) window commands).map legacyItem := by
  constructor
  · obtain ⟨iter, hiter⟩ := extract_starts hcontext.live
      (QueryContext.checkSignalCount_none hcontext.live (by rw [hcontext.limits]) _) hsource hfound
      window
    have hyields := (extract_yields hcontext.live hsource hiter).1
    rw [hcontext.limits, answers_unlimited, work_items] at hyields
    exact ⟨iter, hiter, hyields⟩
  · obtain ⟨signals, index, hparts, hindex⟩ := opened.catalog.toCompatibilityParts_ok
    have hfound' : ∀ name ∈ targets, (opened.catalog.find name).isSome := by
      intro name hname
      rw [← opened.signal_eq]
      exact hfound name hname
    obtain ⟨mapping, hmapping, hfilled, hnames⟩ := buildTargetMap_spec hindex hfound'
    exact ⟨signals, index, mapping, _, hparts, hmapping, legacy_yields hfilled hnames commands,
      untilError_legacyItems 0 _⟩

/-! ## Two aliases of one identifier -/

/-- A waveform with the signals `a` and `b` on one identifier. -/
def aliasedVcd (commands : List ParseResult) : OpenedVcd where
  catalog :=
    { signals := [⟨⟨33⟩, "a", 1, .wire, none⟩, ⟨⟨33⟩, "b", 1, .wire, none⟩]
      byName := [("a", ⟨0⟩), ("b", ⟨1⟩)]
      aliasesById := [(⟨33⟩, [⟨0⟩, ⟨1⟩])]
      scopes := []
      indexed := ⟨rfl, by decide⟩ }
  bodyParser := .ok commands
  validateComplete := .ok ()

/-- A change, a late timestamp, and a parse error that no run reaches. -/
def aliasedBody : List ParseResult :=
  [.ok (.timestamp 5), .ok (.changeScalar ⟨33⟩ .v1), .ok (.timestamp 9),
    .error ⟨.invalidData, "unexpected token", false⟩]

theorem extract_reference_aliased :
    (∃ iter, (aliasedVcd aliasedBody).extract ["b", "a", "b"] ⟨none, some 8⟩ {} = .ok iter ∧
      Yields OpenedTimeValueIter.next iter
        [.ok ⟨"b", 5, .text "1"⟩, .ok ⟨"a", 5, .text "1"⟩, .ok ⟨"b", 5, .text "1"⟩]) ∧
    ∃ signals index mapping items,
      (aliasedVcd aliasedBody).catalog.toCompatibilityParts = .ok (signals, index) ∧
      buildTargetMap index ["b", "a", "b"] = (mapping, []) ∧
      Yields TimeValueIter.next (.new aliasedBody mapping ⟨none, some 8⟩) items ∧
      untilError items =
        [.ok ⟨"b", 5, .text "1"⟩, .ok ⟨"a", 5, .text "1"⟩, .ok ⟨"b", 5, .text "1"⟩] :=
  extract_reference (aliasedVcd aliasedBody) ["b", "a", "b"] ⟨none, some 8⟩ {} aliasedBody
    ⟨⟨rfl, rfl⟩, rfl⟩ ⟨rfl, rfl⟩ (by decide)

end VcdTools.Query
