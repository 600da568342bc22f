import VcdTools.Query.ExtractLimits
import VcdTools.Query.FindOccurrence
import VcdTools.Query.Toggles

/-! # Limits on a scan

A search and a count deliver no rows, but they run an extraction, and its
limits count what they pass over. A scan under limits comes to what it comes to
without them, if all the work up to where its visitor leaves is affordable; it
fails otherwise. -/
namespace VcdTools.Query
open VcdTools.Lib VcdTools.Lib.Iter

/-! ## The work of a visitor -/

section
variable {τ : Type}

/-- The work up to where a visitor leaves it or fails. -/
def worked (visitor : τ → TimeValue → Except QueryError (Bool × τ)) : τ → List Work → List Work
  | _, [] => []
  | visited, .command :: ws => .command :: worked visitor visited ws
  | _, .failure error :: _ => [.failure error]
  | visited, .row row :: ws =>
    .row row :: match visitor visited row with
      | .ok (true, visited) => worked visitor visited ws
      | _ => []

variable {visitor : τ → TimeValue → Except QueryError (Bool × τ)}

/-- **A visit of what a budget leaves** fails when it does not cover the work
up to where the visitor leaves, and is the visit of all the items otherwise. -/
theorem visit_answers (limits : QueryLimits) (visited : τ) (used : Usage) (ws : List Work) :
    visit visitor visited (answers limits used ws) =
      ((worked visitor visited ws).foldlM (charge limits) used).bind fun _ =>
        visit visitor visited (ws.filterMap Work.item) := by
  induction ws generalizing visited used with
  | nil => rfl
  | cons w ws ih =>
    cases hcharge : charge limits used w with
    | error error =>
      rw [answers_cons_error hcharge, visit_error]
      cases w with
      | failure _ => cases hcharge
      | command | row _ =>
        rw [worked, List.foldlM_cons, hcharge]
        rfl
    | ok used' =>
      rw [answers_cons_ok hcharge, List.filterMap_cons]
      cases w with
      | command =>
        rw [worked, List.foldlM_cons, hcharge]
        exact ih visited used'
      | failure error => rfl
      | row row =>
        change visit visitor visited (.ok row :: answers limits used' ws) = _
        rw [worked, List.foldlM_cons, hcharge]
        change _ = Except.bind (List.foldlM (charge limits) used' _) fun _ =>
          visit visitor visited (.ok row :: ws.filterMap Work.item)
        cases hrow : visitor visited row with
        | error error =>
          rw [visit_fail hrow, visit_fail hrow]
          rfl
        | ok step =>
          obtain ⟨_ | _, visited'⟩ := step
          · rw [visit_leave hrow, visit_leave hrow]
            rfl
          · rw [visit_more hrow, visit_more hrow]
            exact ih visited' used'

/-- A visitor that goes on to the end sees all the work. -/
theorem worked_through {visited visited' : τ} {ws : List Work}
    (h : visit visitor visited (ws.filterMap Work.item) = .ok (true, visited')) :
    worked visitor visited ws = ws := by
  induction ws generalizing visited with
  | nil => rfl
  | cons w ws ih =>
    cases w with
    | command => exact congrArg (Work.command :: ·) (ih h)
    | failure error => cases h
    | row row =>
      change visit visitor visited (.ok row :: ws.filterMap Work.item) = _ at h
      cases hrow : visitor visited row with
      | error error =>
        rw [visit_fail hrow] at h
        cases h
      | ok step =>
        obtain ⟨_ | _, visited₁⟩ := step
        · rw [visit_leave hrow] at h
          cases h
        · rw [visit_more hrow] at h
          rw [worked, hrow]
          exact congrArg (Work.row row :: ·) (ih h)

end

/-- Work is affordable as a whole when its cost is within the limits. -/
theorem foldlM_cost (limits : QueryLimits) (ws : List Work) :
    (Within limits (cost ws) ∧ ∃ used, ws.foldlM (charge limits) {} = .ok used) ∨
      (¬ Within limits (cost ws) ∧ ∃ error, ws.foldlM (charge limits) {} = .error error) := by
  have hempty : Within limits {} :=
    ⟨fun _ _ => Nat.zero_le _, fun _ _ => Nat.zero_le _, fun _ _ => Nat.zero_le _⟩
  rcases foldlM_charge hempty ws with ⟨hok, hwithin⟩ | ⟨hnot, hover⟩
  · exact .inl ⟨hwithin, _, hok⟩
  · refine .inr ⟨hover, ?_⟩
    cases hfold : ws.foldlM (charge limits) {} with
    | ok used => exact absurd hfold (hnot used)
    | error error => exact ⟨error, rfl⟩

/-! ## Scans of an opened VCD -/

variable {opened : OpenedVcd} {commands : List ParseResult} {targets : List String}
  {window : TimeWindow} {context : QueryContext} {iter : OpenedTimeValueIter} {std : StdText}

/-- The limits allow so many signals and this work. -/
structure Allows (limits : QueryLimits) (signals : Nat) (ws : List Work) : Prop where
  signals : ∀ limit ∈ limits.maxSignals, signals ≤ limit
  work : Within limits (cost ws)

theorem checkSignalCount_cases (hlive : context.Live) (n : Nat) :
    ((∀ limit ∈ context.limits.maxSignals, n ≤ limit) ∧ context.checkSignalCount n = .ok ()) ∨
      (¬ (∀ limit ∈ context.limits.maxSignals, n ≤ limit) ∧
        ∃ error, context.checkSignalCount n = .error error) := by
  simp only [QueryContext.checkSignalCount, QueryContext.check_live hlive, bind, Except.bind]
  cases context.limits.maxSignals with
  | none => exact .inl ⟨fun _ h => (by cases h), rfl⟩
  | some limit =>
    by_cases h : n > limit
    · refine .inr ⟨fun hall => ?_, _, if_pos h⟩
      have := hall limit rfl
      omega
    · refine .inl ⟨fun l hl => ?_, if_neg h⟩
      cases hl
      omega

/-- An extraction that starts has found its names. -/
theorem extract_names (h : opened.extract targets window context = .ok iter) :
    ∀ name ∈ targets, (opened.signal name).isSome := by
  obtain ⟨hlive, selection, -, hselection, -, -⟩ := extract_ok_iff.mp h
  exact (resolve_ok hlive hselection).found

/-- An extraction that nothing but the number of its signals can refuse. -/
theorem delivers_answers (hlive : context.Live) (hsource : opened.Unchanged commands)
    (hfound : ∀ name ∈ targets, (opened.signal name).isSome)
    (hcount : context.checkSignalCount targets.length = .ok ()) (window : TimeWindow) :
    opened.Delivers targets window context (answers context.limits {}
      (extractWork (opened.catalog.requested targets) window 0 commands)) := by
  obtain ⟨iter, hiter⟩ := extract_starts hlive hcount hsource hfound window
  unfold OpenedVcd.Delivers
  rw [hiter]
  exact (extract_yields hlive hsource hiter).1

/-- An extraction of too many signals. -/
theorem delivers_refused {error : QueryError} (hlive : context.Live)
    (hcount : context.checkSignalCount targets.length = .error error) :
    opened.Delivers targets window context [.error error] := by
  unfold OpenedVcd.Delivers
  simp only [OpenedVcd.extract, OpenedVcd.selectedChangeStream, TargetSelection.resolve,
    QueryContext.check_live hlive, hcount, bind, Except.bind]

/-- The work of a search: up to the row that it asks for. -/
def findWork (std : StdText) (targetValue : TargetValue) (occurrence : Nat) (ws : List Work) :
    List Work :=
  worked (nthOccurrence std (targetValue.normalize std) occurrence) {} ws

/-- How a scan under limits ends that comes to `answer` without them. -/
def EndsBy (allowed : Prop) {α : Type} (answer : α) (result : Except QueryError α) : Prop :=
  (allowed ∧ result = .ok answer) ∨ (¬ allowed ∧ ∃ error, result = .error error)

theorem EndsBy.congr {α : Type} {allowed allowed' : Prop} {answer : α}
    {result : Except QueryError α} (h : EndsBy allowed answer result)
    (hiff : allowed' ↔ allowed) : EndsBy allowed' answer result := by
  rw [EndsBy, hiff]
  exact h

theorem EndsBy.unwound {α : Type} {allowed : Prop} {answer : α}
    {result : Except QueryError (Option α)} (h : EndsBy allowed (some answer) result) :
    ∃ ended, unwound result = some ended ∧ EndsBy allowed answer ended := by
  rcases h with ⟨hallowed, rfl⟩ | ⟨hrefused, error, rfl⟩
  · exact ⟨_, rfl, .inl ⟨hallowed, rfl⟩⟩
  · exact ⟨_, rfl, .inr ⟨hrefused, error, rfl⟩⟩

/-- A visit under limits ends like the visit without them, or in an error. -/
theorem visit_endsBy {τ α : Type} {visitor : τ → TimeValue → Except QueryError (Bool × τ)}
    {visited : τ} {ws : List Work} {finish : Except QueryError (Bool × τ) → Except QueryError α}
    {answer : α} (limits : QueryLimits) (hfinish : ∀ error, finish (.error error) = .error error)
    (hanswer : finish (visit visitor visited (answers {} {} ws)) = .ok answer) :
    EndsBy (Within limits (cost (worked visitor visited ws))) answer
      (finish (visit visitor visited (answers limits {} ws))) := by
  rw [answers_unlimited] at hanswer
  rw [visit_answers]
  rcases foldlM_cost limits (worked visitor visited ws) with ⟨hwithin, used, hok⟩ |
    ⟨hover, error, herror⟩
  · rw [hok]
    exact .inl ⟨hwithin, hanswer⟩
  · rw [herror]
    exact .inr ⟨hover, error, hfinish error⟩

/-- **A search under limits** comes to what it comes to without them, if they
allow all the work up to the row it asks for. -/
theorem findNthOccurrence_limits {signal : String} {targetValue : TargetValue} {occurrence : Nat}
    {answer : Option TimeValue × Nat} (hlive : context.Live) (hsource : opened.Unchanged commands)
    (h : opened.findNthOccurrence std signal targetValue occurrence window {} = .ok answer) :
    EndsBy (Allows context.limits 1 (findWork std targetValue occurrence
        (extractWork (opened.catalog.requested [signal]) window 0 commands))) answer
      (opened.findNthOccurrence std signal targetValue occurrence window context) := by
  have hfree : QueryContext.Live {} := ⟨rfl, rfl⟩
  have hoccurrence : 1 ≤ occurrence := by
    by_contra hzero
    rw [OpenedVcd.findNthOccurrence, if_pos (by omega)] at h
    cases h
  obtain ⟨found, hfound⟩ : ∃ found, opened.signal signal = some found := by
    cases hsignal : opened.signal signal with
    | some found => exact ⟨found, rfl⟩
    | none =>
      rw [OpenedVcd.findNthOccurrence, if_neg (by omega), hsignal] at h
      cases h
  have hnames : ∀ name ∈ [signal], (opened.signal name).isSome := by
    simp [hfound]
  have hrecheck : ∀ {context : QueryContext}, context.Live → opened.recheck context = .ok () := by
    intro context hlive
    rw [OpenedVcd.recheck, QueryContext.check_live hlive, hsource.complete]
    rfl
  rw [findNthOccurrence_eq hfound hoccurrence (delivers_answers hfree hsource hnames rfl window),
    hrecheck hfree] at h
  rcases checkSignalCount_cases hlive 1 with ⟨hsignals, hcount⟩ | ⟨hmany, error, herror⟩
  · rw [findNthOccurrence_eq hfound hoccurrence
      (delivers_answers hlive hsource hnames hcount window), hrecheck hlive]
    exact (visit_endsBy context.limits (fun _ => rfl) h).congr
      ⟨fun hallows => hallows.work, fun hwork => ⟨hsignals, hwork⟩⟩
  · rw [findNthOccurrence_eq hfound hoccurrence (delivers_refused hlive herror)]
    exact .inr ⟨fun hallows => hmany hallows.signals, error, rfl⟩

/-- **A count under limits** comes to what it comes to without them, if they
allow the whole work. -/
theorem countToggles_limits {answer : NameMap Nat} (hlive : context.Live)
    (hsource : opened.Unchanged commands)
    (h : opened.countToggles std targets window {} = some (.ok answer)) :
    ∃ result, opened.countToggles std targets window context = some result ∧
      EndsBy (Allows context.limits targets.length
        (extractWork (opened.catalog.requested targets) window 0 commands)) answer result := by
  have hfree : QueryContext.Live {} := ⟨rfl, rfl⟩
  have hnames : ∀ name ∈ targets, (opened.signal name).isSome := by
    cases hextract : opened.extract targets window {} with
    | ok iter => exact extract_names hextract
    | error error =>
      rw [OpenedVcd.countToggles, hextract] at h
      cases h
  rw [countToggles_eq rfl (delivers_answers hfree hsource hnames rfl window),
    unwound_eq_ok_iff] at h
  rcases checkSignalCount_cases hlive targets.length with ⟨hsignals, hcount⟩ |
    ⟨hmany, error, herror⟩
  · rw [countToggles_eq hcount (delivers_answers hlive hsource hnames hcount window)]
    -- the count without limits has gone through all the work
    obtain ⟨⟨more, state⟩, hvisit, hstate⟩ := Fallible.map_ok_iff.mp h
    obtain ⟨state, rfl, -⟩ := Option.map_eq_some_iff.mp hstate
    obtain ⟨rfl, -⟩ := visit_unwinding_iff.mp hvisit
    rw [QueryContext.limits, answers_unlimited] at hvisit
    have hends := visit_endsBy context.limits (fun _ => rfl) h
    rw [worked_through hvisit] at hends
    exact (hends.congr ⟨fun hallows => hallows.work, fun hwork => ⟨hsignals, hwork⟩⟩).unwound
  · rw [OpenedVcd.countToggles, herror]
    exact ⟨_, rfl, .inr ⟨fun hallows => hmany hallows.signals, error, rfl⟩⟩

end VcdTools.Query
