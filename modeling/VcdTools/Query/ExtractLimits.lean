import VcdTools.Query.ExtractReference

/-! # Limits cut an extraction to a prefix

What a budget leaves of the work of a run, told without the run: the rows of
the longest first part of the work whose cost is within the limits, and after
them the limit that the next piece of work crosses. -/
namespace VcdTools.Query
open VcdTools.Lib VcdTools.Lib.Iter

variable {limits : QueryLimits} {names : IdCode → List String} {window : TimeWindow}
  {ws : List Work}

/-! ## A parse error ends the work -/

/-- A parse error is the last piece of the work. -/
def FailsLast : List Work → Prop
  | [] => True
  | w :: ws => (w.failure? ≠ none → ws = []) ∧ FailsLast ws

theorem FailsLast.rows_append (h : FailsLast ws) (rows : List TimeValue) :
    FailsLast (rows.map .row ++ ws) := by
  induction rows with
  | nil => exact h
  | cons row rows ih => exact ⟨fun hne => absurd rfl hne, ih⟩

theorem extractWork_failsLast (time : Nat) (commands : List ParseResult) :
    FailsLast (extractWork names window time commands) := by
  induction commands generalizing time with
  | nil => trivial
  | cons result rest ih =>
    cases result with
    | error error => exact ⟨fun hne => absurd rfl hne, fun _ => rfl, trivial⟩
    | ok command =>
      rw [extractWork]
      refine ⟨fun hne => absurd rfl hne, ?_⟩
      split
      · trivial
      · exact (ih _).rows_append _

/-- The work delivers its rows, then the parse error that ends it. -/
theorem FailsLast.items (h : FailsLast ws) :
    ws.filterMap Work.item =
      (rowsOf ws).map .ok ++ ((failureOf ws).map Except.error).toList := by
  induction ws with
  | nil => rfl
  | cons w ws ih =>
    obtain ⟨hlast, hrest⟩ := h
    cases w with
    | command => exact ih hrest
    | row event => exact congrArg (.ok event :: ·) (ih hrest)
    | failure error =>
      have hnil : ws = [] := hlast (by simp [Work.failure?])
      subst hnil
      rfl

/-- A first part of the work that is not all of it delivers rows only. -/
theorem FailsLast.prefix_items (h : FailsLast ws) {ps : List Work} {w : Work}
    (hpre : ps ++ [w] <+: ws) : ps.filterMap Work.item = (rowsOf ps).map .ok := by
  induction ps generalizing ws with
  | nil => rfl
  | cons p ps ih =>
    cases ws with
    | nil => simp at hpre
    | cons w' ws =>
      obtain ⟨rfl, hrestpre⟩ := List.cons_prefix_cons.mp hpre
      obtain ⟨hlast, hrest⟩ := h
      cases p with
      | command => exact ih hrest hrestpre
      | row event => exact congrArg (.ok event :: ·) (ih hrest hrestpre)
      | failure error =>
        have hnil : ws = [] := hlast (by simp [Work.failure?])
        subst hnil
        simp at hpre

/-! ## What a budget leaves -/

theorem within_nothing (limits : QueryLimits) : Within limits {} :=
  ⟨fun _ _ => Nat.zero_le _, fun _ _ => Nat.zero_le _, fun _ _ => Nat.zero_le _⟩

/-- Some work is accepted from the start exactly when its cost is within the
limits. -/
theorem accepted_iff (ws : List Work) :
    (∃ used, ws.foldlM (charge limits) {} = .ok used) ↔ Within limits (cost ws) := by
  rcases foldlM_charge (within_nothing limits) ws with ⟨hok, hin⟩ | ⟨hnot, hout⟩
  · exact ⟨fun _ => hin, fun _ => ⟨_, hok⟩⟩
  · exact ⟨fun ⟨u, hu⟩ => absurd hu (hnot u), fun hin => absurd hin hout⟩

theorem accepted_cost {used : Usage} (h : ws.foldlM (charge limits) {} = .ok used) :
    used = (cost ws).counters ∧ Within limits (cost ws) := by
  rcases foldlM_charge (within_nothing limits) ws with ⟨hok, hin⟩ | ⟨hnot, -⟩
  · have heq := hok.symm.trans h
    cases heq
    exact ⟨rfl, hin⟩
  · exact absurd h (hnot used)

/-- The first part of the work that is done. -/
def spent (limits : QueryLimits) (ws : List Work) : List Work :=
  (Metered.afford (charge limits) {} ws).1

theorem rowsOf_prefix {ps qs : List Work} (h : ps <+: qs) : rowsOf ps <+: rowsOf qs := by
  obtain ⟨rest, rfl⟩ := h
  exact ⟨rowsOf rest, (rowsOf_append ps rest).symm⟩

/-- **The rows of what is done are the longest that fit.** -/
theorem spent_longest (limits : QueryLimits) (ws : List Work) :
    LongestAffordable limits ws (rowsOf (spent limits ws)) := by
  obtain ⟨used, hused⟩ := Metered.afford_accepted (charge limits) {} ws
  refine ⟨⟨spent limits ws, Metered.afford_prefix _ _ _, rfl, (accepted_cost hused).2⟩, ?_⟩
  rintro rows ⟨ps, hpre, rfl, hin⟩
  obtain ⟨used', hused'⟩ := (accepted_iff ps).mpr hin
  exact rowsOf_prefix (Metered.afford_longest hpre hused')

/-- What stops a run: nothing when all of its work is within the limits, and
else the limit that the first piece beyond them crosses. -/
theorem answers_spent (limits : QueryLimits) (h : FailsLast ws) :
    (Within limits (cost ws) → answers limits {} ws =
      (rowsOf ws).map .ok ++ ((failureOf ws).map Except.error).toList ∧
        rowsOf (spent limits ws) = rowsOf ws) ∧
    (¬ Within limits (cost ws) → ∃ e w, spent limits ws ++ [w] <+: ws ∧
      Within limits (cost (spent limits ws)) ∧
      Crosses limits (cost (spent limits ws)) (cost (spent limits ws ++ [w])) e ∧
      answers limits {} ws = (rowsOf (spent limits ws)).map .ok ++ [.error e]) := by
  constructor
  · intro hin
    obtain ⟨used, hused⟩ := (accepted_iff ws).mpr hin
    have hall : (Metered.afford (charge limits) {} ws).1 = ws :=
      (Metered.afford_prefix _ _ _).eq_of_length_le
        (Metered.afford_longest (List.prefix_refl ws) hused).length_le
    have hnone := Metered.afford_none_iff.mpr hall
    rw [answers, spent, hall, hnone, h.items]
    exact ⟨by simp, rfl⟩
  · intro hout
    cases hrefused : (Metered.afford (charge limits) {} ws).2 with
    | none =>
      have hall := Metered.afford_none_iff.mp hrefused
      obtain ⟨used, hused⟩ := Metered.afford_accepted (charge limits) {} ws
      rw [hall] at hused
      exact absurd (accepted_cost hused).2 hout
    | some e =>
      obtain ⟨w, used, hpre, hused, herr⟩ := Metered.afford_refused hrefused
      obtain ⟨rfl, hin⟩ := accepted_cost hused
      refine ⟨e, w, hpre, hin, ?_, ?_⟩
      · rw [spent, cost_concat]
        rcases charge_spec hin w with ⟨hok, -⟩ | ⟨e', herr', hcross⟩
        · rw [hok] at herr
          cases herr
        · rw [herr'] at herr
          cases herr
          exact hcross
      · rw [answers, hrefused, h.prefix_items hpre]
        rfl

/-! ## Limited extractions -/

theorem delivered_rows (rows : List TimeValue) : delivered (rows.map Except.ok) = rows := by
  induction rows with
  | nil => rfl
  | cons row rows ih => exact congrArg (row :: ·) ih

/-- The first rows among some answers are the answers to the first calls. -/
theorem delivered_take (rows : List TimeValue) (stop : Option QueryError) (n : Nat) :
    delivered ((rows.map Except.ok ++ (stop.map Except.error).toList).take n) = rows.take n := by
  rw [List.take_append, delivered_append, ← List.map_take]
  rw [delivered_rows, List.length_map]
  cases stop with
  | none => simp [delivered]
  | some error =>
    cases hn : n - rows.length with
    | zero => simp [delivered]
    | succ m => simp [delivered, Except.toOption]

/-- **Limits give an exact prefix.** While nobody cancels and the source does
not change, the unlimited extraction yields all rows of its work and the parse
error that ends it; a limited one yields the longest rows whose work is within
the limits. When all of the work is, it ends as the unlimited one does; when it
is not, one error follows, which names the first limit crossed and the counter
that crosses it. Every call past the end answers nothing, and the counters of
the iterator count the delivered rows. -/
theorem limited_extract (opened : OpenedVcd) (targets : List String) (window : TimeWindow)
    (context : QueryContext) (commands : List ParseResult) (hlive : context.Live)
    (hsource : opened.Unchanged commands) (iter iter₀ : OpenedTimeValueIter)
    (hiter : opened.extract targets window context = .ok iter)
    (hiter₀ : opened.extract targets window { context with limits := {} } = .ok iter₀) :
    let all := extractWork (opened.catalog.requested targets) window 0 commands
    Yields OpenedTimeValueIter.next iter₀
      ((rowsOf all).map .ok ++ ((failureOf all).map Except.error).toList) ∧
    ∃ (rows : List TimeValue) (stop : Option QueryError),
      Yields OpenedTimeValueIter.next iter (rows.map .ok ++ (stop.map Except.error).toList) ∧
      LongestAffordable context.limits all rows ∧
      (Within context.limits (cost all) → rows = rowsOf all ∧ stop = failureOf all) ∧
      (¬ Within context.limits (cost all) → ∃ e ps w, stop = some e ∧ ps ++ [w] <+: all ∧
        rowsOf ps = rows ∧ Within context.limits (cost ps) ∧
        Crosses context.limits (cost ps) (cost (ps ++ [w])) e) ∧
      ∀ n, (after OpenedTimeValueIter.next n iter).rowsEmitted = counter (rows.take n).length ∧
        (after OpenedTimeValueIter.next n iter).logicalBytesEmitted =
          counter (bytesOf (rows.take n)) := by
  intro all
  have hfails : FailsLast all := extractWork_failsLast 0 commands
  obtain ⟨hyields, hcounted⟩ := extract_yields hlive hsource hiter
  have hlive₀ : QueryContext.Live { context with limits := {} } := hlive
  have hyields₀ := (extract_yields hlive₀ hsource hiter₀).1
  rw [answers_unlimited, hfails.items] at hyields₀
  refine ⟨hyields₀, ?_⟩
  obtain ⟨hwithin, hcrossed⟩ := answers_spent context.limits hfails
  have hlongest := spent_longest context.limits all
  by_cases hin : Within context.limits (cost all)
  · obtain ⟨hanswers, hrows⟩ := hwithin hin
    rw [hanswers] at hyields hcounted
    rw [hrows] at hlongest
    refine ⟨rowsOf all, failureOf all, hyields, hlongest, fun _ => ⟨rfl, rfl⟩,
      fun hout => absurd hin hout, fun n => ?_⟩
    have hn := hcounted n
    exact ⟨hn.rows.trans (by rw [delivered_take]), hn.bytes.trans (by rw [delivered_take])⟩
  · obtain ⟨e, w, hpre, hspent, hcross, hanswers⟩ := hcrossed hin
    have hanswers' : answers context.limits {} all =
        (rowsOf (spent context.limits all)).map .ok ++ ((some e).map Except.error).toList :=
      hanswers
    rw [hanswers'] at hyields hcounted
    refine ⟨rowsOf (spent context.limits all), some e, hyields, hlongest,
      fun h => absurd h hin, fun _ => ⟨e, spent context.limits all, w, rfl, hpre, rfl, hspent,
        hcross⟩, fun n => ?_⟩
    have hn := hcounted n
    exact ⟨hn.rows.trans (by rw [delivered_take]), hn.bytes.trans (by rw [delivered_take])⟩

/-- Two rows are let through, and the command limit is never reached. -/
theorem limited_extract_two_rows : ∃ iter iter₀,
    (aliasedVcd aliasedBody).extract ["b", "a", "b"] ⟨none, some 8⟩
      { limits := { maxRows := some 2, maxCommands := some 3 } } = .ok iter ∧
    (aliasedVcd aliasedBody).extract ["b", "a", "b"] ⟨none, some 8⟩ {} = .ok iter₀ ∧
    ∃ (rows : List TimeValue) (stop : Option QueryError),
      Yields OpenedTimeValueIter.next iter (rows.map .ok ++ (stop.map Except.error).toList) ∧
      LongestAffordable { maxRows := some 2, maxCommands := some 3 }
        [.command, .command, .row ⟨"b", 5, .text "1"⟩, .row ⟨"a", 5, .text "1"⟩,
          .row ⟨"b", 5, .text "1"⟩, .command] rows := by
  refine ⟨_, _, rfl, rfl, ?_⟩
  obtain ⟨-, rows, stop, hyields, hlongest, -⟩ := limited_extract (aliasedVcd aliasedBody)
    ["b", "a", "b"] ⟨none, some 8⟩ { limits := { maxRows := some 2, maxCommands := some 3 } }
    aliasedBody ⟨rfl, rfl⟩ ⟨rfl, rfl⟩ _ _ rfl rfl
  exact ⟨rows, stop, hyields, hlongest⟩

/-! ## A limit of `u64::MAX` -/

/-- So many changes of one identifier. -/
def manyChanges (n : Nat) : List ParseResult :=
  List.replicate n (.ok (.changeScalar ⟨33⟩ .v1))

theorem extractWork_manyChanges (names : IdCode → List String) (n : Nat) :
    extractWork names ⟨none, none⟩ 0 (manyChanges (n + 1)) =
      .command :: (((names ⟨33⟩).map fun name => (⟨name, 0, .text "1"⟩ : TimeValue)).map .row ++
        extractWork names ⟨none, none⟩ 0 (manyChanges n)) := rfl

theorem rowsOf_manyChanges (names : IdCode → List String) (n : Nat) :
    (rowsOf (extractWork names ⟨none, none⟩ 0 (manyChanges n))).length =
      n * (names ⟨33⟩).length := by
  induction n with
  | zero => simp [manyChanges, extractWork]
  | succ n ih =>
    rw [extractWork_manyChanges, rowsOf, List.filterMap_cons]
    simp only [Work.row?]
    rw [← rowsOf, rowsOf_append, rowsOf_map_row, List.length_append, ih, List.length_map,
      Nat.succ_mul, Nat.add_comm]

theorem failureOf_manyChanges (names : IdCode → List String) (n : Nat) :
    failureOf (extractWork names ⟨none, none⟩ 0 (manyChanges n)) = none := by
  induction n with
  | zero => rfl
  | succ n ih =>
    rw [extractWork_manyChanges, failureOf, List.findSome?_cons]
    simp only [Work.failure?]
    rw [List.findSome?_append, ← failureOf, ← failureOf, ih]
    simp [failureOf, List.findSome?_map, Work.failure?, Function.comp_def]

/-- `m` requests for one name and `n` changes of it, under a row limit of
`u64::MAX`: all rows are delivered. -/
theorem manyRows (m n : Nat) : ∃ (iter : OpenedTimeValueIter) (rows : List TimeValue),
    (aliasedVcd (manyChanges n)).extract (List.replicate m "a") ⟨none, none⟩
      { limits := { maxRows := some u64Max } } = .ok iter ∧
    Yields OpenedTimeValueIter.next iter (rows.map .ok) ∧ rows.length = n * m := by
  have hlive : QueryContext.Live { limits := { maxRows := some u64Max } } := ⟨rfl, rfl⟩
  have hsource : (aliasedVcd (manyChanges n)).Unchanged (manyChanges n) := ⟨rfl, rfl⟩
  have hfound : ∀ name ∈ List.replicate m "a",
      ((aliasedVcd (manyChanges n)).signal name).isSome := by
    intro name hname
    rw [List.eq_of_mem_replicate hname]
    rfl
  obtain ⟨iter, hiter⟩ := extract_starts hlive (QueryContext.checkSignalCount_none hlive rfl _)
    hsource hfound ⟨none, none⟩
  generalize hnames : (aliasedVcd (manyChanges n)).catalog.requested (List.replicate m "a") = names
  have hcount : (names ⟨33⟩).length = m := by
    rw [← hnames, SignalCatalog.requested, List.filter_replicate]
    have hfind : ((aliasedVcd (manyChanges n)).catalog.find "a").map (·.idCode) = some ⟨33⟩ := rfl
    rw [hfind]
    simp
  have hyields := (extract_yields hlive hsource hiter).1
  rw [hnames] at hyields
  have hin : Within { maxRows := some u64Max }
      (cost (extractWork names ⟨none, none⟩ 0 (manyChanges n))) := by
    refine ⟨fun _ h => (by cases h), fun limit h => ?_, fun _ h => (by cases h)⟩
    cases h
    exact Nat.min_le_right _ _
  have hfails : FailsLast (extractWork names ⟨none, none⟩ 0 (manyChanges n)) :=
    extractWork_failsLast 0 (manyChanges n)
  have hall := ((answers_spent { maxRows := some u64Max } hfails).1 hin).1
  rw [failureOf_manyChanges] at hall
  refine ⟨iter, _, hiter, ?_, (rowsOf_manyChanges names n).trans (by rw [hcount])⟩
  have hitems := hyields
  simp only [hall] at hitems
  simpa using hitems

/-- **A row limit of `u64::MAX` is no limit**: the counter stops there. -/
theorem rows_past_u64Max : ∃ (iter : OpenedTimeValueIter) (rows : List TimeValue),
    (aliasedVcd (manyChanges (2 ^ 32))).extract (List.replicate (2 ^ 32) "a") ⟨none, none⟩
      { limits := { maxRows := some u64Max } } = .ok iter ∧
    Yields OpenedTimeValueIter.next iter (rows.map .ok) ∧ u64Max < rows.length := by
  obtain ⟨iter, rows, hiter, hyields, hlength⟩ := manyRows (2 ^ 32) (2 ^ 32)
  refine ⟨iter, rows, hiter, hyields, ?_⟩
  rw [hlength]
  decide

end VcdTools.Query
