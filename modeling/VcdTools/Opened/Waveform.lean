import VcdTools.Opened.FstExtract
import VcdTools.Query.ExtractCollect
import VcdTools.Query.Spellings
import Mathlib.Data.List.Forall2

/-! # One waveform behind two backends

`OpenedWaveform::extract` of `opened/waveform.rs`, and what the two backends
answer when they present the same catalog and the same changes. -/
namespace VcdTools.Opened
open VcdTools.Lib VcdTools.Query

/-- What an FST query reads: the fingerprint function, the reader, and the
files that its three openings of the path find. -/
structure FstEnv (η : Type) where
  hash : List UInt8 → η
  reader : FstReader
  openings : Openings

inductive OpenedWaveform (η : Type)
  | vcd (opened : OpenedVcd)
  | fst (opened : OpenedFst η)

variable {η : Type}

/-- `OpenedWaveform::extract`: `visit_changes` with a visitor that pushes the
rows. -/
def OpenedWaveform.extract [DecidableEq η] (waveform : OpenedWaveform η) (env : FstEnv η)
    (targets : List String) (window : TimeWindow) (context : QueryContext) : Except QueryError (List TimeValue) :=
  match waveform with
  | .vcd opened => opened.extractRows targets window context
  | .fst opened =>
    opened.extractWithContext env.hash env.reader env.openings targets window context

/-! ## An abstract waveform and its presentations -/

/-- A catalog of names, and the changes of their identifiers. -/
structure AbstractWaveform where
  catalog : String → Option IdCode
  changes : List (Nat × IdCode × ChangeValue)

/-- A body whose changes are those of the waveform. -/
structure PresentsVcd (waveform : AbstractWaveform) (opened : OpenedVcd)
    (commands : List ParseResult) : Prop where
  catalog : ∀ name, (opened.signal name).map (·.idCode) = waveform.catalog name
  unchanged : opened.Unchanged commands
  orderly : Orderly commands
  changes : timedChanges 0 commands = waveform.changes

/-- A callback that carries a change, whichever of the handle's types it is
converted with. -/
structure Carries (opened : OpenedFst η) (handleOf : IdCode → Nat)
    (change : Nat × IdCode × ChangeValue) (callback : FstCallback) : Prop where
  time : callback.1 = change.1
  handle : callback.2.1 = handleOf change.2.1
  value : ∀ name signal, opened.signal name = some signal →
    signal.handleIndex = handleOf change.2.1 →
    fstValue callback.2.2 signal.signalType = .ok change.2.2

/-- A file that nobody replaces and whose reader delivers the changes a filter
asks for, in their order; what else it delivers does not matter. -/
structure PresentsFst (waveform : AbstractWaveform) (opened : OpenedFst η) (env : FstEnv η)
    (handleOf : IdCode → Nat) (callbacks : List FstCallback) (file : FstFile) : Prop where
  injective : Function.Injective handleOf
  catalog : ∀ name,
    (opened.signal name).map (·.handleIndex) = (waveform.catalog name).map handleOf
  carries : List.Forall₂ (Carries opened handleOf) waveform.changes callbacks
  endTime : ∀ change ∈ waveform.changes, change.1 ≤ opened.header.endTime
  openings : env.openings = ⟨.ok file, .ok file, .ok file⟩
  identity : opened.identity = FstIdentity.fromFile env.hash file
  opens : env.reader.open_ file = .done
  reads : ∀ filter, (env.reader.readSignals file filter).2 = .done ∧
    (env.reader.readSignals file filter).1.filter filter.Wants = callbacks.filter filter.Wants

variable {waveform : AbstractWaveform} {vcd : OpenedVcd} {commands : List ParseResult}
  {fst : OpenedFst η} {env : FstEnv η} {handleOf : IdCode → Nat} {callbacks : List FstCallback}
  {file : FstFile} {context : QueryContext} {targets : List String} {window : TimeWindow}

/-- The requested names of an identifier. -/
def AbstractWaveform.requested (waveform : AbstractWaveform) (targets : List String)
    (id : IdCode) : List String :=
  targets.filter fun name => waveform.catalog name = some id

theorem PresentsVcd.requested (h : PresentsVcd waveform vcd commands) (targets : List String) :
    vcd.catalog.requested targets = waveform.requested targets := by
  funext id
  refine List.filter_congr fun name _ => decide_eq_decide.mpr ?_
  rw [← h.catalog, vcd.signal_eq]

theorem PresentsFst.requested (h : PresentsFst waveform fst env handleOf callbacks file)
    (targets : List String) (id : IdCode) :
    fst.requested targets (handleOf id) = waveform.requested targets id := by
  refine List.filter_congr fun name _ => decide_eq_decide.mpr ?_
  rw [h.catalog]
  cases waveform.catalog name with
  | none => simp
  | some id' => simp [h.injective.eq_iff]

theorem PresentsVcd.isSome (h : PresentsVcd waveform vcd commands) (name : String) :
    (vcd.signal name).isSome = (waveform.catalog name).isSome := by
  rw [← h.catalog, Option.isSome_map]

theorem PresentsFst.isSome (h : PresentsFst waveform fst env handleOf callbacks file)
    (name : String) : (fst.signal name).isSome = (waveform.catalog name).isSome := by
  have hcatalog := congrArg Option.isSome (h.catalog name)
  rwa [Option.isSome_map, Option.isSome_map] at hcatalog

/-! ## The rows of the FST backend -/

/-- The bounds of a read that is not empty from the start. -/
theorem covers_iff (window : TimeWindow) {endTime time : Nat} (htime : time ≤ endTime) :
    (window.start.getD 0 ≤ time ∧ time ≤ window.end_.getD endTime) ↔ Covers window time := by
  obtain ⟨start, end_⟩ := window
  cases start <;> cases end_ <;> simp [Covers, htime]

/-- **A callback gives the rows of its change**, or neither asks for any. -/
theorem PresentsFst.rows (h : PresentsFst waveform fst env handleOf callbacks file)
    {selection : FstSelection} (hselection : selection.Holds fst targets)
    {change : Nat × IdCode × ChangeValue} (hchange : change ∈ waveform.changes)
    {callback : FstCallback} (hcarries : Carries fst handleOf change callback) :
    (if (selection.filter (window.start.getD 0)
        (window.end_.getD fst.header.endTime)).Wants callback then callbackRows selection callback
      else []) = changeRows (waveform.requested targets) window change ∧
    ((selection.filter (window.start.getD 0)
        (window.end_.getD fst.header.endTime)).Wants callback →
      ∃ value, fstValue callback.2.2
        ((selection.typeByHandle.lookup callback.2.1).getD .digital) = .ok value) := by
  obtain ⟨time, id, value⟩ := change
  have hcovers := covers_iff window (h.endTime _ hchange)
  have hwants : (selection.filter (window.start.getD 0)
      (window.end_.getD fst.header.endTime)).Wants callback ↔
      Covers window time ∧ waveform.requested targets id ≠ [] := by
    rw [← h.requested, ← hselection.handles, ← hcovers]
    simp only [FstFilter.Wants, Option.mem_some_iff, forall_eq', hcarries.time, hcarries.handle,
      and_assoc]
  have hvalue : waveform.requested targets id ≠ [] → fstValue callback.2.2
      ((selection.typeByHandle.lookup callback.2.1).getD .digital) = .ok value := by
    intro hne
    rw [← h.requested, ← hselection.handles] at hne
    obtain ⟨name, signal, -, hsignal, hindex, htype⟩ := hselection.types _ hne
    rw [hcarries.handle, htype]
    exact hcarries.value name signal hsignal hindex
  refine ⟨?_, fun hwant => ⟨value, hvalue (hwants.mp hwant).2⟩⟩
  rw [changeRows]
  by_cases hin : Covers window time
  · rw [if_pos hin]
    by_cases hne : waveform.requested targets id = []
    · rw [if_neg fun hwant => (hwants.mp hwant).2 hne, hne]
      rfl
    · rw [if_pos (hwants.mpr ⟨hin, hne⟩), callbackRows, hvalue hne]
      simp only [hselection.names, hcarries.handle, h.requested, hcarries.time]
  · rw [if_neg hin, if_neg fun hwant => hin (hwants.mp hwant).1]

theorem flatMap_filter {α β : Type*} (p : α → Prop) [DecidablePred p] (f : α → List β)
    (l : List α) : (l.filter p).flatMap f = l.flatMap fun a => if p a then f a else [] := by
  induction l with
  | nil => rfl
  | cons a l ih =>
    rw [List.filter_cons, List.flatMap_cons, ← ih]
    by_cases h : p a <;> simp [h]

/-- The rows of the wanted callbacks are the rows of the changes. -/
theorem PresentsFst.flatMap_rows (h : PresentsFst waveform fst env handleOf callbacks file)
    {selection : FstSelection} (hselection : selection.Holds fst targets) :
    (callbacks.filter (selection.filter (window.start.getD 0)
        (window.end_.getD fst.header.endTime)).Wants).flatMap (callbackRows selection) =
      waveform.changes.flatMap (changeRows (waveform.requested targets) window) := by
  rw [flatMap_filter]
  have hrows : ∀ (changes : List (Nat × IdCode × ChangeValue)) (callbacks : List FstCallback),
      List.Forall₂ (Carries fst handleOf) changes callbacks → changes ⊆ waveform.changes →
      (callbacks.flatMap fun callback => if (selection.filter (window.start.getD 0)
        (window.end_.getD fst.header.endTime)).Wants callback then callbackRows selection callback
        else []) = changes.flatMap (changeRows (waveform.requested targets) window) := by
    intro changes callbacks hforall hsubset
    induction hforall with
    | nil => rfl
    | cons hcarries _ ih =>
      rw [List.flatMap_cons, List.flatMap_cons, ih fun c hc => hsubset (List.mem_cons_of_mem _ hc),
        (h.rows hselection (hsubset List.mem_cons_self) hcarries).1]
  exact hrows _ _ h.carries fun _ hc => hc

/-- Every wanted callback of the reader converts. -/
theorem PresentsFst.converts (h : PresentsFst waveform fst env handleOf callbacks file)
    {selection : FstSelection} (hselection : selection.Holds fst targets) {callback : FstCallback}
    (hcallback : callback ∈ callbacks)
    (hwant : (selection.filter (window.start.getD 0)
      (window.end_.getD fst.header.endTime)).Wants callback) :
    ∃ value, fstValue callback.2.2
      ((selection.typeByHandle.lookup callback.2.1).getD .digital) = .ok value := by
  obtain ⟨i, hi⟩ := List.mem_iff_getElem?.mp hcallback
  have hlt : i < waveform.changes.length := by
    rw [h.carries.length_eq]
    exact (List.getElem?_eq_some_iff.mp hi).1
  have hcarries := h.carries.get hlt (List.getElem?_eq_some_iff.mp hi).1
  rw [List.get_eq_getElem, List.get_eq_getElem, (List.getElem?_eq_some_iff.mp hi).2] at hcarries
  exact (h.rows hselection (List.getElem_mem hlt) hcarries).2 hwant

variable [DecidableEq η]

theorem validateSource_ok (h : PresentsFst waveform fst env handleOf callbacks file) :
    fst.validateSource env.hash (.ok file) = .ok () := by
  rw [OpenedFst.validateSource]
  exact if_pos h.identity

/-- **Extraction from an FST** in a window that is not inverted gives the rows
of the changes. -/
theorem extractWithContext_ok (hcontext : context.Unlimited)
    (h : PresentsFst waveform fst env handleOf callbacks file)
    (hfound : ∀ name ∈ targets, (fst.signal name).isSome) (hwindow : inverted window = false) :
    fst.extractWithContext env.hash env.reader env.openings targets window context =
      .ok (waveform.changes.flatMap (changeRows (waveform.requested targets) window)) := by
  obtain ⟨selection, hselect, hselection⟩ := select_holds hfound
  obtain ⟨hdone, hfilter⟩ := h.reads (selection.filter (window.start.getD 0)
    (window.end_.getD fst.header.endTime))
  cases hread : env.reader.readSignals file (selection.filter (window.start.getD 0)
    (window.end_.getD fst.header.endTime)) with
  | mk delivered ending =>
    rw [hread] at hdone hfilter
    obtain ⟨read', hread', hvisited⟩ := callbacks_unlimited hcontext hselection delivered
      (fun callback hcallback hwant => h.converts hselection (List.mem_filter.mp
        (hfilter ▸ List.mem_filter.mpr ⟨hcallback, by simpa using hwant⟩)).1 hwant)
      ⟨0, 0, 0, []⟩
    rw [hfilter, h.flatMap_rows hselection, List.nil_append] at hvisited
    have hcheck := QueryContext.check_live hcontext.live
    have hcount : context.checkSignalCount targets.length = .ok () :=
      QueryContext.checkSignalCount_none hcontext.live (by rw [hcontext.limits]) _
    have hfile : readFile context pushRow env.reader selection (window.start.getD 0)
        (window.end_.getD fst.header.endTime) file [] = .ok read'.visited := by
      rw [readFile, h.opens]
      simp only [hread, hread']
      rw [show ending = .done from hdone]
      rfl
    simp only [OpenedFst.extractWithContext, OpenedFst.visitChangesUntil, hcheck, hcount, hwindow,
      hselect, h.openings, validateSource_ok h, hfile, bind, Except.bind, Except.mapError, pure,
      Except.pure, hvisited]
    rfl

/-- An inverted window answers before any name is looked at. -/
theorem extractWithContext_inverted (hcontext : context.Unlimited) (hwindow : inverted window = true) :
    fst.extractWithContext env.hash env.reader env.openings targets window context = .ok [] := by
  have hcheck := QueryContext.check_live hcontext.live
  simp only [OpenedFst.extractWithContext, OpenedFst.visitChangesUntil,
    QueryContext.checkSignalCount, hcheck, hcontext.limits, hwindow, if_true, bind, Except.bind,
    pure, Except.pure]

/-- The first target that is missing is the one that is reported. -/
theorem extractWithContext_find (hcontext : context.Unlimited) {missing : String}
    (h : targets.find? (fun name => (fst.signal name).isNone) = some missing)
    (hwindow : inverted window = false) :
    fst.extractWithContext env.hash env.reader env.openings targets window context =
      .error (.signalNotFound missing) := by
  have hcheck := QueryContext.check_live hcontext.live
  simp only [OpenedFst.extractWithContext, OpenedFst.visitChangesUntil,
    QueryContext.checkSignalCount, hcheck, hcontext.limits, hwindow, OpenedFst.select,
    selectLoop_find h, bind, Except.bind]
  rfl

theorem extractWithContext_missing (hcontext : context.Unlimited) {name : String}
    (hname : name ∈ targets) (hmissing : fst.signal name = none) (hwindow : inverted window = false) :
    ∃ error, fst.extractWithContext env.hash env.reader env.openings targets window context =
      .error error := by
  obtain ⟨missing, hfind⟩ := find_missing hname hmissing
  exact ⟨_, extractWithContext_find hcontext hfind hwindow⟩

/-! ## Both backends -/

/-- Both succeed with the same rows in the same order, or both fail. -/
inductive Alike : Except QueryError (List TimeValue) → Except QueryError (List TimeValue) → Prop
  | ok (rows : List TimeValue) : Alike (.ok rows) (.ok rows)
  | error (e e' : QueryError) : Alike (.error e) (.error e')

/-- An inverted window covers no time. -/
theorem changeRows_inverted (hwindow : inverted window = true) (names : IdCode → List String)
    (changes : List (Nat × IdCode × ChangeValue)) :
    changes.flatMap (changeRows names window) = [] := by
  rw [List.flatMap_eq_nil_iff]
  rintro ⟨time, id, value⟩ -
  refine if_neg fun hcovers => ?_
  obtain ⟨start, end_⟩ := window
  cases start with
  | none => cases hwindow
  | some start =>
    cases end_ with
    | none => cases hwindow
    | some end_ =>
      have hlt : end_ < start := by simpa [inverted] using hwindow
      have hstart := hcovers.1 start rfl
      have hend := hcovers.2 end_ rfl
      omega

/-- **When the two backends answer alike.** They present one waveform, and the
context has no limits: both extractions succeed with the same rows or both
fail, and both fail on a missing name, unless the window is inverted and a name
is missing. The FST backend then succeeds without a row. -/
theorem backends_alike_iff (waveform : AbstractWaveform) (vcd : OpenedVcd)
    (commands : List ParseResult) (fst : OpenedFst η) (env : FstEnv η) (handleOf : IdCode → Nat)
    (callbacks : List FstCallback) (file : FstFile) (context : QueryContext)
    (hvcd : PresentsVcd waveform vcd commands)
    (hfst : PresentsFst waveform fst env handleOf callbacks file) (hcontext : context.Unlimited)
    (targets : List String) (window : TimeWindow) :
    (Alike ((OpenedWaveform.vcd vcd).extract env targets window context)
        ((OpenedWaveform.fst fst).extract env targets window context) ∧
      ((∃ name ∈ targets, waveform.catalog name = none) →
        (∃ e, (OpenedWaveform.vcd vcd).extract env targets window context = .error e) ∧
        ∃ e, (OpenedWaveform.fst fst).extract env targets window context = .error e)) ↔
      ¬ (inverted window = true ∧ ∃ name ∈ targets, waveform.catalog name = none) := by
  simp only [OpenedWaveform.extract]
  by_cases hmissing : ∃ name ∈ targets, waveform.catalog name = none
  · obtain ⟨name, hname, hnone⟩ := hmissing
    have hvcdNone : vcd.signal name = none := by
      rw [← Option.not_isSome_iff_eq_none, hvcd.isSome, hnone]
      exact Bool.false_ne_true
    have hfstNone : fst.signal name = none := by
      rw [← Option.not_isSome_iff_eq_none, hfst.isSome, hnone]
      exact Bool.false_ne_true
    obtain ⟨e, hvcdError⟩ := extractRows_missing hcontext hname hvcdNone window
    rw [hvcdError]
    cases hwindow : inverted window with
    | true =>
      rw [extractWithContext_inverted hcontext hwindow]
      exact iff_of_false (fun h => (by cases h.1)) fun h => h ⟨rfl, name, hname, hnone⟩
    | false =>
      have hfails : ∃ e', fst.extractWithContext env.hash env.reader env.openings targets window
          context = .error e' := extractWithContext_missing hcontext hname hfstNone hwindow
      obtain ⟨e', hfstError⟩ := hfails
      rw [hfstError]
      exact iff_of_true ⟨.error e e', fun _ => ⟨⟨e, rfl⟩, e', rfl⟩⟩ fun h => (by cases h.1)
  · have hfound : ∀ name ∈ targets, (waveform.catalog name).isSome := by
      intro name hname
      rw [Option.isSome_iff_ne_none]
      exact fun hnone => hmissing ⟨name, hname, hnone⟩
    have hrows : vcd.extractRows targets window context =
        .ok (waveform.changes.flatMap (changeRows (waveform.requested targets) window)) := by
      rw [extractRows_ok hcontext hvcd.unchanged hvcd.orderly
        (fun name hname => (hvcd.isSome name).trans (hfound name hname)), hvcd.requested,
        hvcd.changes]
    have hfstRows : fst.extractWithContext env.hash env.reader env.openings targets window context =
        .ok (waveform.changes.flatMap (changeRows (waveform.requested targets) window)) := by
      cases hwindow : inverted window with
      | true => rw [extractWithContext_inverted hcontext hwindow, changeRows_inverted hwindow]
      | false =>
        exact extractWithContext_ok hcontext hfst
          (fun name hname => (hfst.isSome name).trans (hfound name hname)) hwindow
    rw [hrows, hfstRows]
    exact iff_of_true ⟨.ok _, fun h => absurd h hmissing⟩ fun h => hmissing h.2

/-! ## Two aliases in both formats -/

def bitBody : List ParseResult := [.ok (.timestamp 5), .ok (.changeScalar ⟨33⟩ .v1)]

/-- The names `a` and `b` on one identifier, which changes once. -/
def bitWaveform : AbstractWaveform where
  catalog name := ((aliasedVcd bitBody).signal name).map (·.idCode)
  changes := [(5, ⟨33⟩, .text "1")]

def bitFile : FstFile := ⟨[0], some 7⟩

def bitCallbacks : List FstCallback := [(5, 33, .string (digitalBytes [.v1]))]

def bitEnv : FstEnv (List UInt8) where
  hash := id
  reader :=
    { open_ := fun _ => .done
      readSignals := fun _ filter => (bitCallbacks.filter filter.Wants, .done) }
  openings := ⟨.ok bitFile, .ok bitFile, .ok bitFile⟩

def bitFst : OpenedFst (List UInt8) where
  displayPath := "bit.fst"
  identity := FstIdentity.fromFile id bitFile
  header := ⟨0, 5, -9, none⟩
  signals := [⟨"a", 33, 1, .digital, false⟩, ⟨"b", 33, 1, .digital, true⟩]
  byName := [("a", 0), ("b", 1)]

theorem bit_presentsVcd : PresentsVcd bitWaveform (aliasedVcd bitBody) bitBody where
  catalog _ := rfl
  unchanged := ⟨rfl, rfl⟩
  orderly := ⟨by simp [bitBody], by decide⟩
  changes := rfl

theorem bit_presentsFst :
    PresentsFst bitWaveform bitFst bitEnv IdCode.code bitCallbacks bitFile where
  injective _ _ h := congrArg IdCode.mk h
  catalog name := by
    simp only [bitWaveform, OpenedVcd.signal_eq, SignalCatalog.find, aliasedVcd, OpenedFst.signal,
      bitFst]
    by_cases ha : name = "a"
    · subst ha
      rfl
    · by_cases hb : name = "b"
      · subst hb
        rfl
      · simp [List.lookup_cons, beq_eq_false_iff_ne.mpr ha, beq_eq_false_iff_ne.mpr hb,
          Ne.symm ha, Ne.symm hb]
  carries := by
    refine .cons ⟨rfl, rfl, fun name signal hsignal _ => ?_⟩ .nil
    have htype : signal.signalType = .digital := by
      obtain ⟨index, -, hindex⟩ := Option.bind_eq_some_iff.mp hsignal
      have hmem := List.mem_of_getElem? hindex
      simp only [bitFst, List.mem_cons, List.not_mem_nil, or_false] at hmem
      rcases hmem with rfl | rfl <;> rfl
    rw [htype, fstValue_digitalBytes]
    rfl
  endTime := by decide
  openings := rfl
  identity := rfl
  opens := rfl
  reads filter := ⟨rfl, by simp [bitEnv]⟩

theorem backends_alike_iff_bit :
    (Alike ((OpenedWaveform.vcd (aliasedVcd bitBody)).extract bitEnv ["b", "a"] ⟨some 5, none⟩ {})
        ((OpenedWaveform.fst bitFst).extract bitEnv ["b", "a"] ⟨some 5, none⟩ {}) ∧
      ((∃ name ∈ ["b", "a"], bitWaveform.catalog name = none) →
        (∃ e, (OpenedWaveform.vcd (aliasedVcd bitBody)).extract bitEnv ["b", "a"] ⟨some 5, none⟩ {} =
          .error e) ∧
        ∃ e, (OpenedWaveform.fst bitFst).extract bitEnv ["b", "a"] ⟨some 5, none⟩ {} =
          .error e)) ↔
      ¬ (inverted ⟨some 5, none⟩ = true ∧ ∃ name ∈ ["b", "a"], bitWaveform.catalog name = none) :=
  backends_alike_iff bitWaveform (aliasedVcd bitBody) bitBody bitFst bitEnv IdCode.code bitCallbacks
    bitFile {} bit_presentsVcd bit_presentsFst ⟨⟨rfl, rfl⟩, rfl⟩ ["b", "a"] ⟨some 5, none⟩

/-- A missing name in an inverted window: the VCD backend fails, the FST backend
answers no rows. -/
theorem backends_differ_inverted :
    ¬ ∀ (waveform : AbstractWaveform) (vcd : OpenedVcd) (commands : List ParseResult)
      (fst : OpenedFst (List UInt8)) (env : FstEnv (List UInt8)) (handleOf : IdCode → Nat)
      (callbacks : List FstCallback) (file : FstFile) (context : QueryContext),
      PresentsVcd waveform vcd commands → PresentsFst waveform fst env handleOf callbacks file →
      context.Unlimited → ∀ (targets : List String) (window : TimeWindow),
      Alike ((OpenedWaveform.vcd vcd).extract env targets window context)
        ((OpenedWaveform.fst fst).extract env targets window context) := by
  intro hall
  have halike := hall bitWaveform (aliasedVcd bitBody) bitBody bitFst bitEnv IdCode.code
    bitCallbacks bitFile {} bit_presentsVcd bit_presentsFst ⟨⟨rfl, rfl⟩, rfl⟩ ["c"]
    ⟨some 9, some 5⟩
  have hmissing : (aliasedVcd bitBody).signal "c" = none := by decide
  have hfails : ∃ e, (aliasedVcd bitBody).extractRows ["c"] ⟨some 9, some 5⟩ {} = .error e :=
    extractRows_missing ⟨⟨rfl, rfl⟩, rfl⟩ List.mem_cons_self hmissing ⟨some 9, some 5⟩
  obtain ⟨e, hvcd⟩ := hfails
  have hfst : bitFst.extractWithContext bitEnv.hash bitEnv.reader bitEnv.openings ["c"]
      ⟨some 9, some 5⟩ {} = .ok [] := extractWithContext_inverted ⟨⟨rfl, rfl⟩, rfl⟩ rfl
  simp only [OpenedWaveform.extract, hvcd, hfst] at halike
  cases halike

end VcdTools.Opened
