import VcdTools.Opened.FstHierarchy
import VcdTools.Opened.FstPreflight
import VcdTools.Opened.Waveform
import Mathlib.Algebra.Order.Field.Power
import Mathlib.Data.Finset.Card
import Mathlib.Data.Rat.Cast.Order

/-! # Opening an FST

`OpenedFst::open` of `opened/fst.rs` over a file that is not replaced meanwhile:
what it accepts, what the opened waveform then presents, and what a query of it
answers while the file stays the same. -/
namespace VcdTools.Opened
open VcdTools.Lib VcdTools.Query

/-! ## The function -/

def maxFstBytes : Nat := 8 * 1024 * 1024 * 1024

def maxHierarchyUncompressedBytes : Nat := 512 * 1024 * 1024

def fstGzipWrapperBlock : UInt8 := 254

/-- `fst_reader::FstHeader`, of which the crate keeps these. -/
structure FstHeader where
  startTime : Nat
  endTime : Nat
  timescaleExponent : Int
  version : String
  date : String

/-- `fst_reader::FstReader` with its header, and the entries of `read_hierarchy`
and how that ends. -/
structure FstParser extends FstReader where
  header : FstFile → FstHeader
  readHierarchy : FstFile → List FstHierarchyEntry × Caught

def timescaleUnits : List (Int × TimescaleUnit) :=
  [(0, .s), (-3, .ms), (-6, .us), (-9, .ns), (-12, .ps), (-15, .fs)]

/-- `timescale_from_exponent`. -/
def timescaleFromExponent (exponent : Int) : Option Timescale :=
  timescaleUnits.findSome? fun (base, unit) =>
    if exponent - base = 0 then some ⟨1, unit⟩
    else if exponent - base = 1 then some ⟨10, unit⟩
    else if exponent - base = 2 then some ⟨100, unit⟩
    else none

/-- What `open` answers: the opened waveform, and the rest of its `FstMeta`. -/
structure FstOpening (η : Type) where
  opened : OpenedFst η
  signalCount : Nat
  uniqueSignalCount : Nat
  version : String
  date : String

variable {η : Type} (hash : List UInt8 → η) (parser : FstParser) (displayPath : String)

/-- `FstReader::open` and `read_hierarchy`. -/
def readCatalog (file : FstFile) : Except FstError FstCatalog :=
  match parser.open_ file with
  | .panicked => .error .parserPanicked
  | .failed message => .error (.parse (bounded message))
  | .done => fromHierarchy (parser.readHierarchy file).1 (parser.readHierarchy file).2

/-- The value at the end of `open_with_hierarchy_limit`. -/
def openingOf (file : FstFile) (catalog : FstCatalog) : FstOpening η where
  opened := {
    displayPath := displayPath
    identity := FstIdentity.fromFile hash file
    header := {
      startTime := (parser.header file).startTime
      endTime := (parser.header file).endTime
      timescaleExponent := (parser.header file).timescaleExponent
      timescale := timescaleFromExponent (parser.header file).timescaleExponent }
    signals := catalog.signals
    byName := catalog.byName }
  signalCount := catalog.signals.length
  uniqueSignalCount := (catalog.signals.map (·.handleIndex)).dedup.length
  version := (parser.header file).version
  date := (parser.header file).date

/-- `OpenedFst::open_with_hierarchy_limit`; `path` is what is found when the path
is made absolute, opened and looked at. -/
def openWithHierarchyLimit (limit : Nat) (path : Opening) :
    Option (Except FstError (FstOpening η)) :=
  match path with
  | .error source => some (.error (.io displayPath source))
  | .ok file =>
    if file.bytes.length > maxFstBytes then
      some (.error (.unsupportedInput
        ("input exceeds " ++ Nat.repr maxFstBytes ++ " byte limit")))
    else
      match file.bytes with
      | [] => some (.error (endOfFile displayPath))
      | first :: _ =>
        if first = fstGzipWrapperBlock then
          some (.error (.unsupportedInput "whole-file gzip wrappers are disabled"))
        else
          (preflightHierarchy file.bytes displayPath limit).map fun preflight => do
            let _ ← preflight
            let catalog ← readCatalog parser file
            return openingOf hash parser displayPath file catalog

/-- `OpenedFst::open`. -/
def OpenedFst.openPath (path : Opening) : Option (Except FstError (FstOpening η)) :=
  openWithHierarchyLimit hash parser displayPath maxHierarchyUncompressedBytes path

/-! ## What opening should mean -/

/-- The power of ten that a unit is of a second. -/
def unitExponent : TimescaleUnit → Int
  | .s => 0
  | .ms => -3
  | .us => -6
  | .ns => -9
  | .ps => -12
  | .fs => -15

/-- A file that opens. -/
structure Acceptable (limit : Nat) (file : FstFile) : Prop where
  size : file.bytes.length ≤ maxFstBytes
  first : ∃ byte ∈ file.bytes.head?, byte ≠ fstGzipWrapperBlock
  preflight : preflightHierarchy file.bytes displayPath limit = some (.ok 0)
  opens : parser.open_ file = .done
  reads : (parser.readHierarchy file).2 = .done
  within : WithinLimits (parser.readHierarchy file).1
  names : (labelledNames (parser.readHierarchy file).1).Nodup

/-- A name that the hierarchy declares, with the handle it declares it for. -/
def Declares (entries : List FstHierarchyEntry) (name : String) (handle : Nat) : Prop :=
  ∃ declaration ∈ (hierarchyOf entries).declared,
    declaration.fullName scopeLabel = name ∧ declaration.2.handle = handle

instance (entries : List FstHierarchyEntry) (name : String) (handle : Nat) :
    Decidable (Declares entries name handle) :=
  inferInstanceAs (Decidable (∃ _ ∈ _, _))

/-- **What an opened waveform presents** of the file it was opened from. -/
structure Presented [DecidableEq η] (file : FstFile) (opening : FstOpening η) : Prop where
  /-- The source is valid as long as its length, time and samples are the same. -/
  valid : ∀ file', opening.opened.validateSource hash (.ok file') = .ok () ↔
    FstIdentity.fromFile hash file' = FstIdentity.fromFile hash file
  /-- The signals are the declarations in order, and no two have the same name. -/
  signals : opening.opened.signals =
    (hierarchyOf (parser.readHierarchy file).1).declared.map fun declaration =>
      declaration.2.signal (declaration.fullName scopeLabel)
  distinct : opening.opened.signalNames.Nodup
  /-- A name finds the signal that carries it, and no other. -/
  signal : ∀ name signal, opening.opened.signal name = some signal ↔
    signal ∈ opening.opened.signals ∧ signal.name = name
  /-- The declared handles are those of the signals. -/
  handles : ∀ name handle, (opening.opened.signal name).map (·.handleIndex) = some handle ↔
    Declares (parser.readHierarchy file).1 name handle
  counts : opening.signalCount = opening.opened.signals.length ∧
    opening.uniqueSignalCount = (opening.opened.signals.map (·.handleIndex)).toFinset.card
  /-- The timescale is the power of ten of the header, in a magnitude of the three. -/
  timescale : ∀ timescale, opening.opened.header.timescale = some timescale ↔
    timescale.magnitude ∈ [1, 10, 100] ∧
      (timescale.magnitude : ℚ) * 10 ^ unitExponent timescale.unit =
        10 ^ (parser.header file).timescaleExponent

/-! ## Timescales -/

/-- The table has one line for each of the three magnitudes of a unit. -/
theorem timescaleFromExponent_iff {exponent : Int} {timescale : Timescale} :
    timescaleFromExponent exponent = some timescale ↔
      ∃ digits ∈ ([0, 1, 2] : List Nat), timescale.magnitude = 10 ^ digits ∧
        unitExponent timescale.unit + digits = exponent := by
  constructor
  · intro h
    obtain ⟨⟨base, unit⟩, hunit, hmagnitude⟩ := List.exists_of_findSome?_eq_some h
    have hbase : base = unitExponent unit := by
      simp only [timescaleUnits, List.mem_cons, Prod.mk.injEq, List.not_mem_nil, or_false] at hunit
      rcases hunit with ⟨rfl, rfl⟩ | ⟨rfl, rfl⟩ | ⟨rfl, rfl⟩ | ⟨rfl, rfl⟩ | ⟨rfl, rfl⟩ | ⟨rfl, rfl⟩ <;>
        rfl
    simp only at hmagnitude
    split_ifs at hmagnitude with h0 h1 h2
    · cases hmagnitude
      exact ⟨0, by simp, rfl, by simp only [← hbase]; omega⟩
    · cases hmagnitude
      exact ⟨1, by simp, rfl, by simp only [← hbase]; omega⟩
    · cases hmagnitude
      exact ⟨2, by simp, rfl, by simp only [← hbase]; omega⟩
  · obtain ⟨magnitude, unit⟩ := timescale
    rintro ⟨digits, hdigits, rfl, rfl⟩
    simp only [List.mem_cons, List.not_mem_nil, or_false] at hdigits
    rcases hdigits with rfl | rfl | rfl <;> cases unit <;> rfl

/-- **A timescale is the power of ten** that the header gives, and there is one
for each power that a unit and a magnitude make up. -/
theorem timescaleFromExponent_eq_some {exponent : Int} {timescale : Timescale} :
    timescaleFromExponent exponent = some timescale ↔
      timescale.magnitude ∈ [1, 10, 100] ∧
        (timescale.magnitude : ℚ) * 10 ^ unitExponent timescale.unit = 10 ^ exponent := by
  have hpower : ∀ digits : Nat, timescale.magnitude = 10 ^ digits →
      ((timescale.magnitude : ℚ) * 10 ^ unitExponent timescale.unit = 10 ^ exponent ↔
        unitExponent timescale.unit + digits = exponent) := by
    intro digits hdigits
    rw [hdigits, Nat.cast_pow, Nat.cast_ofNat, ← zpow_natCast, ← zpow_add₀ (by norm_num),
      zpow_right_inj₀ (by norm_num) (by norm_num), add_comm]
  rw [timescaleFromExponent_iff]
  constructor
  · rintro ⟨digits, hdigits, hmagnitude, hsum⟩
    refine ⟨?_, (hpower digits hmagnitude).mpr hsum⟩
    rw [hmagnitude]
    simp only [List.mem_cons, List.not_mem_nil, or_false] at hdigits
    rcases hdigits with rfl | rfl | rfl <;> simp
  · rintro ⟨hmagnitude, hvalue⟩
    have hdigits : ∃ digits ∈ ([0, 1, 2] : List Nat), timescale.magnitude = 10 ^ digits := by
      simp only [List.mem_cons, List.not_mem_nil, or_false] at hmagnitude
      rcases hmagnitude with h | h | h
      · exact ⟨0, by simp, h⟩
      · exact ⟨1, by simp, h⟩
      · exact ⟨2, by simp, h⟩
    obtain ⟨digits, hmem, hdigits⟩ := hdigits
    exact ⟨digits, hmem, hdigits, (hpower digits hdigits).mp hvalue⟩

/-! ## What opens -/

variable {hash parser displayPath} {limit : Nat} {path : Opening} {file : FstFile}
  {opening : FstOpening η}

theorem readCatalog_ok {catalog : FstCatalog} : readCatalog parser file = .ok catalog ↔
    parser.open_ file = .done ∧ (parser.readHierarchy file).2 = .done ∧
      WithinLimits (parser.readHierarchy file).1 ∧
      (labelledNames (parser.readHierarchy file).1).Nodup ∧
      catalog = (hierarchyOf (parser.readHierarchy file).1).catalog := by
  unfold readCatalog
  cases hopen : parser.open_ file with
  | panicked => simp
  | failed message => simp
  | done =>
    obtain ⟨entries, ending⟩ := parser.readHierarchy file
    cases ending with
    | panicked | failed _ => simp [fromHierarchy, throw, throwThe, MonadExceptOf.throw]
    | done =>
      simp only [true_and]
      rw [fromHierarchy_eq, ← and_assoc, ← refusal_eq_none_iff]
      cases refusal entries with
      | some error => simp
      | none => simp [eq_comm]

theorem preflightHierarchy_isSome (bytes : List UInt8) :
    (preflightHierarchy bytes displayPath limit).isSome := by
  rw [preflightHierarchy, Option.isSome_map]
  exact walkSections_isSome (Nat.zero_le _) (by omega)

theorem openWithHierarchyLimit_isSome :
    (openWithHierarchyLimit hash parser displayPath limit path).isSome := by
  unfold openWithHierarchyLimit
  cases path with
  | error source => rfl
  | ok file =>
    dsimp only
    split_ifs with hsize
    · rfl
    · cases file.bytes with
      | nil => rfl
      | cons first rest =>
        dsimp only
        split_ifs with hfirst
        · rfl
        · rw [Option.isSome_map]
          exact preflightHierarchy_isSome _

theorem preflightHierarchy_cursor {bytes : List UInt8} {cursor : Nat}
    (h : preflightHierarchy bytes displayPath limit = some (.ok cursor)) : cursor = 0 := by
  obtain ⟨result, -, hresult⟩ := Option.map_eq_some_iff.mp h
  obtain ⟨-, -, hcursor⟩ := Fallible.map_ok_iff.mp hresult
  exact hcursor.symm

/-- **Opening accepts** exactly the files that are in order, and answers what
they say. -/
theorem openWithHierarchyLimit_ok :
    openWithHierarchyLimit hash parser displayPath limit path = some (.ok opening) ↔
      ∃ file, path = .ok file ∧ Acceptable parser displayPath limit file ∧
        opening = openingOf hash parser displayPath file
          (hierarchyOf (parser.readHierarchy file).1).catalog := by
  cases path with
  | error source => simp [openWithHierarchyLimit]
  | ok file =>
    simp only [openWithHierarchyLimit, Except.ok.injEq, exists_eq_left']
    by_cases hsize : file.bytes.length > maxFstBytes
    · simp only [if_pos hsize]
      refine iff_of_false (by simp) fun h => ?_
      have := h.1.size
      omega
    rw [if_neg hsize]
    cases hbytes : file.bytes with
    | nil =>
      refine iff_of_false (by simp) fun h => ?_
      obtain ⟨byte, hbyte, -⟩ := h.1.first
      simp [hbytes] at hbyte
    | cons first rest =>
      by_cases hfirst : first = fstGzipWrapperBlock
      · simp only [if_pos hfirst]
        refine iff_of_false (by simp) fun h => ?_
        obtain ⟨byte, hbyte, hne⟩ := h.1.first
        rw [hbytes, List.head?_cons, Option.mem_some_iff] at hbyte
        exact hne (hbyte ▸ hfirst)
      · simp only [if_neg hfirst]
        rw [Option.map_eq_some_iff, ← hbytes]
        constructor
        · rintro ⟨preflight, hpreflight, h⟩
          obtain ⟨cursor, rfl, hrest⟩ := Fallible.bind_ok_iff.mp h
          obtain ⟨catalog, hcatalog, hopening⟩ := Fallible.bind_ok_iff.mp hrest
          obtain ⟨hopens, hreads, hwithin, hnames, rfl⟩ := readCatalog_ok.mp hcatalog
          refine ⟨⟨Nat.le_of_not_lt hsize, ⟨first, by simp [hbytes], hfirst⟩, ?_, hopens, hreads,
            hwithin, hnames⟩, (Except.ok.inj hopening).symm⟩
          rw [hpreflight, preflightHierarchy_cursor hpreflight]
        · rintro ⟨hfile, rfl⟩
          refine ⟨_, hfile.preflight, Fallible.bind_ok_iff.mpr ⟨0, rfl,
            Fallible.bind_ok_iff.mpr ⟨_, readCatalog_ok.mpr ?_, rfl⟩⟩⟩
          exact ⟨hfile.opens, hfile.reads, hfile.within, hfile.names, rfl⟩

/-! ## What is presented -/

section
variable {entries : List FstHierarchyEntry}

theorem catalog_signals (entries : List FstHierarchyEntry) :
    (hierarchyOf entries).catalog.signals = (hierarchyOf entries).declared.map fun declaration =>
      declaration.2.signal (declaration.fullName scopeLabel) := rfl

/-- The name at a position is that of the signal there. -/
theorem labelledNames_getElem? (i : Nat) : (labelledNames entries)[i]? =
    ((hierarchyOf entries).catalog.signals[i]?).map (·.name) := by
  rw [labelledNames, ← catalog_names, List.getElem?_map]

/-- **A name finds the signal that carries it.** -/
theorem openingOf_signal (hnames : (labelledNames entries).Nodup) (file : FstFile) (name : String)
    (signal : FstSignal) :
    (openingOf hash parser displayPath file (hierarchyOf entries).catalog).opened.signal name =
        some signal ↔
      signal ∈ (hierarchyOf entries).catalog.signals ∧ signal.name = name := by
  rw [OpenedFst.signal, Option.bind_eq_some_iff]
  simp only [openingOf, catalog_byName hnames, labelledNames_getElem?]
  constructor
  · rintro ⟨index, hname, hsignal⟩
    rw [hsignal] at hname
    exact ⟨List.mem_of_getElem? hsignal, Option.some.inj hname⟩
  · rintro ⟨hmem, rfl⟩
    obtain ⟨index, hsignal⟩ := List.mem_iff_getElem?.mp hmem
    exact ⟨index, by rw [hsignal]; rfl, hsignal⟩

end

/-- The handles of a name are those that it is declared for. -/
theorem openingOf_handles (hnames : (labelledNames (parser.readHierarchy file).1).Nodup)
    (name : String) (handle : Nat) :
    ((openingOf hash parser displayPath file
        (hierarchyOf (parser.readHierarchy file).1).catalog).opened.signal name).map
          (·.handleIndex) = some handle ↔
      Declares (parser.readHierarchy file).1 name handle := by
  rw [Option.map_eq_some_iff]
  simp only [openingOf_signal hnames]
  constructor
  · rintro ⟨signal, ⟨hsignal, rfl⟩, rfl⟩
    obtain ⟨declaration, hdeclaration, rfl⟩ := List.mem_map.mp (catalog_signals _ ▸ hsignal)
    exact ⟨declaration, hdeclaration, rfl, rfl⟩
  · rintro ⟨declaration, hdeclaration, rfl, rfl⟩
    exact ⟨_, ⟨catalog_signals _ ▸ List.mem_map_of_mem hdeclaration, rfl⟩, rfl⟩

section
variable [DecidableEq η]

theorem validateSource_ok_iff {opened : OpenedFst η} {file' : FstFile} :
    opened.validateSource hash (.ok file') = .ok () ↔
      opened.identity = FstIdentity.fromFile hash file' := by
  simp [OpenedFst.validateSource]

theorem openingOf_presented (hnames : (labelledNames (parser.readHierarchy file).1).Nodup) :
    Presented hash parser file (openingOf hash parser displayPath file
      (hierarchyOf (parser.readHierarchy file).1).catalog) where
  valid file' := validateSource_ok_iff.trans eq_comm
  signals := catalog_signals _
  distinct := by
    rw [OpenedFst.signalNames, openingOf, catalog_names]
    exact hnames
  signal := openingOf_signal hnames file
  handles := openingOf_handles hnames
  counts := ⟨rfl, (List.card_toFinset _).symm⟩
  timescale timescale := timescaleFromExponent_eq_some

/-- **`OpenedFst::open`** answers on every file: it accepts exactly those that are
in order, and what it opens presents the file it was opened from. -/
theorem open_presents (hash : List UInt8 → η) (parser : FstParser) (displayPath : String)
    (limit : Nat) (path : Opening) :
    match openWithHierarchyLimit hash parser displayPath limit path with
    | some (.ok opening) => ∃ file, path = .ok file ∧ Acceptable parser displayPath limit file ∧
        Presented hash parser file opening
    | some (.error _) => ¬ ∃ file, path = .ok file ∧ Acceptable parser displayPath limit file
    | none => False := by
  cases hopen : openWithHierarchyLimit hash parser displayPath limit path with
  | none =>
    have hanswers : (openWithHierarchyLimit hash parser displayPath limit path).isSome :=
      openWithHierarchyLimit_isSome
    rw [hopen] at hanswers
    cases hanswers
  | some result =>
    cases result with
    | error error =>
      rintro ⟨file, hpath, hfile⟩
      rw [openWithHierarchyLimit_ok.mpr ⟨file, hpath, hfile, rfl⟩] at hopen
      cases hopen
    | ok opening =>
      obtain ⟨file, hpath, hfile, rfl⟩ := openWithHierarchyLimit_ok.mp hopen
      exact ⟨file, hpath, hfile, openingOf_presented hfile.names⟩

end

/-! ## A query of what was opened -/

/-- The rows of a callback: one for each target that the hierarchy declares for
its handle. -/
def declaredRows (entries : List FstHierarchyEntry) (targets : List String) (window : TimeWindow)
    (value : FstCallback → ChangeValue) (callback : FstCallback) : List TimeValue :=
  if Covers window callback.1 then
    (targets.filter fun name => Declares entries name callback.2.1).map fun name =>
      ⟨name, callback.1, value callback⟩
  else []

/-- What an extraction of a hierarchy and the changes of its handles is. -/
def extractionOf (entries : List FstHierarchyEntry) (callbacks : List FstCallback)
    (value : FstCallback → ChangeValue) (targets : List String) (window : TimeWindow) :
    Except QueryError (List TimeValue) :=
  if inverted window then .ok []
  else
    match targets.find? fun name => name ∉ labelledNames entries with
    | some missing => .error (.signalNotFound missing)
    | none => .ok (callbacks.flatMap (declaredRows entries targets window value))

/-- A reader that delivers these changes of a file, whatever it is asked for, and
values that convert for every name of their handle. -/
structure Delivers (parser : FstParser) (file : FstFile) (callbacks : List FstCallback)
    (value : FstCallback → ChangeValue) : Prop where
  reads : ∀ filter, (parser.readSignals file filter).2 = .done ∧
    (parser.readSignals file filter).1.filter filter.Wants = callbacks.filter filter.Wants
  endTime : ∀ callback ∈ callbacks, callback.1 ≤ (parser.header file).endTime
  converts : ∀ callback ∈ callbacks,
    ∀ declaration ∈ (hierarchyOf (parser.readHierarchy file).1).declared,
      declaration.2.handle = callback.2.1 →
      fstValue callback.2.2 (signalType declaration.2.type) = .ok (value callback)

/-- The waveform of an opened file. -/
def FstOpening.waveform (opening : FstOpening η) (callbacks : List FstCallback)
    (value : FstCallback → ChangeValue) : AbstractWaveform where
  catalog name := (opening.opened.signal name).map fun signal => ⟨signal.handleIndex⟩
  changes := callbacks.map fun callback => (callback.1, ⟨callback.2.1⟩, value callback)

variable (hash) in
/-- **Opening establishes** what the queries rely on. -/
theorem openingOf_presentsFst {callbacks : List FstCallback} {value : FstCallback → ChangeValue}
    (hfile : Acceptable parser displayPath limit file)
    (hdelivers : Delivers parser file callbacks value) :
    PresentsFst ((openingOf hash parser displayPath file
        (hierarchyOf (parser.readHierarchy file).1).catalog).waveform callbacks value)
      (openingOf hash parser displayPath file
        (hierarchyOf (parser.readHierarchy file).1).catalog).opened
      ⟨hash, parser.toFstReader, ⟨.ok file, .ok file, .ok file⟩⟩ IdCode.code callbacks file where
  injective id id' h := congrArg IdCode.mk h
  catalog name := by simp [FstOpening.waveform, Function.comp_def]
  carries := by
    rw [FstOpening.waveform, List.forall₂_map_left_iff, List.forall₂_same]
    intro callback hcallback
    refine ⟨rfl, rfl, fun name signal hsignal hhandle => ?_⟩
    obtain ⟨hmem, -⟩ := (openingOf_signal hfile.names file name signal).mp hsignal
    obtain ⟨declaration, hdeclaration, rfl⟩ := List.mem_map.mp (catalog_signals _ ▸ hmem)
    exact hdelivers.converts callback hcallback declaration hdeclaration hhandle
  endTime := by
    intro change hchange
    obtain ⟨callback, hcallback, rfl⟩ := List.mem_map.mp hchange
    exact hdelivers.endTime callback hcallback
  openings := rfl
  identity := rfl
  opens := hfile.opens
  reads := hdelivers.reads

theorem openingOf_isNone (hnames : (labelledNames (parser.readHierarchy file).1).Nodup)
    (name : String) :
    (openingOf hash parser displayPath file
      (hierarchyOf (parser.readHierarchy file).1).catalog).opened.signal name = none ↔
      name ∉ labelledNames (parser.readHierarchy file).1 := by
  rw [Option.eq_none_iff_forall_ne_some]
  simp only [ne_eq, openingOf_signal hnames]
  constructor
  · intro h hname
    obtain ⟨declaration, hdeclaration, rfl⟩ := List.mem_map.mp hname
    exact h _ ⟨catalog_signals _ ▸ List.mem_map_of_mem hdeclaration, rfl⟩
  · rintro hname signal ⟨hsignal, rfl⟩
    obtain ⟨declaration, hdeclaration, rfl⟩ := List.mem_map.mp (catalog_signals _ ▸ hsignal)
    exact hname (List.mem_map_of_mem hdeclaration)

theorem waveform_catalog (opening : FstOpening η) {callbacks : List FstCallback}
    {value : FstCallback → ChangeValue} {name : String} {handle : Nat} :
    (opening.waveform callbacks value).catalog name = some ⟨handle⟩ ↔
      (opening.opened.signal name).map (·.handleIndex) = some handle := by
  rw [FstOpening.waveform, Option.map_eq_some_iff, Option.map_eq_some_iff]
  simp only [IdCode.mk.injEq]

/-- The targets that the waveform has for a handle are those declared for it. -/
theorem openingOf_requested {callbacks : List FstCallback} {value : FstCallback → ChangeValue}
    (hnames : (labelledNames (parser.readHierarchy file).1).Nodup) (targets : List String)
    (handle : Nat) :
    ((openingOf hash parser displayPath file
        (hierarchyOf (parser.readHierarchy file).1).catalog).waveform callbacks value).requested
        targets ⟨handle⟩ =
      targets.filter fun name => Declares (parser.readHierarchy file).1 name handle := by
  refine List.filter_congr fun name _ => decide_eq_decide.mpr ?_
  exact (waveform_catalog _).trans (openingOf_handles hnames name handle)

variable (hash displayPath) in
/-- What is missing in the opened file is what its hierarchy does not declare. -/
theorem openingOf_find (hnames : (labelledNames (parser.readHierarchy file).1).Nodup)
    (targets : List String) :
    (targets.find? fun name => name ∉ labelledNames (parser.readHierarchy file).1) =
      targets.find? fun name => ((openingOf hash parser displayPath file
        (hierarchyOf (parser.readHierarchy file).1).catalog).opened.signal name).isNone := by
  congr 1
  funext name
  rw [Bool.eq_iff_iff, decide_eq_true_iff, Option.isNone_iff_eq_none]
  exact (openingOf_isNone hnames name).symm

/-- The rows of the waveform are those of the callbacks. -/
theorem openingOf_rows {callbacks : List FstCallback} {value : FstCallback → ChangeValue}
    (hnames : (labelledNames (parser.readHierarchy file).1).Nodup) (targets : List String)
    (window : TimeWindow) :
    let waveform := (openingOf hash parser displayPath file
      (hierarchyOf (parser.readHierarchy file).1).catalog).waveform callbacks value
    waveform.changes.flatMap (changeRows (waveform.requested targets) window) =
      callbacks.flatMap (declaredRows (parser.readHierarchy file).1 targets window value) := by
  intro waveform
  have hchanges : waveform.changes =
      callbacks.map fun callback => (callback.1, ⟨callback.2.1⟩, value callback) := rfl
  rw [hchanges, List.flatMap_map]
  refine List.flatMap_congr fun callback _ => ?_
  rw [changeRows, declaredRows, openingOf_requested hnames]

/-- **An FST that is opened and then read** gives the changes of the handles
under the names that the hierarchy declares for them, or misses the first target
that it does not declare. -/
theorem opened_extracts [DecidableEq η] (hash : List UInt8 → η) (parser : FstParser)
    (displayPath : String) (limit : Nat) (file : FstFile) (opening : FstOpening η)
    (callbacks : List FstCallback) (value : FstCallback → ChangeValue) (context : QueryContext)
    (hopen : openWithHierarchyLimit hash parser displayPath limit (.ok file) =
      some (.ok opening))
    (hdelivers : Delivers parser file callbacks value) (hcontext : context.Unlimited)
    (targets : List String) (window : TimeWindow) :
    opening.opened.extractWithContext hash parser.toFstReader ⟨.ok file, .ok file, .ok file⟩
        targets window context =
      extractionOf (parser.readHierarchy file).1 callbacks value targets window := by
  obtain ⟨_, hpath, hfile, rfl⟩ := openWithHierarchyLimit_ok.mp hopen
  cases hpath
  have hpresents := openingOf_presentsFst hash hfile hdelivers
  set opening := openingOf hash parser displayPath file
    (hierarchyOf (parser.readHierarchy file).1).catalog
  set env : FstEnv η := ⟨hash, parser.toFstReader, ⟨.ok file, .ok file, .ok file⟩⟩
  change opening.opened.extractWithContext env.hash env.reader env.openings targets window context =
    _
  unfold extractionOf
  cases hwindow : inverted window with
  | true =>
    rw [if_pos rfl]
    exact extractWithContext_inverted hcontext hwindow
  | false =>
    rw [if_neg Bool.false_ne_true, openingOf_find hash displayPath hfile.names]
    cases hmissing : targets.find? fun name => (opening.opened.signal name).isNone with
    | some missing => exact extractWithContext_find hcontext hmissing hwindow
    | none =>
      have hfound : ∀ name ∈ targets, (opening.opened.signal name).isSome := by
        intro name hname
        have hsome := List.find?_eq_none.mp hmissing name hname
        rwa [Option.isNone_iff_eq_none, ← ne_eq, Option.ne_none_iff_isSome] at hsome
      have hrows := extractWithContext_ok hcontext hpresents hfound hwindow
      exact hrows.trans (congrArg Except.ok (openingOf_rows hfile.names targets window))

/-! ## A clock below one scope -/

def clockHierarchy : List FstHierarchyEntry :=
  [.scope ⟨"top", ""⟩, .var ⟨.other, "clk", 1, 7, false⟩, .upScope]

def clockCallbacks : List FstCallback := [(5, 7, .string (digitalBytes [.v1]))]

/-- A file that is one empty section. -/
def clockFile : FstFile := ⟨[255, 0, 0, 0, 0, 0, 0, 0, 0], some 7⟩

def clockParser : FstParser where
  open_ _ := .done
  readSignals _ filter := (clockCallbacks.filter filter.Wants, .done)
  header _ := ⟨0, 5, -9, "writer", "today"⟩
  readHierarchy _ := (clockHierarchy, .done)

theorem clock_acceptable : Acceptable clockParser "clk.fst" 100 clockFile where
  size := by simp [clockFile, maxFstBytes]
  first := ⟨255, rfl, by decide⟩
  preflight := by decide
  opens := rfl
  reads := rfl
  within := by
    refine withinLimits_of_inits ?_
    simp [clockParser, clockHierarchy, hierarchyOf, Hierarchy.next, Hierarchy.empty,
      Hierarchy.Fits, maxHierarchyDepth, maxDeclarations, maxNameBytes]
    decide
  names := by decide

theorem clock_delivers :
    Delivers clockParser clockFile clockCallbacks (fun _ => .text "1") where
  reads filter := ⟨rfl, by simp [clockParser]⟩
  endTime := by decide
  converts := by
    intro callback hcallback declaration hdeclaration _
    rw [List.mem_singleton.mp hcallback]
    have htype : declaration.2.type = .other := by
      simp only [clockParser, clockHierarchy, hierarchyOf, List.foldl_cons, List.foldl_nil,
        Hierarchy.next, Hierarchy.empty, List.nil_append, List.mem_singleton] at hdeclaration
      rw [hdeclaration]
    rw [htype]
    exact fstValue_digitalBytes [.v1]

theorem opened_extracts_clock :
    (openingOf id clockParser "clk.fst" clockFile
        (hierarchyOf clockHierarchy).catalog).opened.extractWithContext id clockParser.toFstReader
        ⟨.ok clockFile, .ok clockFile, .ok clockFile⟩ ["top.clk"] ⟨some 5, none⟩ {} =
      extractionOf clockHierarchy clockCallbacks (fun _ => .text "1") ["top.clk"]
        ⟨some 5, none⟩ :=
  opened_extracts id clockParser "clk.fst" 100 clockFile _ clockCallbacks (fun _ => .text "1") {}
    (openWithHierarchyLimit_ok.mpr ⟨clockFile, rfl, clock_acceptable, rfl⟩)
    clock_delivers ⟨⟨rfl, rfl⟩, rfl⟩ ["top.clk"] ⟨some 5, none⟩

end VcdTools.Opened
