import VcdTools.Opened.WaveformToggles
import VcdTools.Query.ScanLimits
import VcdTools.Server.DispatchInner
import VcdTools.Server.FrameSize

/-! # The limits of find and toggles

`query_context` installs the limits of the configuration on every query, so
that a search and a count, whose answer is one frame, are refused for the rows
they pass over and for the logical bytes of these. -/
namespace VcdTools.Server
open VcdTools.Opened VcdTools.Query VcdTools.Lib Bracket

variable {η : Type} [DecidableEq η]

/-! ## The requests -/

def requestWindow (start end_ : Option UInt64) : TimeWindow :=
  ⟨start.map UInt64.toNat, end_.map UInt64.toNat⟩

/-- `find_nth_occurrence` as a find request calls it. -/
def findScan (waveform : OpenedWaveform η) (std : StdText) (fst : FstEnv η)
    (params : Requests.FindParams) (limits : QueryLimits) :
    Except QueryError (Option TimeValue × Nat) :=
  waveform.findNthOccurrence std fst params.signal (parseTargetValue std params.value)
    params.occurrence.toNat (requestWindow params.start params.end_) { limits := limits }

/-- `count_toggles` as a toggles request calls it; nothing when it panics. -/
def togglesScan (waveform : OpenedWaveform η) (std : StdText) (fst : FstEnv η)
    (params : Requests.TogglesParams) (limits : QueryLimits) :
    Option (Except QueryError (String → Option Nat)) :=
  waveform.countToggles std fst params.signals (requestWindow params.start params.end_)
    { limits := limits }

namespace VcdService
variable (service : VcdService) (id : String) (waveform : OpenedWaveform η) (std : StdText)
  (fst : FstEnv η)

/-- A find request that is neither cancelled nor expired, has a current
generation and gets the scan permit. -/
def servesFind (params : Requests.FindParams) (limits : QueryLimits) : Dispatch Unit :=
  unbracket (.ok ()) (service.dispatchInner id (.find params)
    { current := some (.ok ()), scan := some (findScan waveform std fst params limits),
      floatText := std.floatText })

/-- The same for a toggles request. -/
def servesToggles (params : Requests.TogglesParams) (limits : QueryLimits) : Dispatch Unit :=
  unbracket (.ok ()) (service.dispatchInner id (.toggles params)
    { current := some (.ok ()), scan := togglesScan waveform std fst params limits })

end VcdService

/-! ## One frame -/

variable {service : VcdService} {id : String}

theorem sendUnary_eq {ser : Json.Serializer} {result : Json} {responseLimit frameLimit : Nat}
    (hpos : 0 < frameLimit) (hmax : frameLimit ≤ u64Max)
    (hfits : encodedJsonLineBytes (.ofResult id result) ≤ responseLimit) :
    sendUnary ser id result responseLimit frameLimit =
      if encodedJsonLineBytes (.ofResult id result) ≤ frameLimit then
        sendFrame (.ofResult id result)
      else .fail (limitError "encoded_frame_bytes" frameLimit (frameLimit + 1)) := by
  unfold sendUnary frameBytes
  simp only [tryFrameBytes_eq hpos hmax]
  split
  · have hnot : ¬ encodedJsonLineBytes (.ofResult id result) > responseLimit := by omega
    simp only [bind, Except.bind, Proc.lift, Proc.bind_ok, hnot, if_false]
  · rfl

theorem sendFrame_ne_fail (frame : ResponseFrame) (error : ProtocolError) :
    (Proc.fail error : Dispatch Unit) ≠ sendFrame frame := by
  intro h
  cases h

/-- What a scan passes over, against the limits that its request gets: the
number of its signals, the rows and their logical bytes, and the frame of its
answer against the cap on frames. -/
structure VcdService.Passes (service : VcdService) (response signals : Nat) (ws : List Work)
    (frame : ResponseFrame) : Prop where
  signals : signals ≤ service.limits.maxSignals
  rows : counter (cost ws).rows ≤ service.limits.maxRows
  bytes : counter (cost ws).bytes ≤ response
  frame : encodedJsonLineBytes frame ≤ service.maxEncodedFrameBytes

/-- The limits of a request that names no number of rows. -/
theorem queryLimits_ok {config : ServiceConfig} {commands response : Option Nat}
    {limits : QueryLimits} {responseLimit : Nat}
    (h : queryLimits config commands none response = .ok (limits, responseLimit)) :
    limits.maxSignals = some config.maxSignals ∧ limits.maxRows = some config.maxRows ∧
      limits.maxResultBytes = some responseLimit := by
  have hrows : lowerLimit "rows" none config.maxRows = .ok config.maxRows := by
    simp [lowerLimit]
  unfold queryLimits at h
  rw [hrows] at h
  cases hcommands : lowerLimit "commands" commands config.maxCommands with
  | error error =>
    rw [hcommands] at h
    cases h
  | ok commands =>
    cases hresponse : lowerLimit "response_bytes" response config.maxResponseBytes with
    | error error =>
      rw [hcommands, hresponse] at h
      cases h
    | ok response =>
      rw [hcommands, hresponse] at h
      simp only [bind, Except.bind] at h
      split at h
      · cases h
      · cases h
        exact ⟨rfl, rfl, rfl⟩

/-- A request for a scan with this work and an answer in this frame: its query
gets limits, the work is within the limit on commands, and the frame within the
one on the response. -/
structure VcdService.Asks (service : VcdService) (maxCommands maxResponseBytes : Option UInt64)
    (limits : QueryLimits) (responseLimit : Nat) (ws : List Work) (frame : ResponseFrame) :
    Prop where
  query : queryLimits service.limits (maxCommands.map UInt64.toNat) none
    (maxResponseBytes.map UInt64.toNat) = .ok (limits, responseLimit)
  commands : ∀ limit ∈ limits.maxCommands, (cost ws).commands ≤ limit
  fits : encodedJsonLineBytes frame ≤ responseLimit

variable {maxCommands maxResponseBytes : Option UInt64} {limits : QueryLimits}
  {responseLimit : Nat} {ws : List Work} {frame : ResponseFrame}

/-- Such a scan is allowed by its limits, up to the cap on frames, exactly when
it passes. -/
theorem VcdService.Asks.allows_iff
    (h : service.Asks maxCommands maxResponseBytes limits responseLimit ws frame)
    (signals : Nat) :
    (Allows limits signals ws ∧ encodedJsonLineBytes frame ≤ service.maxEncodedFrameBytes) ↔
      service.Passes responseLimit signals ws frame := by
  obtain ⟨hsignals, hrows, hbytes⟩ := queryLimits_ok h.query
  constructor
  · intro hallowed
    obtain ⟨hallows, hframe⟩ := hallowed
    exact ⟨hallows.signals _ hsignals, hallows.work.rows _ hrows, hallows.work.bytes _ hbytes,
      hframe⟩
  · intro hpasses
    refine ⟨⟨?_, ?_, ?_, ?_⟩, hpasses.frame⟩
    · intro limit hlimit
      rw [hsignals] at hlimit
      cases hlimit
      exact hpasses.signals
    · intro limit hlimit
      exact (Nat.min_le_left _ _).trans (h.commands limit hlimit)
    · intro limit hlimit
      rw [hrows] at hlimit
      cases hlimit
      exact hpasses.rows
    · intro limit hlimit
      rw [hbytes] at hlimit
      cases hlimit
      exact hpasses.bytes

/-- The frame is sent when the scan ends with its answer. -/
theorem answered_iff {α : Type} {allowed : Prop} {answer : α} {result : Except QueryError α}
    (h : EndsBy allowed answer result) (respond : α → Json)
    (hpos : 0 < service.maxEncodedFrameBytes) (hmax : service.maxEncodedFrameBytes ≤ u64Max)
    (hfits : encodedJsonLineBytes (.ofResult id (respond answer)) ≤ responseLimit) :
    (Proc.lift (result.mapError protocolErrorFromQuery)).bind (fun answer =>
        sendUnary service.ser id (respond answer) responseLimit service.maxEncodedFrameBytes) =
        sendFrame (.ofResult id (respond answer)) ↔
      allowed ∧
        encodedJsonLineBytes (.ofResult id (respond answer)) ≤ service.maxEncodedFrameBytes := by
  rcases h with ⟨hallowed, rfl⟩ | ⟨hrefused, error, rfl⟩
  · change sendUnary service.ser id (respond answer) responseLimit service.maxEncodedFrameBytes =
      _ ↔ _
    rw [sendUnary_eq hpos hmax hfits]
    split
    · rename_i hframe
      exact ⟨fun _ => ⟨hallowed, hframe⟩, fun _ => rfl⟩
    · rename_i hframe
      exact ⟨fun h => absurd h (sendFrame_ne_fail _ _), fun h => absurd h.2 hframe⟩
  · exact ⟨fun h => absurd h (sendFrame_ne_fail _ (protocolErrorFromQuery error)),
      fun h => absurd h.1 hrefused⟩

/-! ## Both methods -/

variable {opened : OpenedVcd} {commands : List ParseResult} {std : StdText} {fst : FstEnv η}

/-- The work of the search of a find request. -/
def findRequestWork (opened : OpenedVcd) (std : StdText) (commands : List ParseResult)
    (params : Requests.FindParams) : List Work :=
  findWork std (parseTargetValue std params.value) params.occurrence.toNat
    (extractWork (opened.catalog.requested [params.signal])
      (requestWindow params.start params.end_) 0 commands)

/-- The work of the count of a toggles request. -/
def togglesRequestWork (opened : OpenedVcd) (commands : List ParseResult)
    (params : Requests.TogglesParams) : List Work :=
  extractWork (opened.catalog.requested params.signals)
    (requestWindow params.start params.end_) 0 commands

def findFrame (id : String) (std : StdText) (params : Requests.FindParams)
    (answer : Option TimeValue × Nat) : ResponseFrame :=
  .ofResult id (findResult std.floatText params.signal answer.1 answer.2)

def togglesFrame (id : String) (params : Requests.TogglesParams) (counts : String → Option Nat) :
    ResponseFrame :=
  .ofResult id (togglesResult params.signals counts)

theorem findScan_endsBy {params : Requests.FindParams} {answer : Option TimeValue × Nat}
    (hsource : opened.Unchanged commands)
    (h : findScan (.vcd opened) std fst params {} = .ok answer) (limits : QueryLimits) :
    EndsBy (Allows limits 1 (findRequestWork opened std commands params)) answer
      (findScan (.vcd opened) std fst params limits) := by
  unfold findScan OpenedWaveform.findNthOccurrence at h ⊢
  by_cases hzero : params.occurrence.toNat = 0
  · rw [if_pos hzero] at h
    cases h
  · rw [if_neg hzero] at h ⊢
    have hlive : QueryContext.Live { limits := limits } := ⟨rfl, rfl⟩
    exact findNthOccurrence_limits hlive hsource h

theorem togglesScan_endsBy {params : Requests.TogglesParams} {answer : String → Option Nat}
    (hsource : opened.Unchanged commands)
    (h : togglesScan (.vcd opened) std fst params {} = some (.ok answer)) (limits : QueryLimits) :
    ∃ result, togglesScan (.vcd opened) std fst params limits = some result ∧
      EndsBy (Allows limits params.signals.length (togglesRequestWork opened commands params))
        answer result := by
  have hlive : QueryContext.Live { limits := limits } := ⟨rfl, rfl⟩
  exact countToggles_limits hlive hsource h

theorem servesFind_eq {params : Requests.FindParams}
    (hlimits : queryLimits service.limits (params.maxCommands.map UInt64.toNat) none
      (params.maxResponseBytes.map UInt64.toNat) = .ok (limits, responseLimit))
    (waveform : OpenedWaveform η) :
    service.servesFind id waveform std fst params limits =
      (Proc.lift ((findScan waveform std fst params limits).mapError protocolErrorFromQuery)).bind
        fun answer => sendUnary service.ser id
          (findResult std.floatText params.signal answer.1 answer.2) responseLimit
          service.maxEncodedFrameBytes := by
  unfold VcdService.servesFind VcdService.dispatchInner VcdService.dispatchFind
  simp only [hlimits, Proc.bind_eq, Proc.lift, Proc.bind_ok, withExpensiveScan, unbracket_bind,
    unbracket_bracket]
  cases findScan waveform std fst params limits with
  | error error => rfl
  | ok answer => exact unbracket_embed _

theorem servesToggles_eq {params : Requests.TogglesParams}
    (hlimits : queryLimits service.limits (params.maxCommands.map UInt64.toNat) none
      (params.maxResponseBytes.map UInt64.toNat) = .ok (limits, responseLimit))
    {waveform : OpenedWaveform η} {result : Except QueryError (String → Option Nat)}
    (hresult : togglesScan waveform std fst params limits = some result) :
    service.servesToggles id waveform std fst params limits =
      (Proc.lift (result.mapError protocolErrorFromQuery)).bind fun counts =>
        sendUnary service.ser id (togglesResult params.signals counts) responseLimit
          service.maxEncodedFrameBytes := by
  unfold VcdService.servesToggles VcdService.dispatchInner VcdService.dispatchToggles
  simp only [hlimits, hresult, Proc.bind_eq, Proc.lift, Proc.bind_ok, withExpensiveScan,
    unbracket_bind, unbracket_bracket]
  cases result with
  | error error => rfl
  | ok answer => exact unbracket_embed _

/-- A find request against the answer of its search without limits. -/
theorem servesFind_iff (hpos : 0 < service.maxEncodedFrameBytes)
    (hmax : service.maxEncodedFrameBytes ≤ u64Max) (hsource : opened.Unchanged commands)
    {params : Requests.FindParams} {answer : Option TimeValue × Nat}
    (hanswer : findScan (.vcd opened) std fst params {} = .ok answer)
    (hasks : service.Asks params.maxCommands params.maxResponseBytes limits responseLimit
      (findRequestWork opened std commands params) (findFrame id std params answer)) :
    service.servesFind id (.vcd opened) std fst params limits =
        sendFrame (findFrame id std params answer) ↔
      service.Passes responseLimit 1 (findRequestWork opened std commands params)
        (findFrame id std params answer) := by
  rw [servesFind_eq hasks.query, ← hasks.allows_iff]
  exact answered_iff (findScan_endsBy hsource hanswer limits)
    (fun answer => findResult std.floatText params.signal answer.1 answer.2) hpos hmax hasks.fits

/-- A toggles request against the answer of its count without limits. -/
theorem servesToggles_iff (hpos : 0 < service.maxEncodedFrameBytes)
    (hmax : service.maxEncodedFrameBytes ≤ u64Max) (hsource : opened.Unchanged commands)
    {params : Requests.TogglesParams} {counts : String → Option Nat}
    (hanswer : togglesScan (.vcd opened) std fst params {} = some (.ok counts))
    (hasks : service.Asks params.maxCommands params.maxResponseBytes limits responseLimit
      (togglesRequestWork opened commands params) (togglesFrame id params counts)) :
    service.servesToggles id (.vcd opened) std fst params limits =
        sendFrame (togglesFrame id params counts) ↔
      service.Passes responseLimit params.signals.length
        (togglesRequestWork opened commands params) (togglesFrame id params counts) := by
  obtain ⟨result, hresult, hends⟩ := togglesScan_endsBy hsource hanswer limits
  rw [servesToggles_eq hasks.query hresult, ← hasks.allows_iff]
  exact answered_iff hends
    (fun counts => togglesResult params.signals counts) hpos hmax hasks.fits

/-- **find and toggles are answered exactly when the rows they pass over, and
the logical bytes of these, are within the limits of their request**, besides
the number of signals and the cap on frames: the frame is then that of the
operation without limits. -/
theorem scans_answered_iff (service : VcdService) (id : String)
    (hpos : 0 < service.maxEncodedFrameBytes) (hmax : service.maxEncodedFrameBytes ≤ u64Max)
    (opened : OpenedVcd) (commands : List ParseResult) (hsource : opened.Unchanged commands)
    (std : StdText) (fst : FstEnv η) (limits : QueryLimits) (responseLimit : Nat) :
    (∀ (params : Requests.FindParams) (answer : Option TimeValue × Nat),
      findScan (.vcd opened) std fst params {} = .ok answer →
      service.Asks params.maxCommands params.maxResponseBytes limits responseLimit
        (findRequestWork opened std commands params) (findFrame id std params answer) →
      (service.servesFind id (.vcd opened) std fst params limits =
          sendFrame (findFrame id std params answer) ↔
        service.Passes responseLimit 1 (findRequestWork opened std commands params)
          (findFrame id std params answer))) ∧
    (∀ (params : Requests.TogglesParams) (counts : String → Option Nat),
      togglesScan (.vcd opened) std fst params {} = some (.ok counts) →
      service.Asks params.maxCommands params.maxResponseBytes limits responseLimit
        (togglesRequestWork opened commands params) (togglesFrame id params counts) →
      (service.servesToggles id (.vcd opened) std fst params limits =
          sendFrame (togglesFrame id params counts) ↔
        service.Passes responseLimit params.signals.length
          (togglesRequestWork opened commands params) (togglesFrame id params counts))) :=
  ⟨fun _ _ hanswer hasks => servesFind_iff hpos hmax hsource hanswer hasks,
    fun _ _ hanswer hasks => servesToggles_iff hpos hmax hsource hanswer hasks⟩

/-! ## Two changes before a row limit of one or two -/

/-- The service with so many rows for a response. -/
def rowService (maxRows : Nat) : VcdService where
  ser := .whole
  limits := { maxSignals := 4096, maxRows := maxRows, maxResponseBytes := 4096, maxCommands := 10 }
  runtime := .default

/-- A search for the second time that `a` is 1. -/
def secondParams : Requests.FindParams where
  signal := "a"
  value := "1"
  occurrence := 2
  start := none
  end_ := none
  maxCommands := none
  maxResponseBytes := none
  timeoutMs := none

def rowLimits (maxRows : Nat) : QueryLimits where
  maxSignals := some 4096
  maxRows := some maxRows
  maxResultBytes := some 4096
  maxCommands := some 10

theorem second_work : findRequestWork (aliasedVcd (manyChanges 2)) asciiText (manyChanges 2)
    secondParams = [.command, .row ⟨"a", 0, .text "1"⟩, .command, .row ⟨"a", 0, .text "1"⟩] := by
  decide

theorem second_found : findScan (.vcd (aliasedVcd (manyChanges 2))) asciiText bitEnv secondParams
    {} = .ok (some ⟨"a", 0, .text "1"⟩, 1) := by
  have hsource : (aliasedVcd (manyChanges 2)).Unchanged (manyChanges 2) := ⟨rfl, rfl⟩
  have hnames : ∀ name ∈ ["a"], ((aliasedVcd (manyChanges 2)).signal name).isSome := by decide
  have hlive : QueryContext.Live {} := ⟨rfl, rfl⟩
  have hdelivers := delivers_answers hlive hsource hnames rfl (requestWindow none none)
  have htwo : 1 ≤ 2 := by omega
  have hsearch : (aliasedVcd (manyChanges 2)).findNthOccurrence asciiText "a" (.integer 1) 2
      (requestWindow none none) {} = _ := findNthOccurrence_eq rfl htwo hdelivers
  exact hsearch.trans (by decide)

theorem second_asks (maxRows : Nat) : (rowService maxRows).Asks none none (rowLimits maxRows) 4096
    (findRequestWork (aliasedVcd (manyChanges 2)) asciiText (manyChanges 2) secondParams)
    (findFrame "q" asciiText secondParams (some ⟨"a", 0, .text "1"⟩, 1)) where
  query := by
    simp [queryLimits, lowerLimit, rowService, terminalFrameReserveBytes]
    rfl
  commands limit hlimit := by
    cases hlimit
    rw [second_work]
    decide
  fits := by decide +kernel

def countParams : Requests.TogglesParams where
  signals := ["a"]
  start := none
  end_ := none
  maxCommands := none
  maxResponseBytes := none
  timeoutMs := none

theorem count_counted : ∃ counts, togglesScan (.vcd (aliasedVcd (manyChanges 2))) asciiText bitEnv
    countParams {} = some (.ok counts) ∧ counts "a" = some 0 := by
  have hsource : (aliasedVcd (manyChanges 2)).Unchanged (manyChanges 2) := ⟨rfl, rfl⟩
  have hnames : ∀ name ∈ ["a"], ((aliasedVcd (manyChanges 2)).signal name).isSome := by decide
  have hlive : QueryContext.Live {} := ⟨rfl, rfl⟩
  have hdelivers := delivers_answers hlive hsource hnames rfl (requestWindow none none)
  exact ⟨_, (countToggles_eq rfl hdelivers).trans rfl, by decide⟩

theorem count_frame {counts : String → Option Nat} (h : counts "a" = some 0) :
    togglesFrame "q" countParams counts = togglesFrame "q" countParams (fun _ => some 0) := by
  simp [togglesFrame, togglesResult, countParams, h]

/-- With a limit of one row the search is refused, although its answer is one
frame of 146 bytes. -/
theorem find_refused_for_passed_rows :
    (aliasedVcd (manyChanges 2)).Unchanged (manyChanges 2) ∧
    findScan (.vcd (aliasedVcd (manyChanges 2))) asciiText bitEnv secondParams {} =
      .ok (some ⟨"a", 0, .text "1"⟩, 1) ∧
    (rowService 1).Asks none none (rowLimits 1) 4096
      (findRequestWork (aliasedVcd (manyChanges 2)) asciiText (manyChanges 2) secondParams)
      (findFrame "q" asciiText secondParams (some ⟨"a", 0, .text "1"⟩, 1)) ∧
    (rowService 1).servesFind "q" (.vcd (aliasedVcd (manyChanges 2))) asciiText bitEnv secondParams
        (rowLimits 1) ≠
      sendFrame (findFrame "q" asciiText secondParams (some ⟨"a", 0, .text "1"⟩, 1)) := by
  refine ⟨⟨rfl, rfl⟩, second_found, second_asks 1, fun hserved => ?_⟩
  have hpasses := (servesFind_iff (by decide) (by decide) ⟨rfl, rfl⟩ second_found
    (second_asks 1)).mp hserved
  have hrows := hpasses.rows
  rw [second_work] at hrows
  revert hrows
  decide

/-- With a limit of two rows both are answered. -/
theorem scans_answered_iff_two_rows :
    (rowService 2).servesFind "q" (.vcd (aliasedVcd (manyChanges 2))) asciiText bitEnv secondParams
        (rowLimits 2) =
      sendFrame (findFrame "q" asciiText secondParams (some ⟨"a", 0, .text "1"⟩, 1)) ∧
    (rowService 2).servesToggles "q" (.vcd (aliasedVcd (manyChanges 2))) asciiText bitEnv countParams
        (rowLimits 2) = sendFrame (togglesFrame "q" countParams fun _ => some 0) := by
  obtain ⟨hfind, htoggles⟩ := scans_answered_iff (rowService 2) "q" (by decide) (by decide)
    (aliasedVcd (manyChanges 2)) (manyChanges 2) ⟨rfl, rfl⟩ asciiText bitEnv (rowLimits 2) 4096
  obtain ⟨counts, hcounts, hzero⟩ := count_counted
  refine ⟨(hfind _ _ second_found (second_asks 2)).mpr ⟨by decide, ?_, ?_, by decide +kernel⟩, ?_⟩
  · rw [second_work]
    decide
  · rw [second_work]
    decide
  · rw [← count_frame hzero]
    refine (htoggles _ _ hcounts ⟨(second_asks 2).query, ?_, ?_⟩).mpr ⟨by decide, ?_, ?_, ?_⟩
    · intro limit hlimit
      cases hlimit
      decide
    · rw [count_frame hzero]
      decide +kernel
    · decide
    · decide
    · rw [count_frame hzero]
      decide +kernel

end VcdTools.Server
