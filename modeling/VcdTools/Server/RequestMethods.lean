import VcdTools.Server.RequestFields

/-! # What the method decoders accept

A method's decoder answers parameters exactly when they satisfy the validity
rules and the map agrees with their slots: it holds what the serializer would
write for them and nothing else. The one freedom is that a `find` may leave out
an occurrence of one. -/
namespace VcdTools.Server.Requests
open VcdTools.Lib VcdTools.Lib.Fields

/-! ## Validity -/

def IdOk (id : String) : Prop := 1 ≤ Json.strBytes id ∧ Json.strBytes id ≤ maxRequestIdBytes

def SignalsOk (signals : List String) : Prop := signals ≠ [] ∧ ∀ signal ∈ signals, signal ≠ ""

def WindowOk (start end_ : Option UInt64) : Prop := ∀ s ∈ start, ∀ e ∈ end_, s ≤ e

def LimitOk (limit : Option UInt64) : Prop := ∀ n ∈ limit, terminalFrameReserveBytes ≤ n.toNat

def RequestMethod.Valid : RequestMethod → Prop
  | .ping | .describe | .metadata _ => True
  | .list params => LimitOk params.maxResponseBytes
  | .extract params =>
    SignalsOk params.signals ∧ WindowOk params.start params.end_ ∧ LimitOk params.maxResponseBytes
  | .find params =>
    params.signal ≠ "" ∧ 1 ≤ params.occurrence ∧ WindowOk params.start params.end_ ∧
      LimitOk params.maxResponseBytes
  | .toggles params =>
    SignalsOk params.signals ∧ WindowOk params.start params.end_ ∧ LimitOk params.maxResponseBytes
  | .cancel params => IdOk params.requestId

def Request.Valid (request : Request) : Prop := IdOk request.id ∧ request.method.Valid

theorem bytes_eq_zero_iff {text : List Char} : Json.bytes text = 0 ↔ text = [] := by
  cases text with
  | nil => exact iff_of_true rfl rfl
  | cons c cs =>
    refine iff_of_false (fun h => ?_) (List.cons_ne_nil _ _)
    have hpos := c.utf8Size_pos
    rw [Json.bytes_cons] at h
    omega

theorem strBytes_pos_iff {text : String} : 1 ≤ Json.strBytes text ↔ text ≠ "" := by
  rw [Nat.one_le_iff_ne_zero, Json.strBytes, ne_eq, bytes_eq_zero_iff, ne_eq, ← String.toList_inj]
  exact Iff.rfl

theorem not_isEmpty_iff {text : String} : ¬ text.isEmpty = true ↔ text ≠ "" :=
  not_congr String.isEmpty_iff

theorem one_le_iff {n : UInt64} : ¬ n = 0 ↔ 1 ≤ n := by
  rw [UInt64.le_iff_toNat_le, ← UInt64.toNat_inj]
  exact Nat.one_le_iff_ne_zero.symm

theorem validateRequestId_ok_iff {id : String} : validateRequestId id = .ok ⟨⟩ ↔ IdOk id := by
  rw [validateRequestId, Fallible.refusal_ok_iff, Fallible.refusal_ok_iff, not_isEmpty_iff, IdOk,
    strBytes_pos_iff, Nat.not_lt]
  simp

theorem validateSignals_ok_iff {signals : List String} :
    validateSignals signals = .ok ⟨⟩ ↔ SignalsOk signals := by
  rw [validateSignals, Fallible.refusal_ok_iff, Fallible.refusal_ok_iff, SignalsOk]
  simp [List.forall_mem_ne']

theorem validateWindow_ok_iff {start end_ : Option UInt64} :
    validateWindow start end_ = .ok ⟨⟩ ↔ WindowOk start end_ := by
  cases start with
  | none => simp [validateWindow, WindowOk]
  | some s =>
    cases end_ with
    | none => simp [validateWindow, WindowOk]
    | some e =>
      rw [validateWindow, Fallible.refusal_ok_iff]
      simp [WindowOk]

theorem validateResponseLimit_ok_iff {limit : Option UInt64} :
    validateResponseLimit limit = .ok ⟨⟩ ↔ LimitOk limit := by
  cases limit with
  | none => simp [validateResponseLimit, LimitOk]
  | some n =>
    rw [validateResponseLimit, Fallible.refusal_ok_iff]
    simp [LimitOk]

/-! ## The methods -/

/-- The fields of each method. -/
def fieldNames : String → List String
  | "list" => ["filter", "max_rows", "max_response_bytes", "timeout_ms"]
  | "metadata" => ["timeout_ms", "max_commands"]
  | "extract" =>
    ["signals", "start", "end", "max_rows", "max_response_bytes", "max_commands", "timeout_ms"]
  | "find" =>
    ["signal", "value", "occurrence", "start", "end", "max_commands", "max_response_bytes",
      "timeout_ms"]
  | "toggles" => ["signals", "start", "end", "max_commands", "max_response_bytes", "timeout_ms"]
  | "cancel" => ["request_id"]
  | _ => []

theorem slots_names (method : RequestMethod) :
    method.slots.map Prod.fst = fieldNames method.name := by
  cases method <;> rfl

theorem fieldNames_nodup (name : String) : (fieldNames name).Nodup := by
  unfold fieldNames
  split <;> decide

theorem slots_nodup (method : RequestMethod) : (method.slots.map Prod.fst).Nodup := by
  rw [slots_names]
  exact fieldNames_nodup method.name

/-- The map holds what the serializer writes for the method, and nothing else. -/
def Agrees (look : String → Option JsonValue) (method : RequestMethod) : Prop :=
  ∀ k, look k = slot method.slots k

/-- Field by field; `taken` are the names that a decoder asked for, in any order. -/
theorem agrees_taken_iff {method : RequestMethod} {look : String → Option JsonValue}
    {taken : List String} (h : taken.Perm (fieldNames method.name)) :
    Agrees look method ↔
      (∀ s ∈ method.slots, look s.1 = s.2) ∧ ∀ k, k ∉ taken → look k = none := by
  rw [Agrees, agrees_iff (slots_nodup method), slots_names]
  simp only [h.mem_iff]

theorem parseList_takes :
    Takes [] ["timeout_ms", "max_response_bytes", "max_rows", "filter"] parseList
      fun look params => Agrees look (.list params) ∧ (RequestMethod.list params).Valid := by
  refine ((takeOptionalString_takes (by simp)).bind fun filter =>
    (takeOptionalDecimal_takes (by simp)).bind fun maxRows =>
    (takeOptionalDecimal_takes (by simp)).bind fun maxResponseBytes =>
    (takeOptionalDecimal_takes (by simp)).bind fun timeoutMs =>
    rejectUnknown_takes.bind fun _ => (Takes.check _).bind fun _ =>
    Takes.pure _).conseq fun look params => ?_
  rw [agrees_taken_iff (show List.Perm
    ["timeout_ms", "max_response_bytes", "max_rows", "filter"] (fieldNames "list") by decide)]
  simp only [RequestMethod.slots, ListParams.slots, List.forall_mem_cons, RequestMethod.Valid]
  constructor
  · rintro ⟨_, hfilter, _, hrows, _, hbytes, _, htimeout, _, hrest, _, hlimit, rfl⟩
    exact ⟨⟨⟨hfilter, hrows, hbytes, htimeout, List.forall_mem_nil _⟩, hrest⟩,
      validateResponseLimit_ok_iff.mp hlimit⟩
  · rintro ⟨⟨⟨hfilter, hrows, hbytes, htimeout, _⟩, hrest⟩, hlimit⟩
    exact ⟨_, hfilter, _, hrows, _, hbytes, _, htimeout, ⟨⟩, hrest, ⟨⟩,
      validateResponseLimit_ok_iff.mpr hlimit, rfl⟩

theorem parseMetadata_takes :
    Takes [] ["max_commands", "timeout_ms"] parseMetadata
      fun look params => Agrees look (.metadata params) := by
  refine ((takeOptionalDecimal_takes (by simp)).bind fun timeoutMs =>
    (takeOptionalDecimal_takes (by simp)).bind fun maxCommands =>
    rejectUnknown_takes.bind fun _ => Takes.pure _).conseq fun look params => ?_
  rw [agrees_taken_iff (show List.Perm ["max_commands", "timeout_ms"]
    (fieldNames "metadata") by decide)]
  simp only [RequestMethod.slots, MetadataParams.slots, List.forall_mem_cons]
  constructor
  · rintro ⟨_, htimeout, _, hcommands, _, hrest, rfl⟩
    exact ⟨⟨htimeout, hcommands, List.forall_mem_nil _⟩, hrest⟩
  · rintro ⟨⟨htimeout, hcommands, _⟩, hrest⟩
    exact ⟨_, htimeout, _, hcommands, ⟨⟩, hrest, rfl⟩

theorem parseExtract_takes :
    Takes [] ["timeout_ms", "max_commands", "max_response_bytes", "max_rows", "end", "start",
        "signals"] parseExtract
      fun look params => Agrees look (.extract params) ∧ (RequestMethod.extract params).Valid := by
  refine ((takeRequiredStrings_takes (by simp)).bind fun signals =>
    (Takes.check _).bind fun _ =>
    (takeOptionalDecimal_takes (by simp)).bind fun start =>
    (takeOptionalDecimal_takes (by simp)).bind fun end_ =>
    (takeOptionalDecimal_takes (by simp)).bind fun maxRows =>
    (takeOptionalDecimal_takes (by simp)).bind fun maxResponseBytes =>
    (takeOptionalDecimal_takes (by simp)).bind fun maxCommands =>
    (takeOptionalDecimal_takes (by simp)).bind fun timeoutMs =>
    rejectUnknown_takes.bind fun _ => (Takes.check _).bind fun _ =>
    (Takes.check _).bind fun _ => Takes.pure _).conseq fun look params => ?_
  rw [agrees_taken_iff (show List.Perm ["timeout_ms", "max_commands", "max_response_bytes",
    "max_rows", "end", "start", "signals"] (fieldNames "extract") by decide)]
  simp only [RequestMethod.slots, ExtractParams.slots, List.forall_mem_cons, RequestMethod.Valid]
  constructor
  · rintro ⟨_, hsignals, _, hvalid, _, hstart, _, hend, _, hrows, _, hbytes, _, hcommands, _,
      htimeout, _, hrest, _, hwindow, _, hlimit, rfl⟩
    exact ⟨⟨⟨hsignals, hstart, hend, hrows, hbytes, hcommands, htimeout, List.forall_mem_nil _⟩,
      hrest⟩, validateSignals_ok_iff.mp hvalid, validateWindow_ok_iff.mp hwindow,
      validateResponseLimit_ok_iff.mp hlimit⟩
  · rintro ⟨⟨⟨hsignals, hstart, hend, hrows, hbytes, hcommands, htimeout, _⟩, hrest⟩, hvalid,
      hwindow, hlimit⟩
    exact ⟨_, hsignals, ⟨⟩, validateSignals_ok_iff.mpr hvalid, _, hstart, _, hend, _, hrows, _,
      hbytes, _, hcommands, _, htimeout, ⟨⟩, hrest, ⟨⟩, validateWindow_ok_iff.mpr hwindow, ⟨⟩,
      validateResponseLimit_ok_iff.mpr hlimit, rfl⟩

theorem parseToggles_takes :
    Takes [] ["timeout_ms", "max_response_bytes", "max_commands", "end", "start", "signals"]
      parseToggles
      fun look params => Agrees look (.toggles params) ∧ (RequestMethod.toggles params).Valid := by
  refine ((takeRequiredStrings_takes (by simp)).bind fun signals =>
    (Takes.check _).bind fun _ =>
    (takeOptionalDecimal_takes (by simp)).bind fun start =>
    (takeOptionalDecimal_takes (by simp)).bind fun end_ =>
    (takeOptionalDecimal_takes (by simp)).bind fun maxCommands =>
    (takeOptionalDecimal_takes (by simp)).bind fun maxResponseBytes =>
    (takeOptionalDecimal_takes (by simp)).bind fun timeoutMs =>
    rejectUnknown_takes.bind fun _ => (Takes.check _).bind fun _ =>
    (Takes.check _).bind fun _ => Takes.pure _).conseq fun look params => ?_
  rw [agrees_taken_iff (show List.Perm ["timeout_ms", "max_response_bytes", "max_commands", "end",
    "start", "signals"] (fieldNames "toggles") by decide)]
  simp only [RequestMethod.slots, TogglesParams.slots, List.forall_mem_cons, RequestMethod.Valid]
  constructor
  · rintro ⟨_, hsignals, _, hvalid, _, hstart, _, hend, _, hcommands, _, hbytes, _, htimeout, _,
      hrest, _, hwindow, _, hlimit, rfl⟩
    exact ⟨⟨⟨hsignals, hstart, hend, hcommands, hbytes, htimeout, List.forall_mem_nil _⟩, hrest⟩,
      validateSignals_ok_iff.mp hvalid, validateWindow_ok_iff.mp hwindow,
      validateResponseLimit_ok_iff.mp hlimit⟩
  · rintro ⟨⟨⟨hsignals, hstart, hend, hcommands, hbytes, htimeout, _⟩, hrest⟩, hvalid, hwindow,
      hlimit⟩
    exact ⟨_, hsignals, ⟨⟩, validateSignals_ok_iff.mpr hvalid, _, hstart, _, hend, _, hcommands, _,
      hbytes, _, htimeout, ⟨⟩, hrest, ⟨⟩, validateWindow_ok_iff.mpr hwindow, ⟨⟩,
      validateResponseLimit_ok_iff.mpr hlimit, rfl⟩

theorem parseCancel_takes :
    Takes [] ["request_id"] parseCancel
      fun look params => Agrees look (.cancel params) ∧ (RequestMethod.cancel params).Valid := by
  refine ((takeString_takes (by simp)).bind fun requestId =>
    (Takes.check _).bind fun _ => rejectUnknown_takes.bind fun _ =>
    Takes.pure _).conseq fun look params => ?_
  rw [agrees_taken_iff (show List.Perm ["request_id"] (fieldNames "cancel") by decide)]
  simp only [RequestMethod.slots, CancelParams.slots, List.forall_mem_cons, RequestMethod.Valid]
  constructor
  · rintro ⟨_, hid, _, hvalid, _, hrest, rfl⟩
    exact ⟨⟨⟨hid, List.forall_mem_nil _⟩, hrest⟩, validateRequestId_ok_iff.mp hvalid⟩
  · rintro ⟨⟨⟨hid, _⟩, hrest⟩, hvalid⟩
    exact ⟨_, hid, ⟨⟩, validateRequestId_ok_iff.mpr hvalid, ⟨⟩, hrest, rfl⟩

/-- The parameters as the decoder understands them: a `find` without an
occurrence asks for the first. -/
def withDefaults (name : String) (look : String → Option JsonValue) (k : String) :
    Option JsonValue :=
  if name = "find" ∧ k = "occurrence" then some ((look k).getD (decimalUsize 1)) else look k

theorem withDefaults_other {name : String} (h : name ≠ "find") (look : String → Option JsonValue) :
    withDefaults name look = look := by
  funext k
  exact if_neg fun hn => h hn.1

theorem withDefaults_field {name k : String} (h : k ≠ "occurrence")
    (look : String → Option JsonValue) : withDefaults name look k = look k :=
  if_neg fun hn => h hn.2

/-- The default adds no field to those that a decoder asked for. -/
theorem withDefaults_rest {name : String} {look : String → Option JsonValue} {taken : List String}
    (h : "occurrence" ∈ taken) :
    (∀ k, k ∉ taken → withDefaults name look k = none) ↔ ∀ k, k ∉ taken → look k = none := by
  refine forall_congr' fun k => imp_congr_right fun hk => ?_
  have hne : k ≠ "occurrence" := fun heq => hk (heq ▸ h)
  rw [withDefaults_field hne]

/-- The default stands for an occurrence that is not there. -/
theorem withDefaults_occurrence {look : String → Option JsonValue} {occurrence : UInt64} :
    withDefaults "find" look "occurrence" = some (decimalUsize occurrence) ↔
      ∃ n, look "occurrence" = optionDecimal n ∧ n.getD 1 = occurrence := by
  have hinj : ∀ {a b : UInt64}, decimalUsize a = decimalUsize b → a = b := fun h =>
    UInt64.toNat_inj.mp (Decimal.repr_injective (JsonValue.string.inj h))
  rw [withDefaults, if_pos ⟨rfl, rfl⟩, Option.some_inj]
  constructor
  · intro h
    cases hlook : look "occurrence" with
    | none =>
      rw [hlook] at h
      exact ⟨none, rfl, hinj h⟩
    | some value =>
      rw [hlook] at h
      exact ⟨some occurrence, congrArg some h, rfl⟩
  · rintro ⟨n, hlook, rfl⟩
    rw [hlook]
    cases n <;> rfl

theorem parseFind_takes :
    Takes [] ["timeout_ms", "max_response_bytes", "max_commands", "end", "start", "value",
        "occurrence", "signal"] parseFind
      fun look params =>
        Agrees (withDefaults "find" look) (.find params) ∧ (RequestMethod.find params).Valid := by
  refine ((takeString_takes (by simp)).bind fun signal => (Takes.check _).bind fun _ =>
    (takeOptionalDecimalUsize_takes (by simp)).bind fun occurrence =>
    (Takes.check _).bind fun _ =>
    (takeString_takes (by simp)).bind fun value =>
    (takeOptionalDecimal_takes (by simp)).bind fun start =>
    (takeOptionalDecimal_takes (by simp)).bind fun end_ =>
    (takeOptionalDecimal_takes (by simp)).bind fun maxCommands =>
    (takeOptionalDecimal_takes (by simp)).bind fun maxResponseBytes =>
    (takeOptionalDecimal_takes (by simp)).bind fun timeoutMs =>
    rejectUnknown_takes.bind fun _ => (Takes.check _).bind fun _ =>
    (Takes.check _).bind fun _ => Takes.pure _).conseq fun look params => ?_
  rw [agrees_taken_iff (show List.Perm ["timeout_ms", "max_response_bytes", "max_commands", "end",
    "start", "value", "occurrence", "signal"] (fieldNames "find") by decide),
    withDefaults_rest (by simp)]
  simp only [RequestMethod.slots, FindParams.slots, List.forall_mem_cons, RequestMethod.Valid,
    withDefaults_occurrence, withDefaults_field, ne_eq, String.reduceEq, not_false_eq_true]
  constructor
  · rintro ⟨_, hname, _, hne, n, hn, _, hpos, _, hvalue, _, hstart, _, hend, _, hcommands, _,
      hbytes, _, htimeout, _, hnone, _, hwindow, _, hlimit, rfl⟩
    exact ⟨⟨⟨hname, hvalue, ⟨n, hn, rfl⟩, hstart, hend, hcommands, hbytes, htimeout,
      List.forall_mem_nil _⟩, hnone⟩, not_isEmpty_iff.mp (Fallible.refusal_ok_iff.mp hne).1,
      one_le_iff.mp (Fallible.refusal_ok_iff.mp hpos).1, validateWindow_ok_iff.mp hwindow,
      validateResponseLimit_ok_iff.mp hlimit⟩
  · rintro ⟨⟨⟨hname, hvalue, ⟨n, hn, hocc⟩, hstart, hend, hcommands, hbytes, htimeout, _⟩, hnone⟩,
      hne, hpos, hwindow, hlimit⟩
    refine ⟨_, hname, ⟨⟩, Fallible.refusal_ok_iff.mpr ⟨not_isEmpty_iff.mpr hne, rfl⟩, n, hn, ⟨⟩,
      Fallible.refusal_ok_iff.mpr ⟨one_le_iff.mpr (hocc ▸ hpos), rfl⟩, _, hvalue, _, hstart, _,
      hend, _, hcommands, _, hbytes, _, htimeout, ⟨⟩, hnone, ⟨⟩, validateWindow_ok_iff.mpr hwindow,
      ⟨⟩, validateResponseLimit_ok_iff.mpr hlimit, ?_⟩
    rw [hocc]

/-! ## Every method -/

/-- A method's case, from its decoder's contract. -/
theorem decode_case {β : Type} (make : β → RequestMethod) {name : String} {decoder : Params β}
    {taken : List String} {R : (String → Option JsonValue) → β → Prop}
    (h : Takes [] taken decoder R)
    (hR : ∀ look params, R look params ↔
      Agrees (withDefaults name look) (make params) ∧ (make params).Valid)
    (hname : ∀ method, name = RequestMethod.name method ↔ ∃ params, method = make params)
    (fields : List (String × JsonValue)) (method : RequestMethod) :
    decode (make <$> decoder) fields = .ok method ↔
      name = method.name ∧ method.Valid ∧ Agrees (withDefaults name (get fields)) method := by
  rw [(h.map make).decode_iff, hname]
  constructor
  · rintro ⟨params, hp, rfl⟩
    obtain ⟨hagrees, hvalid⟩ := (hR _ _).mp hp
    exact ⟨⟨params, rfl⟩, hvalid, hagrees⟩
  · rintro ⟨⟨params, rfl⟩, hvalid, hagrees⟩
    exact ⟨params, (hR _ _).mpr ⟨hagrees, hvalid⟩, rfl⟩

/-- **A method's parameters are accepted exactly when they are those of a valid
method of that name, defaults filled in.** -/
theorem parseMethod_ok_iff (name : String) (fields : List (String × JsonValue))
    (method : RequestMethod) :
    decode (parseMethod name) fields = .ok method ↔
      name = method.name ∧ method.Valid ∧ Agrees (withDefaults name (get fields)) method := by
  have hplain : ∀ {method : RequestMethod} {look : String → Option JsonValue},
      fieldNames method.name = [] → (Agrees look method ↔ ∀ k, k ∉ [] → look k = none) := by
    intro method look hnames
    have hslots : method.slots = [] := by
      rw [← List.map_eq_nil_iff, slots_names, hnames]
    have hperm : List.Perm [] (fieldNames method.name) := by rw [hnames]
    rw [agrees_taken_iff hperm, hslots]
    exact and_iff_right (List.forall_mem_nil _)
  unfold parseMethod
  split
  · exact decode_case (fun _ => .ping) rejectUnknown_takes
      (fun look _ => by
        rw [withDefaults_other (by simp), hplain rfl]
        exact (and_iff_left trivial).symm)
      (fun method => by cases method <;> simp [RequestMethod.name]) fields method
  · exact decode_case (fun _ => .describe) rejectUnknown_takes
      (fun look _ => by
        rw [withDefaults_other (by simp), hplain rfl]
        exact (and_iff_left trivial).symm)
      (fun method => by cases method <;> simp [RequestMethod.name]) fields method
  · exact decode_case .list parseList_takes (fun look _ => by rw [withDefaults_other (by simp)])
      (fun method => by cases method <;> simp [RequestMethod.name]) fields method
  · exact decode_case .metadata parseMetadata_takes
      (fun look _ => by
        rw [withDefaults_other (by simp)]
        exact (and_iff_left trivial).symm)
      (fun method => by cases method <;> simp [RequestMethod.name]) fields method
  · exact decode_case .extract parseExtract_takes
      (fun look _ => by rw [withDefaults_other (by simp)])
      (fun method => by cases method <;> simp [RequestMethod.name]) fields method
  · exact decode_case .find parseFind_takes (fun look _ => Iff.rfl)
      (fun method => by cases method <;> simp [RequestMethod.name]) fields method
  · exact decode_case .toggles parseToggles_takes
      (fun look _ => by rw [withDefaults_other (by simp)])
      (fun method => by cases method <;> simp [RequestMethod.name]) fields method
  · exact decode_case .cancel parseCancel_takes (fun look _ => by rw [withDefaults_other (by simp)])
      (fun method => by cases method <;> simp [RequestMethod.name]) fields method
  · -- no method has another name
    rename_i hping hdescribe hlist hmetadata hextract hfind htoggles hcancel
    refine iff_of_false (fun h => (by cases h)) fun h => ?_
    have hname := h.1
    cases method with
    | ping => exact hping hname
    | describe => exact hdescribe hname
    | list _ => exact hlist hname
    | metadata _ => exact hmetadata hname
    | extract _ => exact hextract hname
    | find _ => exact hfind hname
    | toggles _ => exact htoggles hname
    | cancel _ => exact hcancel hname

end VcdTools.Server.Requests
