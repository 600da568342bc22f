import VcdTools.Server.RequestGrammar

/-! # The request codec

A line is decoded to a request exactly when its strict JSON is an object whose
four known fields are those of a valid request. The encoder writes such an
object, so that decoding is inverse to encoding on valid requests. -/
namespace VcdTools.Server.Requests
open VcdTools.Lib VcdTools.Lib.Fields

/-! ## The strict reading of an encoding -/

theorem strictItems_strings (texts : List String) :
    strictItems (itemEvents (texts.map JsonValue.string)) = .ok (texts.map JsonValue.string) := by
  induction texts with
  | nil => rfl
  | cons text texts ih =>
    show (strictItems (itemEvents (texts.map JsonValue.string))).bind _ = _
    rw [ih]
    rfl

/-- Entries whose values read back, and whose keys are new, are inserted one by one. -/
theorem strictEntries_fold (fields : List (String × JsonValue)) :
    ∀ (seen : List String) (values : List (String × JsonValue)),
      (∀ field ∈ fields, strictValue field.2.events = .ok field.2) →
      (fields.map Prod.fst).Nodup → (∀ key ∈ seen, key ∉ fields.map Prod.fst) →
      strictEntries seen values (entryEvents fields) =
        .ok (fields.foldl (fun map (key, value) => insert key value map) values) := by
  induction fields with
  | nil =>
    intro seen values _ _ _
    rfl
  | cons field fields ih =>
    intro seen values hvalues hnodup hseen
    obtain ⟨key, value⟩ := field
    obtain ⟨hkey, hrest⟩ := List.nodup_cons.mp hnodup
    have hnew : key ∉ seen := fun hmem => hseen key hmem List.mem_cons_self
    show (if key ∈ seen then _ else _) = _
    rw [if_neg hnew]
    show (strictValue value.events).bind _ = _
    rw [hvalues (key, value) List.mem_cons_self]
    refine ih (key :: seen) _ (fun f hf => hvalues f (List.mem_cons_of_mem _ hf)) hrest ?_
    intro key' hmem
    rcases List.mem_cons.mp hmem with rfl | hmem
    · exact hkey
    · exact fun hin => hseen key' hmem (List.mem_cons_of_mem _ hin)

theorem strictEntries_ofList {fields : List (String × JsonValue)}
    (hvalues : ∀ field ∈ fields, strictValue field.2.events = .ok field.2)
    (hnodup : (fields.map Prod.fst).Nodup) :
    strictEntries [] [] (entryEvents fields) = .ok (ofList fields) :=
  strictEntries_fold fields [] [] hvalues hnodup fun _ h => (by cases h)

/-- The values that parameters hold read back as they are. -/
theorem strictValue_slot (method : RequestMethod) {key : String} {value : JsonValue}
    (h : (key, value) ∈ present method.slots) : strictValue value.events = .ok value := by
  have hdecimal : ∀ {n : Option UInt64} {value : JsonValue}, optionDecimal n = some value →
      strictValue value.events = .ok value := by
    intro n value hn
    obtain ⟨n, rfl, rfl⟩ := Option.map_eq_some_iff.mp hn
    rfl
  have hstrings : ∀ texts, strictValue (strings texts).events = .ok (strings texts) := by
    intro texts
    show (strictItems (itemEvents (texts.map JsonValue.string))).bind _ = _
    rw [strictItems_strings]
    rfl
  have htext : ∀ {text : Option String} {value : JsonValue},
      text.map JsonValue.string = some value → strictValue value.events = .ok value := by
    intro text value ht
    obtain ⟨text, rfl, rfl⟩ := Option.map_eq_some_iff.mp ht
    rfl
  have hall : ∀ slot ∈ method.slots, ∀ value, slot.2 = some value →
      strictValue value.events = .ok value := by
    cases method with
    | ping => exact List.forall_mem_nil _
    | describe => exact List.forall_mem_nil _
    | list params =>
      simp only [RequestMethod.slots, ListParams.slots, List.forall_mem_cons]
      exact ⟨fun _ => htext, fun _ => hdecimal, fun _ => hdecimal, fun _ => hdecimal,
        List.forall_mem_nil _⟩
    | metadata params =>
      simp only [RequestMethod.slots, MetadataParams.slots, List.forall_mem_cons]
      exact ⟨fun _ => hdecimal, fun _ => hdecimal, List.forall_mem_nil _⟩
    | extract params =>
      simp only [RequestMethod.slots, ExtractParams.slots, List.forall_mem_cons]
      exact ⟨fun _ hv => Option.some.inj hv ▸ hstrings _, fun _ => hdecimal, fun _ => hdecimal,
        fun _ => hdecimal, fun _ => hdecimal, fun _ => hdecimal, fun _ => hdecimal,
        List.forall_mem_nil _⟩
    | find params =>
      simp only [RequestMethod.slots, FindParams.slots, List.forall_mem_cons]
      exact ⟨fun _ hv => Option.some.inj hv ▸ rfl, fun _ hv => Option.some.inj hv ▸ rfl,
        fun _ hv => Option.some.inj hv ▸ rfl, fun _ => hdecimal, fun _ => hdecimal,
        fun _ => hdecimal, fun _ => hdecimal, fun _ => hdecimal, List.forall_mem_nil _⟩
    | toggles params =>
      simp only [RequestMethod.slots, TogglesParams.slots, List.forall_mem_cons]
      exact ⟨fun _ hv => Option.some.inj hv ▸ hstrings _, fun _ => hdecimal, fun _ => hdecimal,
        fun _ => hdecimal, fun _ => hdecimal, fun _ => hdecimal, List.forall_mem_nil _⟩
    | cancel params =>
      simp only [RequestMethod.slots, CancelParams.slots, List.forall_mem_cons]
      exact ⟨fun _ hv => Option.some.inj hv ▸ rfl, List.forall_mem_nil _⟩
  obtain ⟨⟨key', value'⟩, hs, hv⟩ := List.mem_filterMap.mp h
  obtain ⟨v, hv', heq⟩ := Option.map_eq_some_iff.mp hv
  cases heq
  exact hall _ hs value hv'

/-- The parameters of a method read back as their map. -/
theorem strictValue_params (method : RequestMethod) :
    strictValue method.paramsValue.events = .ok method.paramsValue := by
  have hsorted := ofList_sorted (present method.slots)
  have hnodup := present_nodup (slots_nodup method)
  have hvalues : ∀ field ∈ ofList (present method.slots),
      strictValue field.2.events = .ok field.2 := by
    intro field hfield
    have hlookup : (ofList (present method.slots)).lookup field.1 = some field.2 :=
      lookup_of_mem hsorted.nodup hfield
    rw [lookup_ofList hnodup] at hlookup
    exact strictValue_slot method (mem_of_lookup hlookup)
  show (strictEntries [] [] (entryEvents (ofList (present method.slots)))).bind _ = _
  rw [strictEntries_ofList hvalues hsorted.nodup, hsorted.ofList_eq]
  rfl

/-! ## The envelope -/

/-- The four known fields of an envelope are those of the request. -/
structure Enveloped (look : String → Option JsonValue) (request : Request)
    (params : List (String × JsonValue)) : Prop where
  version : look "v" = some (.number (.posInt 1))
  id : look "id" = some (.string request.id)
  method : look "method" = some (.string request.method.name)
  parameters : look "params" = some (.object params)
  agrees : Agrees (withDefaults request.method.name (Fields.get params)) request.method

theorem checkVersion_ok_iff {value : JsonValue} :
    checkVersion value = .ok ⟨⟩ ↔ value = .number (.posInt 1) := by
  cases value with
  | number number =>
    cases number with
    | posInt n =>
      have hone : UInt64.ofNat protocolVersion = 1 := rfl
      rw [checkVersion, Number.asU64, hone]
      by_cases h : n = 1
      · subst h
        exact iff_of_true rfl rfl
      · rw [if_neg fun heq => h (Option.some.inj heq)]
        exact iff_of_false (fun h => (by cases h)) fun heq => (by cases heq; exact h rfl)
    | negInt n => exact iff_of_false (fun h => (by cases h)) (fun h => (by cases h))
    | float n => exact iff_of_false (fun h => (by cases h)) (fun h => (by cases h))
  | null => exact iff_of_false (fun h => (by cases h)) (fun h => (by cases h))
  | bool _ => exact iff_of_false (fun h => (by cases h)) (fun h => (by cases h))
  | string _ => exact iff_of_false (fun h => (by cases h)) (fun h => (by cases h))
  | array _ => exact iff_of_false (fun h => (by cases h)) (fun h => (by cases h))
  | object _ => exact iff_of_false (fun h => (by cases h)) (fun h => (by cases h))

theorem expectObject_ok_iff {value : JsonValue} {name : String}
    {fields : List (String × JsonValue)} :
    expectObject value name = .ok fields ↔ value = .object fields := by
  cases value with
  | object fields' =>
    exact ⟨fun h => congrArg _ (Except.ok.inj h), fun h => congrArg _ (JsonValue.object.inj h)⟩
  | null => exact iff_of_false (fun h => (by cases h)) (fun h => (by cases h))
  | bool _ => exact iff_of_false (fun h => (by cases h)) (fun h => (by cases h))
  | number _ => exact iff_of_false (fun h => (by cases h)) (fun h => (by cases h))
  | string _ => exact iff_of_false (fun h => (by cases h)) (fun h => (by cases h))
  | array _ => exact iff_of_false (fun h => (by cases h)) (fun h => (by cases h))

theorem decodeEnvelope_takes :
    Takes [] ["params", "method", "id", "v"] decodeEnvelope fun look request =>
      request.Valid ∧ ∃ params, Enveloped look request params := by
  refine ((takeRequired_takes (by decide)).bind fun version => (Takes.check _).bind fun _ =>
    (takeString_takes (by decide)).bind fun id => (Takes.check _).bind fun _ =>
    (takeString_takes (by decide)).bind fun methodName =>
    (takeRequired_takes (by decide)).bind fun params =>
    (Takes.check _).bind fun fields => (Takes.check _).bind fun method =>
    Takes.pure _).conseq fun look request => ?_
  constructor
  · rintro ⟨_, hversion, _, hv, _, hid, _, hidok, _, hname, _, hparams, fields, hobject, method,
      hmethod, rfl⟩
    obtain ⟨rfl, hvalid, hagrees⟩ := (parseMethod_ok_iff _ _ _).mp hmethod
    rw [checkVersion_ok_iff.mp hv] at hversion
    rw [expectObject_ok_iff.mp hobject] at hparams
    exact ⟨⟨validateRequestId_ok_iff.mp hidok, hvalid⟩, fields, hversion, hid, hname, hparams,
      hagrees⟩
  · rintro ⟨⟨hidok, hvalid⟩, fields, h⟩
    exact ⟨_, h.version, ⟨⟩, checkVersion_ok_iff.mpr rfl, _, h.id, ⟨⟩,
      validateRequestId_ok_iff.mpr hidok, _, h.method, _, h.parameters, fields,
      expectObject_ok_iff.mpr rfl, request.method,
      (parseMethod_ok_iff _ _ _).mpr ⟨rfl, hvalid, h.agrees⟩, rfl⟩

variable {serde : SerdeJson} {line : String} {request : Request}

/-- **The lines that decode to a request.** -/
theorem decodeRequest_ok_iff :
    decodeRequest serde line = .ok request ↔
      request.Valid ∧ ∃ envelope params,
        parseStrictJson serde line = .ok (.object envelope) ∧
          Enveloped (Fields.get envelope) request params := by
  rw [decodeRequest, Fallible.bind_ok_iff]
  constructor
  · rintro ⟨value, hparse, h⟩
    obtain ⟨envelope, hobject, hdecode⟩ := Fallible.bind_ok_iff.mp h
    obtain ⟨hvalid, params, henv⟩ := (decodeEnvelope_takes.decode_iff _ _).mp hdecode
    rw [expectObject_ok_iff.mp hobject] at hparse
    exact ⟨hvalid, envelope, params, hparse, henv⟩
  · rintro ⟨hvalid, envelope, params, hparse, henv⟩
    exact ⟨_, hparse, Fallible.bind_ok_iff.mpr ⟨envelope, expectObject_ok_iff.mpr rfl,
      (decodeEnvelope_takes.decode_iff _ _).mpr ⟨hvalid, params, henv⟩⟩⟩

/-- The deserializer reads back what the serializer printed of the tree. -/
def SerdeJson.Keeps (serde : SerdeJson) (tree : Events) : Prop :=
  serde.events (serde.print tree) = (tree, none)

theorem name_find {method : RequestMethod} (h : method.name = "find") :
    ∃ params, method = .find params := by
  cases method with
  | find params => exact ⟨params, rfl⟩
  | _ => simp [RequestMethod.name] at h

/-- What an encoding says is the request. -/
theorem decode_encode (hvalid : request.Valid) (h : serde.Keeps request.serialize) :
    decodeRequest serde (request.encode serde) = .ok request := by
  let entries : List (String × JsonValue) :=
    [("v", .number (.posInt 1)), ("id", .string request.id),
      ("method", .string request.method.name), ("params", request.method.paramsValue)]
  have hnodup : (entries.map Prod.fst).Nodup := by
    show ["v", "id", "method", "params"].Nodup
    decide
  have hvalues : ∀ field ∈ entries, strictValue field.2.events = .ok field.2 := by
    simp only [entries, List.forall_mem_cons]
    exact ⟨rfl, rfl, rfl, strictValue_params request.method, List.forall_mem_nil _⟩
  have hstrict : strictValue request.serialize = .ok (.object (ofList entries)) := by
    show (strictEntries [] [] (entryEvents entries)).bind _ = _
    rw [strictEntries_ofList hvalues hnodup]
    rfl
  have hparse : parseStrictJson serde (request.encode serde) =
      .ok (.object (ofList entries)) := by
    rw [parseStrictJson, Request.encode, h, hstrict]
  have hget : ∀ k, Fields.get (ofList entries) k = entries.lookup k := fun k => lookup_ofList hnodup k
  rw [decodeRequest_ok_iff]
  refine ⟨hvalid, _, ofList (present request.method.slots), hparse, ?_, ?_, ?_, ?_, ?_⟩
  · rw [hget]
    rfl
  · rw [hget]
    rfl
  · rw [hget]
    rfl
  · rw [hget]
    rfl
  · -- an encoding has every field, the default included
    have hslots : ∀ k, Fields.get (ofList (present request.method.slots)) k = slot request.method.slots k :=
      fun k => by
        rw [Fields.get, lookup_ofList (present_nodup (slots_nodup _)),
          lookup_present (slots_nodup request.method)]
    intro k
    rw [withDefaults]
    split
    · rename_i hdefault
      obtain ⟨hfind, rfl⟩ := hdefault
      rw [hslots]
      obtain ⟨params, hm⟩ := name_find hfind
      rw [hm]
      rfl
    · exact hslots k

/-- The envelope decoder looks at the four known fields only. -/
theorem decodeEnvelope_reads : Reads ["v", "id", "method", "params"] decodeEnvelope := by
  have hrequired : ∀ {field}, field ∈ ["v", "id", "method", "params"] →
      Reads ["v", "id", "method", "params"] (takeRequired field) := fun h =>
    (Reads.take h).bind fun _ => Reads.check _
  have hstring : ∀ {field}, field ∈ ["v", "id", "method", "params"] →
      Reads ["v", "id", "method", "params"] (takeString field) := fun h =>
    (hrequired h).bind fun _ => Reads.check _
  exact (hrequired (by decide)).bind fun _ => (Reads.check _).bind fun _ =>
    (hstring (by decide)).bind fun _ => (Reads.check _).bind fun _ =>
    (hstring (by decide)).bind fun _ => (hrequired (by decide)).bind fun _ =>
    (Reads.check _).bind fun _ => (Reads.check _).bind fun _ => Reads.pure _

/-! ## The codec -/

/-- What encoder and decoder promise of each other. -/
structure Codec (serde : SerdeJson) : Prop where
  /-- Decoding is inverse to encoding on valid requests. -/
  roundTrip : ∀ request : Request, request.Valid → serde.Keeps request.serialize →
    decodeRequest serde (request.encode serde) = .ok request
  /-- What is accepted is valid, and its encoding decodes to it again. -/
  accepted : ∀ line request, decodeRequest serde line = .ok request →
    request.Valid ∧ (serde.Keeps request.serialize →
      decodeRequest serde (request.encode serde) = .ok request)
  /-- A decimal is the canonical text of an integer in its field's range. -/
  decimals : ∀ name field least, DecimalField name field least →
    ∀ params value, Fields.get params field = some value →
      (∃ method, decode (parseMethod name) (without [field] params) = .ok method) →
      ((∃ method, decode (parseMethod name) params = .ok method) ↔
        (∃ n : UInt64, least ≤ n.toNat ∧ value = .string (Nat.repr n.toNat)) ∧
          WindowText (Fields.get params))
  /-- No method takes a parameter it does not have. -/
  unknownParameters : ∀ line envelope name params field,
    parseStrictJson serde line = .ok (.object envelope) →
    Fields.get envelope "method" = some (.string name) →
    Fields.get envelope "params" = some (.object params) →
    field ∉ fieldNames name → Fields.get params field ≠ none →
    ∃ error, decodeRequest serde line = .error error
  /-- Only the known fields of the envelope matter. -/
  unknownFields : ∀ line line' envelope envelope',
    parseStrictJson serde line = .ok (.object envelope) →
    parseStrictJson serde line' = .ok (.object envelope') →
    Agree ["v", "id", "method", "params"] envelope envelope' →
    decodeRequest serde line = decodeRequest serde line'

/-- **Encoder and decoder of requests agree.** -/
theorem request_codec (serde : SerdeJson) : Codec serde := by
  refine ⟨fun request => decode_encode, fun line request h => ?_, ?_, ?_, ?_⟩
  · obtain ⟨hvalid, _⟩ := decodeRequest_ok_iff.mp h
    exact ⟨hvalid, decode_encode hvalid⟩
  · intro name field least h params value hv hrest
    exact decimal_field_iff h hv hrest
  · intro line envelope name params field hparse hname hparams hfield hpresent
    cases hd : decodeRequest serde line with
    | error error => exact ⟨error, rfl⟩
    | ok request =>
      obtain ⟨hvalid, envelope', params', hparse', henv⟩ := decodeRequest_ok_iff.mp hd
      cases hparse.symm.trans hparse'
      cases hname.symm.trans henv.method
      cases hparams.symm.trans henv.parameters
      exact absurd ⟨request.method, (parseMethod_ok_iff _ _ _).mpr ⟨rfl, hvalid.2, henv.agrees⟩⟩
        (unknown_rejected hfield hpresent)
  · intro line line' envelope envelope' hparse hparse' hagree
    rw [decodeRequest, decodeRequest, hparse, hparse']
    exact decodeEnvelope_reads.decode_eq hagree

def cancelRequest : Request := { id := "b", method := .cancel { requestId := "a" } }

/-- A deserializer and a serializer on the one line of `cancelRequest`. -/
def cancelSerde : SerdeJson where
  events _ := (cancelRequest.serialize, none)
  display _ error := error
  print _ := "\x7b\"v\":1,\"id\":\"b\",\"method\":\"cancel\",\"params\":" ++
    "\x7b\"request_id\":\"a\"\x7d\x7d"

theorem request_codec_cancel :
    decodeRequest cancelSerde (cancelRequest.encode cancelSerde) = .ok cancelRequest :=
  (request_codec cancelSerde).roundTrip cancelRequest
    ⟨⟨by decide, by decide⟩, by decide, by decide⟩ rfl

end VcdTools.Server.Requests
