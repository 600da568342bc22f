import Mathlib.Data.List.Nodup
import VcdTools.Server.RequestMethods

/-! # The grammar of requests

What the protocol says of parameters, without the decoder: which fields a
method has, what each may hold, and that a window is not inverted. A map is
accepted exactly when it follows the grammar of its method. -/
namespace VcdTools.Server.Requests
open VcdTools.Lib VcdTools.Lib.Fields

inductive FieldKind
  /-- Any string. -/
  | text
  /-- A string that is not empty. -/
  | name
  | optionalText
  | names
  | requestId
  /-- The canonical decimal of a 64-bit integer from `least` on, or nothing. -/
  | decimal (least : Nat)
  deriving DecidableEq, Repr

def FieldKind.Accepts : FieldKind → Option JsonValue → Prop
  | .text, value => ∃ s, value = some (.string s)
  | .name, value => ∃ s, value = some (.string s) ∧ s ≠ ""
  | .optionalText, value => ∃ s : Option String, value = s.map .string
  | .names, value => ∃ texts, value = some (strings texts) ∧ SignalsOk texts
  | .requestId, value => ∃ s, value = some (.string s) ∧ IdOk s
  | .decimal least, value =>
    ∃ n : Option UInt64, value = optionDecimal n ∧ ∀ x ∈ n, least ≤ x.toNat

/-- The fields of a method; `none` for a name that is no method's. -/
def grammar : String → Option (List (String × FieldKind))
  | "ping" => some []
  | "describe" => some []
  | "list" => some
    [("filter", .optionalText), ("max_rows", .decimal 0),
      ("max_response_bytes", .decimal terminalFrameReserveBytes), ("timeout_ms", .decimal 0)]
  | "metadata" => some [("timeout_ms", .decimal 0), ("max_commands", .decimal 0)]
  | "extract" => some
    [("signals", .names), ("start", .decimal 0), ("end", .decimal 0), ("max_rows", .decimal 0),
      ("max_response_bytes", .decimal terminalFrameReserveBytes), ("max_commands", .decimal 0),
      ("timeout_ms", .decimal 0)]
  | "find" => some
    [("signal", .name), ("value", .text), ("occurrence", .decimal 1), ("start", .decimal 0),
      ("end", .decimal 0), ("max_commands", .decimal 0),
      ("max_response_bytes", .decimal terminalFrameReserveBytes), ("timeout_ms", .decimal 0)]
  | "toggles" => some
    [("signals", .names), ("start", .decimal 0), ("end", .decimal 0), ("max_commands", .decimal 0),
      ("max_response_bytes", .decimal terminalFrameReserveBytes), ("timeout_ms", .decimal 0)]
  | "cancel" => some [("request_id", .requestId)]
  | _ => none

/-- When both ends of the window are decimals, the start is not after the end. -/
def WindowText (look : String → Option JsonValue) : Prop :=
  ∀ start end_, look "start" = optionDecimal start → look "end" = optionDecimal end_ →
    WindowOk start end_

/-- The parameters follow the grammar of the method. -/
def Follows (name : String) (look : String → Option JsonValue) : Prop :=
  ∃ table, grammar name = some table ∧ (∀ field ∈ table, field.2.Accepts (look field.1)) ∧
    (∀ k, k ∉ table.map Prod.fst → look k = none) ∧ WindowText look

theorem grammar_names {name : String} {table : List (String × FieldKind)}
    (h : grammar name = some table) : table.map Prod.fst = fieldNames name := by
  unfold grammar at h
  split at h <;> cases h <;> rfl

theorem optionDecimal_injective {a b : Option UInt64} (h : optionDecimal a = optionDecimal b) :
    a = b := by
  cases a with
  | none =>
    cases b with
    | none => rfl
    | some b => cases h
  | some a =>
    cases b with
    | none => cases h
    | some b =>
      have hrepr := JsonValue.string.inj (Option.some.inj h)
      exact congrArg some (UInt64.toNat_inj.mp (Decimal.repr_injective hrepr))

/-- A window that is read is the one that is checked. -/
theorem windowText_iff {look : String → Option JsonValue} {start end_ : Option UInt64}
    (hstart : look "start" = optionDecimal start) (hend : look "end" = optionDecimal end_) :
    WindowText look ↔ WindowOk start end_ := by
  constructor
  · intro h
    exact h start end_ hstart hend
  · intro h start' end' hstart' hend'
    rw [optionDecimal_injective (hstart'.symm.trans hstart),
      optionDecimal_injective (hend'.symm.trans hend)]
    exact h

theorem windowText_none {look : String → Option JsonValue} (h : look "start" = none) :
    WindowText look := by
  intro start end_ hstart _
  cases start with
  | none => exact fun _ hs => (by cases hs)
  | some s =>
    rw [h] at hstart
    cases hstart

theorem decimal_any (n : Option UInt64) : (FieldKind.decimal 0).Accepts (optionDecimal n) :=
  ⟨n, rfl, fun _ _ => Nat.zero_le _⟩

/-! ## Accepted parameters follow the grammar -/

/-- What a valid method writes follows its grammar. -/
theorem slots_accepted (method : RequestMethod) (h : method.Valid) :
    ∃ table, grammar method.name = some table ∧
      ∀ field ∈ table, field.2.Accepts (slot method.slots field.1) := by
  cases method with
  | ping => exact ⟨_, rfl, List.forall_mem_nil _⟩
  | describe => exact ⟨_, rfl, List.forall_mem_nil _⟩
  | list params =>
    refine ⟨_, rfl, ?_⟩
    simp only [List.forall_mem_cons]
    exact ⟨⟨params.filter, rfl⟩, decimal_any params.maxRows, ⟨params.maxResponseBytes, rfl, h⟩,
      decimal_any params.timeoutMs, List.forall_mem_nil _⟩
  | metadata params =>
    refine ⟨_, rfl, ?_⟩
    simp only [List.forall_mem_cons]
    exact ⟨decimal_any params.timeoutMs, decimal_any params.maxCommands, List.forall_mem_nil _⟩
  | extract params =>
    refine ⟨_, rfl, ?_⟩
    simp only [List.forall_mem_cons]
    exact ⟨⟨params.signals, rfl, h.1⟩, decimal_any params.start, decimal_any params.end_,
      decimal_any params.maxRows, ⟨params.maxResponseBytes, rfl, h.2.2⟩,
      decimal_any params.maxCommands, decimal_any params.timeoutMs, List.forall_mem_nil _⟩
  | find params =>
    refine ⟨_, rfl, ?_⟩
    simp only [List.forall_mem_cons]
    refine ⟨⟨params.signal, rfl, h.1⟩, ⟨params.value, rfl⟩, ⟨some params.occurrence, rfl, ?_⟩,
      decimal_any params.start, decimal_any params.end_, decimal_any params.maxCommands,
      ⟨params.maxResponseBytes, rfl, h.2.2.2⟩, decimal_any params.timeoutMs,
      List.forall_mem_nil _⟩
    intro n hn
    cases hn
    exact UInt64.le_iff_toNat_le.mp h.2.1
  | toggles params =>
    refine ⟨_, rfl, ?_⟩
    simp only [List.forall_mem_cons]
    exact ⟨⟨params.signals, rfl, h.1⟩, decimal_any params.start, decimal_any params.end_,
      decimal_any params.maxCommands, ⟨params.maxResponseBytes, rfl, h.2.2⟩,
      decimal_any params.timeoutMs, List.forall_mem_nil _⟩
  | cancel params =>
    refine ⟨_, rfl, ?_⟩
    simp only [List.forall_mem_cons]
    exact ⟨⟨params.requestId, rfl, h⟩, List.forall_mem_nil _⟩

/-- A valid method's window is not inverted. -/
theorem slots_window (method : RequestMethod) (h : method.Valid) :
    WindowText (slot method.slots) := by
  cases method with
  | ping => exact windowText_none rfl
  | describe => exact windowText_none rfl
  | list params => exact windowText_none rfl
  | metadata params => exact windowText_none rfl
  | extract params => exact (windowText_iff rfl rfl).mpr h.2.1
  | find params => exact (windowText_iff rfl rfl).mpr h.2.2.1
  | toggles params => exact (windowText_iff rfl rfl).mpr h.2.1
  | cancel params => exact windowText_none rfl

/-- An occurrence that may stand for one that is not there. -/
theorem accepts_default {value : Option JsonValue}
    (h : (FieldKind.decimal 1).Accepts (some (value.getD (decimalUsize 1)))) :
    (FieldKind.decimal 1).Accepts value := by
  cases value with
  | none => exact ⟨none, rfl, fun _ hx => (by cases hx)⟩
  | some value => exact h

theorem follows_of_agrees {method : RequestMethod} {look : String → Option JsonValue}
    (hvalid : method.Valid) (h : Agrees (withDefaults method.name look) method) :
    Follows method.name look := by
  obtain ⟨table, htable, haccepts⟩ := slots_accepted method hvalid
  have hnames := grammar_names htable
  refine ⟨table, htable, fun field hfield => ?_, fun k hk => ?_, ?_⟩
  · have hslot := haccepts field hfield
    rw [← h field.1, withDefaults] at hslot
    split at hslot
    · -- the occurrence of a `find`
      rename_i hdefault
      obtain ⟨hfind, hocc⟩ := hdefault
      rw [hfind] at htable
      cases htable
      simp only [List.mem_cons, List.not_mem_nil, or_false] at hfield
      rcases hfield with rfl | rfl | rfl | rfl | rfl | rfl | rfl | rfl <;>
        first | exact accepts_default hslot | exact absurd hocc (by decide)
    · exact hslot
  · have hslot := h k
    rw [slot_of_not_mem (by rw [slots_names, ← hnames]; exact hk), withDefaults] at hslot
    split at hslot
    · cases hslot
    · exact hslot
  · have hwindow := slots_window method hvalid
    intro start end_ hstart hend
    refine hwindow start end_ ?_ ?_
    · rw [← h "start", withDefaults_field (by decide), hstart]
    · rw [← h "end", withDefaults_field (by decide), hend]

/-! ## What follows the grammar is accepted -/

/-- To agree with a method that is not `find`, slot by slot. -/
theorem agrees_of_slots {name : String} {look : String → Option JsonValue}
    (method : RequestMethod) (hname : name = method.name) (hne : name ≠ "find")
    (hrest : ∀ k, k ∉ fieldNames name → look k = none)
    (hslots : ∀ s ∈ method.slots, look s.1 = s.2) :
    Agrees (withDefaults name look) method := by
  subst hname
  rw [withDefaults_other hne, agrees_taken_iff (List.Perm.refl _)]
  exact ⟨hslots, hrest⟩

theorem agrees_of_follows {name : String} {look : String → Option JsonValue}
    (h : Follows name look) :
    ∃ method : RequestMethod, name = method.name ∧ method.Valid ∧
      Agrees (withDefaults name look) method := by
  obtain ⟨table, htable, haccepts, hrest, hwindow⟩ := h
  rw [grammar_names htable] at hrest
  unfold grammar at htable
  split at htable
  · exact ⟨.ping, rfl, trivial, agrees_of_slots .ping rfl (by decide) hrest (List.forall_mem_nil _)⟩
  · exact ⟨.describe, rfl, trivial, agrees_of_slots .describe rfl (by decide) hrest (List.forall_mem_nil _)⟩
  · cases htable
    simp only [List.forall_mem_cons] at haccepts
    obtain ⟨⟨filter, hfilter⟩, ⟨maxRows, hrows, _⟩, ⟨maxResponseBytes, hbytes, hlimit⟩,
      ⟨timeoutMs, htimeout, _⟩, _⟩ := haccepts
    refine ⟨.list { filter, maxRows, maxResponseBytes, timeoutMs }, rfl, hlimit,
      agrees_of_slots _ rfl (by decide) hrest ?_⟩
    simp only [RequestMethod.slots, ListParams.slots, List.forall_mem_cons]
    exact ⟨hfilter, hrows, hbytes, htimeout, List.forall_mem_nil _⟩
  · cases htable
    simp only [List.forall_mem_cons] at haccepts
    obtain ⟨⟨timeoutMs, htimeout, _⟩, ⟨maxCommands, hcommands, _⟩, _⟩ := haccepts
    refine ⟨.metadata { timeoutMs, maxCommands }, rfl, trivial,
      agrees_of_slots _ rfl (by decide) hrest ?_⟩
    simp only [RequestMethod.slots, MetadataParams.slots, List.forall_mem_cons]
    exact ⟨htimeout, hcommands, List.forall_mem_nil _⟩
  · cases htable
    simp only [List.forall_mem_cons] at haccepts
    obtain ⟨⟨signals, hsignals, hnames⟩, ⟨start, hstart, _⟩, ⟨end_, hend, _⟩,
      ⟨maxRows, hrows, _⟩, ⟨maxResponseBytes, hbytes, hlimit⟩, ⟨maxCommands, hcommands, _⟩,
      ⟨timeoutMs, htimeout, _⟩, _⟩ := haccepts
    refine ⟨.extract { signals, start, end_, maxRows, maxResponseBytes, maxCommands, timeoutMs },
      rfl, ⟨hnames, (windowText_iff hstart hend).mp hwindow, hlimit⟩,
      agrees_of_slots _ rfl (by decide) hrest ?_⟩
    simp only [RequestMethod.slots, ExtractParams.slots, List.forall_mem_cons]
    exact ⟨hsignals, hstart, hend, hrows, hbytes, hcommands, htimeout, List.forall_mem_nil _⟩
  · cases htable
    simp only [List.forall_mem_cons] at haccepts
    obtain ⟨⟨signal, hsignal, hne⟩, ⟨value, hvalue⟩, ⟨occurrence, hocc, hpos⟩,
      ⟨start, hstart, _⟩, ⟨end_, hend, _⟩, ⟨maxCommands, hcommands, _⟩,
      ⟨maxResponseBytes, hbytes, hlimit⟩, ⟨timeoutMs, htimeout, _⟩, _⟩ := haccepts
    have hone : 1 ≤ occurrence.getD 1 := by
      cases occurrence with
      | none => decide
      | some n => exact UInt64.le_iff_toNat_le.mpr (hpos n rfl)
    refine ⟨.find ⟨signal, value, occurrence.getD 1, start, end_, maxCommands, maxResponseBytes,
        timeoutMs⟩, rfl,
      ⟨hne, hone, (windowText_iff hstart hend).mp hwindow, hlimit⟩, ?_⟩
    rw [agrees_taken_iff (List.Perm.refl _)]
    simp only [RequestMethod.slots, FindParams.slots, List.forall_mem_cons]
    refine ⟨⟨hsignal, hvalue, withDefaults_occurrence.mpr ⟨occurrence, hocc, rfl⟩, hstart, hend,
      hcommands, hbytes, htimeout, List.forall_mem_nil _⟩, fun k hk => ?_⟩
    have hk' : k ∉ fieldNames "find" := hk
    have hne : k ≠ "occurrence" := by
      rintro rfl
      exact hk' (by decide)
    rw [withDefaults_field hne]
    exact hrest k hk'
  · cases htable
    simp only [List.forall_mem_cons] at haccepts
    obtain ⟨⟨signals, hsignals, hnames⟩, ⟨start, hstart, _⟩, ⟨end_, hend, _⟩,
      ⟨maxCommands, hcommands, _⟩, ⟨maxResponseBytes, hbytes, hlimit⟩,
      ⟨timeoutMs, htimeout, _⟩, _⟩ := haccepts
    refine ⟨.toggles { signals, start, end_, maxCommands, maxResponseBytes, timeoutMs },
      rfl, ⟨hnames, (windowText_iff hstart hend).mp hwindow, hlimit⟩,
      agrees_of_slots _ rfl (by decide) hrest ?_⟩
    simp only [RequestMethod.slots, TogglesParams.slots, List.forall_mem_cons]
    exact ⟨hsignals, hstart, hend, hcommands, hbytes, htimeout, List.forall_mem_nil _⟩
  · cases htable
    simp only [List.forall_mem_cons] at haccepts
    obtain ⟨⟨requestId, hid, hok⟩, _⟩ := haccepts
    refine ⟨.cancel { requestId }, rfl, hok,
      agrees_of_slots _ rfl (by decide) hrest ?_⟩
    simp only [RequestMethod.slots, CancelParams.slots, List.forall_mem_cons]
    exact ⟨hid, List.forall_mem_nil _⟩
  · cases htable

/-- **The decoder accepts exactly the parameters that follow the grammar.** -/
theorem parseMethod_accepts_iff (name : String) (fields : List (String × JsonValue)) :
    (∃ method, decode (parseMethod name) fields = .ok method) ↔ Follows name (get fields) := by
  simp only [parseMethod_ok_iff]
  constructor
  · rintro ⟨method, rfl, hvalid, hagrees⟩
    exact follows_of_agrees hvalid hagrees
  · intro h
    exact agrees_of_follows h

/-- The fields of a method that carry a decimal, with the least value of each. -/
def DecimalField (name field : String) (least : Nat) : Prop :=
  ∃ table, grammar name = some table ∧ (field, FieldKind.decimal least) ∈ table

/-- **A decimal field is accepted exactly when its text is the canonical decimal
of an integer in its range**, whatever the rest of the parameters, which are
accepted without it; the ends of a window must not cross. -/
theorem decimal_field_iff {name field : String} {least : Nat} (h : DecimalField name field least)
    {params : List (String × JsonValue)} {value : JsonValue} (hv : get params field = some value)
    (hrest : ∃ method, decode (parseMethod name) (without [field] params) = .ok method) :
    (∃ method, decode (parseMethod name) params = .ok method) ↔
      (∃ n : UInt64, least ≤ n.toNat ∧ value = .string (Nat.repr n.toNat)) ∧
        WindowText (get params) := by
  obtain ⟨table, htable, hfield⟩ := h
  rw [parseMethod_accepts_iff] at hrest ⊢
  obtain ⟨table', htable', haccepts, hunknown, _⟩ := hrest
  cases htable.symm.trans htable'
  have hother : ∀ k, k ≠ field → get (without [field] params) k = get params k := fun k hk =>
    lookup_without (fun hmem => hk (List.mem_singleton.mp hmem)) params
  have hnodup : (table.map Prod.fst).Nodup := by
    rw [grammar_names htable]
    exact fieldNames_nodup name
  constructor
  · rintro ⟨table', htable'', haccepts', _, hwindow⟩
    cases htable.symm.trans htable''
    obtain ⟨n, hn, hleast⟩ := haccepts' _ hfield
    refine ⟨?_, hwindow⟩
    cases n with
    | none =>
      rw [hv] at hn
      cases hn
    | some n => exact ⟨n, hleast n rfl, Option.some.inj (hv.symm.trans hn)⟩
  · rintro ⟨⟨n, hleast, rfl⟩, hwindow⟩
    refine ⟨table, htable, fun entry hentry => ?_, fun k hk => ?_, hwindow⟩
    · by_cases heq : entry.1 = field
      · -- the names of a table are distinct, so this is the field itself
        have hsame : entry = (field, FieldKind.decimal least) :=
          List.inj_on_of_nodup_map hnodup hentry hfield heq
        subst hsame
        refine ⟨some n, hv, fun x hx => ?_⟩
        cases hx
        exact hleast
      · rw [← hother entry.1 heq]
        exact haccepts entry hentry
    · have hne : k ≠ field := fun heq => hk (heq ▸ List.mem_map_of_mem hfield)
      rw [← hother k hne]
      exact hunknown k hk

/-- A field that the method does not have is rejected. -/
theorem unknown_rejected {name field : String} {params : List (String × JsonValue)}
    (hfield : field ∉ fieldNames name) (h : get params field ≠ none) :
    ¬ ∃ method, decode (parseMethod name) params = .ok method := by
  rw [parseMethod_accepts_iff]
  rintro ⟨table, htable, _, hunknown, _⟩
  exact h (hunknown field (by rw [grammar_names htable]; exact hfield))

end VcdTools.Server.Requests
