import VcdTools.Server.Request

/-! # What the parameter decoders accept

Each reader of a field accepts exactly the JSON that the serializer writes for
its result; a method's decoder accepts the maps that agree with the slots of a
valid request, the field of a `find` whose value is the default being optional. -/
namespace VcdTools.Server.Requests
open VcdTools.Lib VcdTools.Lib.Fields

/-! ## Decimals -/

theorem validateDecimal_ok_iff {value field : String} :
    validateDecimal value field = .ok ⟨⟩ ↔ Decimal.Canonical value.toList := by
  have hempty : value.isEmpty = true ↔ value.toList = [] := by
    rw [String.isEmpty_iff, ← String.toList_inj]
    exact Iff.rfl
  have hall : value.toList.all Char.isDigit = true ↔ ∀ c ∈ value.toList, c.isDigit = true :=
    List.all_eq_true
  rw [validateDecimal, Decimal.Canonical]
  constructor
  · intro h
    split at h
    · cases h
    · rename_i hno
      simp only [not_or, not_not, not_and] at hno
      obtain ⟨hne, hdigits, hzero⟩ := hno
      have hdigits' := hall.mp hdigits
      refine ⟨fun h0 => hne (hempty.mpr h0), hdigits', fun hlen => hzero ?_⟩
      rw [Json.strBytes, (Json.escape_digits hdigits').2]
      exact hlen
  · rintro ⟨hne, hdigits, hzero⟩
    rw [if_neg]
    simp only [not_or, not_not, not_and]
    refine ⟨fun h0 => hne (hempty.mp h0), hall.mpr hdigits, fun hlen => hzero ?_⟩
    rw [Json.strBytes, (Json.escape_digits hdigits).2] at hlen
    exact hlen

/-- **A decimal is accepted exactly when it is the text of its value.** -/
theorem parseDecimalU64_ok_iff {value field : String} {n : UInt64} :
    parseDecimalU64 value field = .ok n ↔ value = Nat.repr n.toNat := by
  have hmax : n.toNat ≤ u64Max := Nat.le_of_lt_succ n.toNat_lt
  rw [parseDecimalU64, Fallible.bind_ok_iff, ← Decimal.canonical_value_iff]
  constructor
  · rintro ⟨_, hvalid, hparse⟩
    refine ⟨validateDecimal_ok_iff.mp hvalid, ?_⟩
    unfold parseU64 at hparse
    split at hparse
    · rename_i number hsome
      split at hsome
      · rename_i hle
        cases hsome
        cases hparse
        exact (UInt64.toNat_ofNat_of_lt' (Nat.lt_succ_of_le hle)).symm
      · cases hsome
    · cases hparse
  · rintro ⟨hcanonical, hvalue⟩
    refine ⟨⟨⟩, validateDecimal_ok_iff.mpr hcanonical, ?_⟩
    rw [parseU64, hvalue, if_pos hmax, UInt64.ofNat_toNat]

/-! ## Fields -/

variable {names : List String} {field : String}

theorem takeRequired_takes (h : field ∉ names) :
    Takes names (field :: names) (takeRequired field) fun look v => look field = some v := by
  refine ((Takes.take h).bind fun value => Takes.check _).conseq fun look v => ?_
  constructor
  · rintro ⟨value, hlook, hv⟩
    cases value with
    | none => cases hv
    | some value =>
      cases hv
      exact hlook
  · intro hlook
    exact ⟨some v, hlook, rfl⟩

theorem takeString_takes (h : field ∉ names) :
    Takes names (field :: names) (takeString field) fun look s =>
      look field = some (.string s) := by
  refine ((takeRequired_takes h).bind fun value => Takes.check _).conseq fun look s => ?_
  constructor
  · rintro ⟨value, hlook, hs⟩
    cases value <;> cases hs
    exact hlook
  · intro hlook
    exact ⟨.string s, hlook, rfl⟩

theorem takeOptionalString_takes (h : field ∉ names) :
    Takes names (field :: names) (takeOptionalString field) fun look s =>
      look field = s.map .string := by
  refine ((Takes.take h).bind fun value => Takes.check _).conseq fun look s => ?_
  constructor
  · rintro ⟨value, hlook, hs⟩
    cases value with
    | none =>
      cases hs
      exact hlook
    | some value =>
      cases value <;> cases hs
      exact hlook
  · intro hlook
    cases s with
    | none => exact ⟨none, hlook, rfl⟩
    | some s => exact ⟨some (.string s), hlook, rfl⟩

theorem takeOptionalParsed_takes {parse : String → String → Except ProtocolError UInt64}
    (hparse : ∀ value n, parse value field = .ok n ↔ value = Nat.repr n.toNat)
    (h : field ∉ names) :
    Takes names (field :: names) (takeOptionalParsed parse field) fun look n =>
      look field = optionDecimal n := by
  refine ((Takes.take h).bind fun value => Takes.check _).conseq fun look n => ?_
  constructor
  · rintro ⟨value, hlook, hn⟩
    cases value with
    | none =>
      cases hn
      exact hlook
    | some value =>
      cases value with
      | string text =>
        obtain ⟨number, hnumber, rfl⟩ := Fallible.map_ok_iff.mp hn
        rw [hlook, (hparse text number).mp hnumber]
        rfl
      | null => cases hn
      | bool _ => cases hn
      | number _ => cases hn
      | array _ => cases hn
      | object _ => cases hn
  · intro hlook
    cases n with
    | none => exact ⟨none, hlook, rfl⟩
    | some n =>
      refine ⟨some (.string (Nat.repr n.toNat)), hlook, ?_⟩
      show (parse (Nat.repr n.toNat) field).map some = _
      rw [(hparse _ n).mpr rfl]
      rfl

theorem takeOptionalDecimal_takes (h : field ∉ names) :
    Takes names (field :: names) (takeOptionalDecimal field) fun look n =>
      look field = optionDecimal n :=
  takeOptionalParsed_takes (fun _ _ => parseDecimalU64_ok_iff) h

theorem takeOptionalDecimalUsize_takes (h : field ∉ names) :
    Takes names (field :: names) (takeOptionalDecimalUsize field) fun look n =>
      look field = optionDecimal n :=
  takeOptionalParsed_takes (fun _ _ => parseDecimalU64_ok_iff) h

theorem stringEntries_ok_iff {values : List JsonValue} {texts : List String} :
    stringEntries field values = .ok texts ↔ values = texts.map .string := by
  induction values generalizing texts with
  | nil =>
    constructor
    · intro h
      cases h
      rfl
    · intro h
      rw [List.map_eq_nil_iff.mp h.symm]
      rfl
  | cons value values ih =>
    cases value with
    | string text =>
      rw [stringEntries, Fallible.map_ok_iff]
      constructor
      · rintro ⟨rest, hrest, rfl⟩
        rw [ih.mp hrest]
        rfl
      · intro h
        obtain ⟨text', rest, rfl, htext, hrest⟩ := List.map_eq_cons_iff.mp h.symm
        cases htext
        exact ⟨rest, ih.mpr hrest.symm, rfl⟩
    | null => exact ⟨fun h => (by cases h), fun h => (by cases texts <;> cases h)⟩
    | bool _ => exact ⟨fun h => (by cases h), fun h => (by cases texts <;> cases h)⟩
    | number _ => exact ⟨fun h => (by cases h), fun h => (by cases texts <;> cases h)⟩
    | array _ => exact ⟨fun h => (by cases h), fun h => (by cases texts <;> cases h)⟩
    | object _ => exact ⟨fun h => (by cases h), fun h => (by cases texts <;> cases h)⟩

theorem takeRequiredStrings_takes (h : field ∉ names) :
    Takes names (field :: names) (takeRequiredStrings field) fun look texts =>
      look field = some (strings texts) := by
  refine ((takeRequired_takes h).bind fun value => Takes.check _).conseq fun look texts => ?_
  constructor
  · rintro ⟨value, hlook, hs⟩
    cases value with
    | array values => rw [hlook, stringEntries_ok_iff.mp hs, strings]
    | null => cases hs
    | bool _ => cases hs
    | number _ => cases hs
    | string _ => cases hs
    | object _ => cases hs
  · intro hlook
    exact ⟨strings texts, hlook, stringEntries_ok_iff.mpr rfl⟩

theorem rejectUnknown_takes :
    Takes names names rejectUnknown fun look _ => ∀ k, k ∉ names → look k = none := by
  refine Takes.finish (fun fields => ?_) fun fields rest h => ?_
  · cases fields with
    | nil => exact iff_of_true ⟨[], rfl⟩ rfl
    | cons entry fields => exact iff_of_false (fun ⟨_, h⟩ => (by cases h)) (List.cons_ne_nil _ _)
  · cases fields with
    | nil =>
      cases h
      rfl
    | cons entry fields => cases h

end VcdTools.Server.Requests
