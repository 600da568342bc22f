import Mathlib.Order.Lattice
import Mathlib.Data.List.Basic
import VcdTools.Lib.Fallible

/-! # Taking a map of fields apart

A decoder that takes the fields of a map one by one, and at last looks whether
anything is left. `Takes` says exactly when it succeeds, in terms of what the
map held at the start: which fields are gone before and after, and how the
result relates to the fields. Its rules follow the decoder's own shape. -/
namespace VcdTools.Lib.Fields

universe u
variable {κ : Type u} {α ε : Type u} [LinearOrder κ]

/-- The entry of a key, a key already there getting the new value; the list
stays in the order of its keys. -/
def insert (key : κ) (value : α) : List (κ × α) → List (κ × α)
  | [] => [(key, value)]
  | (k, v) :: fields =>
    if key < k then (key, value) :: (k, v) :: fields
    else if k < key then (k, v) :: insert key value fields
    else (key, value) :: fields

/-- The map that holds the entries of a list, a later one replacing an earlier. -/
def ofList (entries : List (κ × α)) : List (κ × α) :=
  entries.foldl (fun fields (key, value) => insert key value fields) []

def Sorted (fields : List (κ × α)) : Prop := fields.Pairwise fun a b => a.1 < b.1

/-- The value of a field. -/
abbrev get (fields : List (κ × α)) (key : κ) : Option α := fields.lookup key

/-- The fields whose names are not among `names`. -/
def without (names : List κ) (fields : List (κ × α)) : List (κ × α) :=
  fields.filter fun field => decide (field.1 ∉ names)

/-! ## Lookups -/

theorem lookup_insert (key : κ) (value : α) (fields : List (κ × α)) (k : κ) :
    (insert key value fields).lookup k = if k = key then some value else fields.lookup k := by
  induction fields with
  | nil =>
    rw [insert, List.lookup_cons]
    by_cases hk : k = key
    · rw [if_pos hk, hk, beq_self_eq_true]
    · rw [if_neg hk, beq_eq_false_iff_ne.mpr hk]
  | cons field fields ih =>
    obtain ⟨key', value'⟩ := field
    rw [insert]
    split
    · simp only [List.lookup_cons]
      by_cases hk : k = key
      · rw [if_pos hk, hk, beq_self_eq_true]
      · rw [if_neg hk, beq_eq_false_iff_ne.mpr hk]
    · rename_i hlt
      split
      · rename_i hgt
        rw [List.lookup_cons, List.lookup_cons]
        by_cases hk : k = key'
        · rw [hk, beq_self_eq_true, if_neg (ne_of_lt hgt)]
        · rw [beq_eq_false_iff_ne.mpr hk]
          exact ih
      · rename_i hgt
        have heq : key' = key := le_antisymm (le_of_not_gt hlt) (le_of_not_gt hgt)
        subst heq
        simp only [List.lookup_cons]
        by_cases hk : k = key'
        · rw [if_pos hk, hk, beq_self_eq_true]
        · rw [if_neg hk, beq_eq_false_iff_ne.mpr hk]

theorem insert_keys (key : κ) (value : α) (fields : List (κ × α)) {entry : κ × α}
    (h : entry ∈ insert key value fields) : entry = (key, value) ∨ entry ∈ fields := by
  induction fields with
  | nil => exact .inl (List.mem_singleton.mp h)
  | cons field fields ih =>
    rw [insert] at h
    split at h
    · exact List.mem_cons.mp h
    · split at h
      · rcases List.mem_cons.mp h with rfl | h
        · exact .inr List.mem_cons_self
        · exact (ih h).imp_right (List.mem_cons_of_mem _)
      · exact (List.mem_cons.mp h).imp_right (List.mem_cons_of_mem _)

theorem insert_sorted {key : κ} {value : α} {fields : List (κ × α)} (h : Sorted fields) :
    Sorted (insert key value fields) := by
  induction fields with
  | nil => exact List.pairwise_singleton _ _
  | cons field fields ih =>
    obtain ⟨hall, htail⟩ := List.pairwise_cons.mp h
    rw [insert]
    split
    · rename_i hlt
      refine List.pairwise_cons.mpr ⟨fun entry he => ?_, h⟩
      rcases List.mem_cons.mp he with rfl | he
      · exact hlt
      · exact lt_trans hlt (hall entry he)
    · rename_i hlt
      split
      · rename_i hgt
        refine List.pairwise_cons.mpr ⟨fun entry he => ?_, ih htail⟩
        rcases insert_keys key value fields he with rfl | he
        · exact hgt
        · exact hall entry he
      · rename_i hgt
        have heq : field.1 = key := le_antisymm (le_of_not_gt hlt) (le_of_not_gt hgt)
        exact List.pairwise_cons.mpr ⟨fun entry he => heq ▸ hall entry he, htail⟩

/-- Without repeated keys, the map of a list looks up what the list does. -/
theorem lookup_ofList {entries : List (κ × α)} (h : (entries.map Prod.fst).Nodup) (k : κ) :
    (ofList entries).lookup k = entries.lookup k := by
  have aux : ∀ (entries fields : List (κ × α)), (entries.map Prod.fst).Nodup →
      (entries.foldl (fun fields (key, value) => insert key value fields) fields).lookup k =
        (entries.lookup k).or (fields.lookup k) := by
    intro entries
    induction entries with
    | nil =>
      intro fields _
      rfl
    | cons entry entries ih =>
      intro fields h
      obtain ⟨key, value⟩ := entry
      obtain ⟨hkey, hrest⟩ := List.nodup_cons.mp h
      rw [List.foldl_cons, ih _ hrest, lookup_insert, List.lookup_cons]
      by_cases hk : k = key
      · subst hk
        have hnone : entries.lookup k = none := by
          rw [List.lookup_eq_none_iff]
          intro entry he
          exact bne_iff_ne.mpr fun heq => hkey (List.mem_map.mpr ⟨entry, he, heq.symm⟩)
        rw [if_pos rfl, beq_self_eq_true, hnone]
        rfl
      · rw [if_neg hk, beq_eq_false_iff_ne.mpr hk]
  rw [ofList, aux entries [] h, List.lookup_nil, Option.or_none]

theorem ofList_sorted (entries : List (κ × α)) : Sorted (ofList entries) := by
  have aux : ∀ (entries fields : List (κ × α)), Sorted fields →
      Sorted (entries.foldl (fun fields (key, value) => insert key value fields) fields) := by
    intro entries
    induction entries with
    | nil => exact fun _ h => h
    | cons entry entries ih => exact fun fields h => ih _ (insert_sorted h)
  exact aux entries [] List.Pairwise.nil

theorem Sorted.nodup {fields : List (κ × α)} (h : Sorted fields) :
    (fields.map Prod.fst).Nodup :=
  List.pairwise_map.mpr (h.imp fun hlt => ne_of_lt hlt)

theorem mem_of_lookup {fields : List (κ × α)} {k : κ} {v : α} (h : fields.lookup k = some v) :
    (k, v) ∈ fields := by
  obtain ⟨front, rest, rfl, _⟩ := List.lookup_eq_some_iff.mp h
  exact List.mem_append_right _ List.mem_cons_self

theorem lookup_of_mem {fields : List (κ × α)} (h : (fields.map Prod.fst).Nodup)
    {field : κ × α} (hmem : field ∈ fields) : fields.lookup field.1 = some field.2 := by
  induction fields with
  | nil => cases hmem
  | cons field' fields ih =>
    obtain ⟨hkey, hrest⟩ := List.nodup_cons.mp h
    rw [List.lookup_cons]
    rcases List.mem_cons.mp hmem with rfl | hmem
    · rw [beq_self_eq_true]
    · have hne : field.1 ≠ field'.1 := fun heq => hkey (heq ▸ List.mem_map_of_mem hmem)
      rw [beq_eq_false_iff_ne.mpr hne]
      exact ih hrest hmem

/-- What comes behind every key goes to the end. -/
theorem insert_last {key : κ} (value : α) {fields : List (κ × α)}
    (h : ∀ field ∈ fields, field.1 < key) : insert key value fields = fields ++ [(key, value)] := by
  induction fields with
  | nil => rfl
  | cons field fields ih =>
    have hlt := h field List.mem_cons_self
    rw [insert, if_neg (lt_asymm hlt), if_pos hlt,
      ih fun field' hf => h field' (List.mem_cons_of_mem _ hf), List.cons_append]

/-- A sorted list is its own map. -/
theorem Sorted.ofList_eq {fields : List (κ × α)} (h : Sorted fields) : ofList fields = fields := by
  have aux : ∀ (fields front : List (κ × α)), Sorted (front ++ fields) →
      fields.foldl (fun fields (key, value) => insert key value fields) front =
        front ++ fields := by
    intro fields
    induction fields with
    | nil => exact fun front _ => (List.append_nil front).symm
    | cons field fields ih =>
      intro front h
      obtain ⟨key, value⟩ := field
      obtain ⟨_, _, hcross⟩ := List.pairwise_append.mp h
      have hlast : ∀ field' ∈ front, field'.1 < key := fun field' hf =>
        hcross field' hf (key, value) List.mem_cons_self
      rw [List.foldl_cons]
      show List.foldl _ (insert key value front) fields = _
      rw [insert_last value hlast, ih _ (by rwa [List.append_assoc]), List.append_assoc,
        List.singleton_append]
  exact aux fields [] h

theorem lookup_without {names : List κ} {k : κ} (h : k ∉ names) (fields : List (κ × α)) :
    (without names fields).lookup k = fields.lookup k := by
  induction fields with
  | nil => rfl
  | cons field fields ih =>
    rw [without, List.filter_cons]
    split
    · rw [List.lookup_cons, List.lookup_cons]
      split
      · rfl
      · exact ih
    · rename_i hgone
      have hmem : field.1 ∈ names := by simpa using hgone
      have hne : k ≠ field.1 := fun heq => h (heq ▸ hmem)
      rw [List.lookup_cons, beq_eq_false_iff_ne.mpr hne]
      exact ih

theorem lookup_without_mem {names : List κ} {k : κ} (h : k ∈ names) (fields : List (κ × α)) :
    (without names fields).lookup k = none := by
  rw [List.lookup_eq_none_iff]
  intro entry he
  have hkept := of_decide_eq_true (List.mem_filter.mp he).2
  exact bne_iff_ne.mpr fun heq => hkept (heq ▸ h)

@[simp] theorem without_nil (fields : List (κ × α)) : without [] fields = fields := by
  simp [without]

theorem without_without (key : κ) (names : List κ) (fields : List (κ × α)) :
    without [key] (without names fields) = without (key :: names) fields := by
  rw [without, without, without, List.filter_filter]
  congr 1
  funext field
  simp only [List.mem_cons, List.not_mem_nil, or_false, not_or, decide_not, Bool.decide_and]

theorem without_eq_nil_iff {names : List κ} {fields : List (κ × α)} :
    without names fields = [] ↔ ∀ k, k ∉ names → fields.lookup k = none := by
  simp only [without, List.filter_eq_nil_iff, decide_eq_true_eq, not_not]
  constructor
  · intro h k hk
    rw [List.lookup_eq_none_iff]
    intro entry he
    exact bne_iff_ne.mpr fun heq => hk (heq ▸ h entry he)
  · intro h field hf
    by_contra hout
    have hnone := List.lookup_eq_none_iff.mp (h field.1 hout) field hf
    exact bne_iff_ne.mp hnone rfl

/-! ## Decoders -/

/-- A decoder over the fields not yet taken. -/
abbrev Take (κ α ε : Type u) := StateT (List (κ × α)) (Except ε)

/-- Taking one field out of the map. -/
def take (key : κ) : Take κ α ε (Option α) := fun fields =>
  .ok (get fields key, without [key] fields)

/-- A check or a conversion that takes no field. -/
def check {β : Type u} (result : Except ε β) : Take κ α ε β := fun fields =>
  result.map fun b => (b, fields)

/-- A decoder started on a whole map. -/
def decode {β : Type u} (decoder : Take κ α ε β) (fields : List (κ × α)) : Except ε β :=
  (decoder fields).map Prod.fst

/-- With `names` taken already, the decoder succeeds with `b` exactly when the
fields are in the relation `R` to it; it leaves those outside `names'`. -/
def Takes {β : Type u} (names names' : List κ) (decoder : Take κ α ε β)
    (R : (κ → Option α) → β → Prop) : Prop :=
  ∀ fields b rest, decoder (without names fields) = .ok (b, rest) ↔
    R (get fields) b ∧ rest = without names' fields

variable {names names' names'' : List κ} {β γ : Type u} {decoder : Take κ α ε β}
  {R R' : (κ → Option α) → β → Prop}

theorem Takes.conseq (h : Takes names names' decoder R) (hR : ∀ look b, R look b ↔ R' look b) :
    Takes names names' decoder R' := by
  intro fields b rest
  rw [h, hR]

theorem Takes.pure (b : β) :
    Takes names names (Pure.pure b : Take κ α ε β) fun _ c => c = b := by
  intro fields c rest
  constructor
  · intro h
    obtain ⟨rfl, rfl⟩ := Prod.mk.inj (Except.ok.inj h)
    exact ⟨rfl, rfl⟩
  · rintro ⟨rfl, rfl⟩
    rfl

theorem Takes.take {key : κ} (h : key ∉ names) :
    Takes names (key :: names) (Fields.take key : Take κ α ε (Option α))
      fun look v => look key = v := by
  intro fields v rest
  rw [Fields.take, get, lookup_without h, without_without]
  constructor
  · intro heq
    obtain ⟨rfl, rfl⟩ := Prod.mk.inj (Except.ok.inj heq)
    exact ⟨rfl, rfl⟩
  · rintro ⟨rfl, rfl⟩
    rfl

theorem Takes.check (result : Except ε β) :
    Takes names names (Fields.check result : Take κ α ε β) fun _ b => result = .ok b := by
  intro fields b rest
  rw [Fields.check]
  cases result with
  | error e => exact ⟨fun h => (by cases h), fun ⟨h, _⟩ => (by cases h)⟩
  | ok c =>
    constructor
    · intro h
      obtain ⟨rfl, rfl⟩ := Prod.mk.inj (Except.ok.inj h)
      exact ⟨rfl, rfl⟩
    · rintro ⟨h, rfl⟩
      cases h
      rfl

theorem Takes.bind {next : β → Take κ α ε γ} {S : β → (κ → Option α) → γ → Prop}
    (h : Takes names names' decoder R) (hnext : ∀ b, Takes names' names'' (next b) (S b)) :
    Takes names names'' (decoder >>= next) fun look c => ∃ b, R look b ∧ S b look c := by
  intro fields c rest
  have hrun : (decoder >>= next) (without names fields) =
      decoder (without names fields) >>= fun r => next r.1 r.2 := rfl
  rw [hrun, Fallible.bind_ok_iff]
  constructor
  · rintro ⟨⟨b, mid⟩, hd, heq⟩
    obtain ⟨hR, rfl⟩ := (h fields b mid).mp hd
    obtain ⟨hS, rfl⟩ := (hnext b fields c rest).mp heq
    exact ⟨⟨b, hR, hS⟩, rfl⟩
  · rintro ⟨⟨b, hR, hS⟩, hrest⟩
    exact ⟨(b, without names' fields), (h fields b _).mpr ⟨hR, rfl⟩,
      (hnext b fields c rest).mpr ⟨hS, hrest⟩⟩

theorem Takes.map (f : β → γ) (h : Takes names names' decoder R) :
    Takes names names' (f <$> decoder) fun look c => ∃ b, R look b ∧ c = f b :=
  h.bind fun b => Takes.pure (f b)

/-- The last step of a decoder: it fails unless every field has been taken. -/
theorem Takes.finish {finish : Take κ α ε PUnit}
    (h : ∀ fields, (∃ rest, finish fields = .ok (⟨⟩, rest)) ↔ fields = [])
    (hkeep : ∀ fields rest, finish fields = .ok (⟨⟩, rest) → rest = fields) :
    Takes names names finish fun look _ => ∀ k, k ∉ names → look k = none := by
  intro fields b rest
  show _ ↔ (∀ k, k ∉ names → get fields k = none) ∧ _
  rw [← without_eq_nil_iff]
  constructor
  · intro heq
    exact ⟨(h _).mp ⟨rest, heq⟩, hkeep _ _ heq⟩
  · rintro ⟨hnil, rfl⟩
    obtain ⟨rest, hrest⟩ := (h _).mpr hnil
    rw [hrest, hkeep _ _ hrest]

theorem Takes.decode_iff (h : Takes [] names decoder R) (fields : List (κ × α)) (b : β) :
    decode decoder fields = .ok b ↔ R (get fields) b := by
  have hrun := h fields b
  rw [without_nil] at hrun
  rw [decode, Fallible.map_ok_iff]
  constructor
  · rintro ⟨⟨_, rest⟩, hd, rfl⟩
    exact ((hrun rest).mp hd).1
  · intro hR
    exact ⟨(b, without names fields), (hrun _).mpr ⟨hR, rfl⟩, rfl⟩

/-! ## Decoders that read some fields only -/

/-- Two maps that hold the same under each of `names`. -/
def Agree (names : List κ) (fields fields' : List (κ × α)) : Prop :=
  ∀ k ∈ names, get fields k = get fields' k

/-- The decoder looks at `names` only: on maps that agree there it gives the
same answer, errors included. -/
def Reads {β : Type u} (names : List κ) (decoder : Take κ α ε β) : Prop :=
  ∀ fields fields', Agree names fields fields' →
    (∃ e, decoder fields = .error e ∧ decoder fields' = .error e) ∨
      ∃ b rest rest', decoder fields = .ok (b, rest) ∧ decoder fields' = .ok (b, rest') ∧
        Agree names rest rest'

theorem Reads.pure (b : β) : Reads names (Pure.pure b : Take κ α ε β) :=
  fun fields fields' h => .inr ⟨b, fields, fields', rfl, rfl, h⟩

theorem Reads.check (result : Except ε β) :
    Reads names (Fields.check result : Take κ α ε β) := by
  intro fields fields' h
  cases result with
  | error e => exact .inl ⟨e, rfl, rfl⟩
  | ok b => exact .inr ⟨b, fields, fields', rfl, rfl, h⟩

theorem Reads.take {key : κ} (h : key ∈ names) :
    Reads names (Fields.take key : Take κ α ε (Option α)) := by
  intro fields fields' hagree
  refine .inr ⟨get fields key, without [key] fields, without [key] fields', rfl, ?_, ?_⟩
  · rw [Fields.take, hagree key h]
  · intro k hk
    by_cases heq : k ∈ [key]
    · rw [get, get, lookup_without_mem heq, lookup_without_mem heq]
    · rw [get, get, lookup_without heq, lookup_without heq]
      exact hagree k hk

theorem Reads.bind {next : β → Take κ α ε γ} (h : Reads names decoder)
    (hnext : ∀ b, Reads names (next b)) : Reads names (decoder >>= next) := by
  intro fields fields' hagree
  have hrun : ∀ fields, (decoder >>= next) fields =
      decoder fields >>= fun r => next r.1 r.2 := fun _ => rfl
  rcases h fields fields' hagree with ⟨e, he, he'⟩ | ⟨b, rest, rest', hd, hd', hrest⟩
  · exact .inl ⟨e, by rw [hrun, he]; rfl, by rw [hrun, he']; rfl⟩
  · rw [hrun, hrun, hd, hd']
    exact hnext b rest rest' hrest

theorem Reads.decode_eq (h : Reads names decoder) {fields fields' : List (κ × α)}
    (hagree : Agree names fields fields') : decode decoder fields = decode decoder fields' := by
  rcases h fields fields' hagree with ⟨e, he, he'⟩ | ⟨b, rest, rest', hd, hd', _⟩
  · rw [decode, decode, he, he']
  · rw [decode, decode, hd, hd']
    rfl

/-! ## Slots -/

/-- What a row of optional entries holds under a key. -/
def slot : List (κ × Option α) → κ → Option α
  | [], _ => none
  | (key, value) :: slots, k => if k = key then value else slot slots k

/-- The entries that are there. -/
def present (slots : List (κ × Option α)) : List (κ × α) :=
  slots.filterMap fun (key, value) => value.map fun v => (key, v)

omit [LinearOrder κ] in
theorem present_keys {slots : List (κ × Option α)} {k : κ}
    (h : k ∈ (present slots).map Prod.fst) : k ∈ slots.map Prod.fst := by
  obtain ⟨entry, he, rfl⟩ := List.mem_map.mp h
  obtain ⟨⟨key, value⟩, hs, hv⟩ := List.mem_filterMap.mp he
  obtain ⟨v, _, rfl⟩ := Option.map_eq_some_iff.mp hv
  exact List.mem_map.mpr ⟨_, hs, rfl⟩

omit [LinearOrder κ] in
theorem present_nodup {slots : List (κ × Option α)} (h : (slots.map Prod.fst).Nodup) :
    ((present slots).map Prod.fst).Nodup := by
  induction slots with
  | nil => exact List.nodup_nil
  | cons s slots ih =>
    obtain ⟨key, value⟩ := s
    obtain ⟨hkey, hrest⟩ := List.nodup_cons.mp h
    cases value with
    | none => exact ih hrest
    | some v => exact List.nodup_cons.mpr ⟨fun hmem => hkey (present_keys hmem), ih hrest⟩

theorem slot_of_not_mem {slots : List (κ × Option α)} {k : κ} (h : k ∉ slots.map Prod.fst) :
    slot slots k = none := by
  induction slots with
  | nil => rfl
  | cons s slots ih =>
    obtain ⟨hne, hrest⟩ := not_or.mp fun hmem => h (List.mem_cons.mpr hmem)
    rw [slot, if_neg hne, ih hrest]

theorem lookup_present {slots : List (κ × Option α)} (h : (slots.map Prod.fst).Nodup) (k : κ) :
    (present slots).lookup k = slot slots k := by
  induction slots with
  | nil => rfl
  | cons s slots ih =>
    obtain ⟨key, value⟩ := s
    obtain ⟨hkey, hrest⟩ := List.nodup_cons.mp h
    rw [slot]
    cases value with
    | none =>
      by_cases hk : k = key
      · rw [if_pos hk]
        exact (ih hrest).trans (slot_of_not_mem (hk ▸ hkey))
      · rw [if_neg hk]
        exact ih hrest
    | some v =>
      show List.lookup k ((key, v) :: present slots) = _
      rw [List.lookup_cons]
      by_cases hk : k = key
      · rw [if_pos hk, hk, beq_self_eq_true]
      · rw [if_neg hk, beq_eq_false_iff_ne.mpr hk]
        exact ih hrest

/-- To agree with a row of slots is to agree with each and to hold nothing else. -/
theorem agrees_iff {slots : List (κ × Option α)} (h : (slots.map Prod.fst).Nodup)
    {look : κ → Option α} :
    (∀ k, look k = slot slots k) ↔
      (∀ s ∈ slots, look s.1 = s.2) ∧ ∀ k, k ∉ slots.map Prod.fst → look k = none := by
  have hslot : ∀ s ∈ slots, slot slots s.1 = s.2 := by
    induction slots with
    | nil => exact fun s hs => (by cases hs)
    | cons s' slots ih =>
      obtain ⟨hkey, hrest⟩ := List.nodup_cons.mp h
      intro s hs
      rcases List.mem_cons.mp hs with rfl | hs
      · rw [slot, if_pos rfl]
      · have hne : s.1 ≠ s'.1 := fun heq => hkey (heq ▸ List.mem_map_of_mem hs)
        rw [slot, if_neg hne, ih hrest s hs]
  constructor
  · intro hall
    refine ⟨fun s hs => (hall s.1).trans (hslot s hs), fun k hk => (hall k).trans ?_⟩
    exact slot_of_not_mem hk
  · rintro ⟨hin, hout⟩ k
    by_cases hk : k ∈ slots.map Prod.fst
    · obtain ⟨s, hs, rfl⟩ := List.mem_map.mp hk
      rw [hin s hs, hslot s hs]
    · rw [hout k hk, slot_of_not_mem hk]

end VcdTools.Lib.Fields
