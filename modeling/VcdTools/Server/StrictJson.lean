import VcdTools.Server.Request

/-! # Strict JSON is duplicate-free JSON

The strict reader and `serde_json`'s own reader of values are driven by the same
events. The own reader keeps the last entry of a key, so that the two differ on
a repeated key and nowhere else. -/
namespace VcdTools.Server.Requests
open VcdTools.Lib VcdTools.Lib.Fallible

/-! ## What an event tree holds -/

/-- What the events hold at any depth, the keys as they are after unescaping. -/
inductive Within : Events → Events → Prop
  | self (tree : Events) : Within tree tree
  | item {tree item : Events} {items : List Events} {stop : Option String} :
      item ∈ items → Within tree item → Within tree (.seq items stop)
  | entry {tree value : Events} {key : String} {entries : List (String × Events)}
      {stop : Option String} :
      (key, value) ∈ entries → Within tree value → Within tree (.map entries stop)

/-- No object at any depth repeats a key. -/
def NoRepeats (tree : Events) : Prop :=
  ∀ entries stop, Within (.map entries stop) tree → (entries.map Prod.fst).Nodup

def Number.Finite : Number → Prop
  | .float value => value.isFinite
  | _ => True

/-- No number at any depth is infinite: such a text is out of `serde_json`'s
range. -/
def FiniteNumbers (tree : Events) : Prop := ∀ number, Within (.number number) tree → number.Finite

/-! ## The own reader -/

/-- The value of a sequence or a map that has ended, or the error it ended with. -/
def finished (stop : Option String) (value : JsonValue) : Except String JsonValue :=
  match stop with
  | some error => .error error
  | none => .ok value

/-- **What `Value`'s own `Deserialize` does** with the events it is handed. -/
structure ReadsValues (own : Events → Except String JsonValue) : Prop where
  null : own .null = .ok .null
  bool : ∀ value, own (.bool value) = .ok (.bool value)
  number : ∀ value : Number, value.Finite → own (.number value) = .ok (.number value)
  string : ∀ value, own (.string value) = .ok (.string value)
  seq : ∀ items stop, own (.seq items stop) = do
    let values ← items.mapM own
    finished stop (.array values)
  map : ∀ entries stop, own (.map entries stop) = do
    let values ← entries.mapM fun (key, entry) => (own entry).map fun value => (key, value)
    finished stop (.object (Fields.ofList values))
  fault : ∀ error, own (.fault error) = .error error

/-- `serde_json::from_str` for `Value`: the whole text has to be read. -/
def valueFromStr (serde : SerdeJson) (own : Events → Except String JsonValue) (text : String) :
    Except String JsonValue := do
  let value ← own (serde.events text).1
  finished (serde.events text).2 value

/-- **Strict JSON accepts exactly duplicate-free JSON**, of one text. -/
structure StrictReading (serde : SerdeJson) (own : Events → Except String JsonValue)
    (text : String) : Prop where
  accepts : (∃ value, parseStrictJson serde text = .ok value) ↔
    (∃ value, valueFromStr serde own text = .ok value) ∧ NoRepeats (serde.events text).1
  same : ∀ value, parseStrictJson serde text = .ok value →
    valueFromStr serde own text = .ok value
  /-- A decoded request is free of repeated keys in all it holds. -/
  decoded : ∀ request, decodeRequest serde text = .ok request → NoRepeats (serde.events text).1

/-! ## Trees and their parts -/

theorem within_seq {tree : Events} {items : List Events} {stop : Option String}
    (h : Within tree (.seq items stop)) :
    tree = .seq items stop ∨ ∃ item ∈ items, Within tree item := by
  cases h with
  | self => exact .inl rfl
  | item hitem h => exact .inr ⟨_, hitem, h⟩

theorem within_map {tree : Events} {entries : List (String × Events)} {stop : Option String}
    (h : Within tree (.map entries stop)) :
    tree = .map entries stop ∨ ∃ entry ∈ entries, Within tree entry.2 := by
  cases h with
  | self => exact .inl rfl
  | entry hentry h => exact .inr ⟨_, hentry, h⟩

theorem noRepeats_seq {items : List Events} {stop : Option String} :
    NoRepeats (.seq items stop) ↔ ∀ item ∈ items, NoRepeats item := by
  constructor
  · exact fun h item hitem entries stop' hwithin => h entries stop' (.item hitem hwithin)
  · intro h entries stop' hwithin
    obtain heq | ⟨item, hitem, hwithin⟩ := within_seq hwithin
    · cases heq
    · exact h item hitem entries stop' hwithin

theorem noRepeats_map {entries : List (String × Events)} {stop : Option String} :
    NoRepeats (.map entries stop) ↔
      (entries.map Prod.fst).Nodup ∧ ∀ entry ∈ entries, NoRepeats entry.2 := by
  constructor
  · exact fun h => ⟨h entries stop (.self _),
      fun entry hentry entries' stop' hwithin => h entries' stop' (.entry hentry hwithin)⟩
  · intro ⟨hkeys, h⟩ entries' stop' hwithin
    obtain heq | ⟨entry, hentry, hwithin⟩ := within_map hwithin
    · cases heq
      exact hkeys
    · exact h entry hentry entries' stop' hwithin

/-! ## The two readers -/

/-- An error at the end is an error of the whole. -/
theorem finished_ok_iff {stop : Option String} {value value' : JsonValue} :
    finished stop value = .ok value' ↔ stop = none ∧ value = value' := by
  cases stop with
  | none => exact ⟨fun h => ⟨rfl, Except.ok.inj h⟩, fun ⟨_, h⟩ => congrArg _ h⟩
  | some error => exact ⟨fun h => (by cases h), fun ⟨h, _⟩ => (by cases h)⟩

theorem visitNumber_finite {number : Number} (h : number.Finite) :
    visitNumber number = .ok (.number number) := by
  cases number with
  | posInt n => rfl
  | negInt n => rfl
  | float n => exact if_pos h

/-- A map the strict visitor has filled, and the entries the own one has read. -/
def Filled (own : Events → Except String JsonValue) (seen : List String)
    (values fields : List (String × JsonValue)) (entries : List (String × Events)) : Prop :=
  (∃ read, (entries.mapM fun (key, entry) => (own entry).map fun value => (key, value)) = .ok read ∧
    fields = read.foldl (fun map (key, value) => Fields.insert key value map) values) ∧
  (entries.map Prod.fst).Nodup ∧ (∀ key ∈ seen, key ∉ entries.map Prod.fst) ∧
  ∀ entry ∈ entries, NoRepeats entry.2

theorem leaf_iff {ε ε' α : Type} {tree : Events} (h : NoRepeats tree) {a value : α} :
    (.ok a : Except ε α) = .ok value ↔ (.ok a : Except ε' α) = .ok value ∧ NoRepeats tree :=
  ⟨fun heq => ⟨congrArg _ (Except.ok.inj heq), h⟩, fun heq => congrArg _ (Except.ok.inj heq.1)⟩

mutual
/-- **The strict visitor against the own one**, over the events of a value. -/
theorem strictValue_iff {own : Events → Except String JsonValue} (hown : ReadsValues own) :
    ∀ (tree : Events), FiniteNumbers tree → ∀ value,
      strictValue tree = .ok value ↔ own tree = .ok value ∧ NoRepeats tree
  | .null, _, value => by
    rw [strictValue, hown.null]
    exact leaf_iff fun _ _ h => (by cases h)
  | .bool b, _, value => by
    rw [strictValue, hown.bool]
    exact leaf_iff fun _ _ h => (by cases h)
  | .number n, hfinite, value => by
    rw [strictValue, visitNumber_finite (hfinite n (.self _)), hown.number n (hfinite n (.self _))]
    exact leaf_iff fun _ _ h => (by cases h)
  | .string text, _, value => by
    rw [strictValue, hown.string]
    exact leaf_iff fun _ _ h => (by cases h)
  | .fault error, _, value => by
    rw [strictValue, hown.fault]
    exact ⟨fun h => (by cases h), fun h => (by cases h.1)⟩
  | .seq items stop, hfinite, value => by
    have hitems := strictItems_iff hown items
      fun item hitem number hwithin => hfinite number (.item hitem hwithin)
    rw [hown.seq, noRepeats_seq, strictValue, bind_ok_iff, bind_ok_iff]
    constructor
    · intro ⟨values, hvalues, hstop⟩
      obtain ⟨hread, hitems⟩ := (hitems values).mp hvalues
      refine ⟨⟨values, hread, ?_⟩, hitems⟩
      cases stop with
      | none => exact congrArg _ (Except.ok.inj hstop)
      | some error => cases hstop
    · intro ⟨⟨values, hread, hstop⟩, hnone⟩
      obtain ⟨rfl, rfl⟩ := finished_ok_iff.mp hstop
      exact ⟨values, (hitems values).mpr ⟨hread, hnone⟩, rfl⟩
  | .map entries stop, hfinite, value => by
    have hentries := strictEntries_iff hown [] [] entries
      fun entry hentry number hwithin => hfinite number (.entry hentry hwithin)
    rw [hown.map, noRepeats_map, strictValue, bind_ok_iff, bind_ok_iff]
    constructor
    · intro ⟨fields, hfields, hstop⟩
      obtain ⟨⟨read, hread, hfold⟩, hkeys, _, hnone⟩ := (hentries fields).mp hfields
      refine ⟨⟨read, hread, ?_⟩, hkeys, hnone⟩
      cases stop with
      | none =>
        rw [hfold] at hstop
        exact congrArg _ (Except.ok.inj hstop)
      | some error => cases hstop
    · intro ⟨⟨read, hread, hstop⟩, hkeys, hnone⟩
      obtain ⟨rfl, rfl⟩ := finished_ok_iff.mp hstop
      exact ⟨_, (hentries _).mpr ⟨⟨read, hread, rfl⟩, hkeys, nofun, hnone⟩, rfl⟩

theorem strictItems_iff {own : Events → Except String JsonValue} (hown : ReadsValues own) :
    ∀ (items : List Events), (∀ item ∈ items, FiniteNumbers item) → ∀ values,
      strictItems items = .ok values ↔
        items.mapM own = .ok values ∧ ∀ item ∈ items, NoRepeats item
  | [], _, values => by
    rw [strictItems, List.mapM_nil]
    exact ⟨fun h => ⟨congrArg _ (Except.ok.inj h), nofun⟩, fun h => congrArg _ (Except.ok.inj h.1)⟩
  | item :: items, hfinite, values => by
    have hitem := strictValue_iff hown item (hfinite item List.mem_cons_self)
    have hitems := strictItems_iff hown items fun item h => hfinite item (List.mem_cons_of_mem _ h)
    rw [strictItems, List.mapM_cons, List.forall_mem_cons, bind_ok_iff, bind_ok_iff]
    constructor
    · intro ⟨value, hvalue, hrest⟩
      obtain ⟨rest, hstrict, hcons⟩ := bind_ok_iff.mp hrest
      obtain ⟨hown, hnone⟩ := (hitem value).mp hvalue
      obtain ⟨hread, hnones⟩ := (hitems rest).mp hstrict
      exact ⟨⟨value, hown, bind_ok_iff.mpr ⟨rest, hread, congrArg _ (Except.ok.inj hcons)⟩⟩,
        hnone, hnones⟩
    · intro ⟨⟨value, hown, hrest⟩, hnone, hnones⟩
      obtain ⟨rest, hread, hcons⟩ := bind_ok_iff.mp hrest
      exact ⟨value, (hitem value).mpr ⟨hown, hnone⟩, bind_ok_iff.mpr
        ⟨rest, (hitems rest).mpr ⟨hread, hnones⟩, congrArg _ (Except.ok.inj hcons)⟩⟩

theorem strictEntries_iff {own : Events → Except String JsonValue} (hown : ReadsValues own) :
    ∀ (seen : List String) (values : List (String × JsonValue)) (entries : List (String × Events)),
      (∀ entry ∈ entries, FiniteNumbers entry.2) → ∀ fields,
        strictEntries seen values entries = .ok fields ↔ Filled own seen values fields entries
  | seen, values, [], _, fields => by
    rw [strictEntries, Filled]
    constructor
    · intro h
      exact ⟨⟨[], rfl, (Except.ok.inj h).symm⟩, .nil, nofun, nofun⟩
    · intro ⟨⟨read, hread, hfold⟩, _⟩
      cases hread
      exact congrArg _ hfold.symm
  | seen, values, (key, entry) :: entries, hfinite, fields => by
    have hentry := strictValue_iff hown entry (hfinite (key, entry) List.mem_cons_self)
    have hentries := fun value => strictEntries_iff hown (key :: seen)
      (Fields.insert key value values) entries
      fun entry h => hfinite entry (List.mem_cons_of_mem _ h)
    rw [strictEntries, Filled, List.mapM_cons, List.map_cons, List.nodup_cons, List.forall_mem_cons]
    constructor
    · intro h
      split at h
      · cases h
      · rename_i hnew
        obtain ⟨value, hvalue, hrest⟩ := bind_ok_iff.mp h
        obtain ⟨hread, hnone⟩ := (hentry value).mp hvalue
        obtain ⟨⟨read, hreads, hfold⟩, hkeys, hseen, hnones⟩ := (hentries value fields).mp hrest
        refine ⟨⟨(key, value) :: read, ?_, hfold⟩, ⟨hseen key List.mem_cons_self, hkeys⟩, ?_,
          hnone, hnones⟩
        · exact bind_ok_iff.mpr ⟨(key, value), map_ok_iff.mpr ⟨value, hread, rfl⟩,
            bind_ok_iff.mpr ⟨read, hreads, rfl⟩⟩
        · intro key' hkey' hmem
          obtain rfl | hmem := List.mem_cons.mp hmem
          · exact hnew hkey'
          · exact hseen key' (List.mem_cons_of_mem _ hkey') hmem
    · intro ⟨⟨all, hread, hfold⟩, ⟨hfresh, hkeys⟩, hseen, hnone, hnones⟩
      obtain ⟨pair, hpair, hread⟩ := bind_ok_iff.mp hread
      obtain ⟨value, hvalue, rfl⟩ := map_ok_iff.mp hpair
      obtain ⟨read, hreads, hcons⟩ := bind_ok_iff.mp hread
      cases hcons
      rw [if_neg fun hmem => hseen key hmem List.mem_cons_self]
      refine bind_ok_iff.mpr ⟨value, (hentry value).mpr ⟨hvalue, hnone⟩, ?_⟩
      refine (hentries value fields).mpr ⟨⟨read, hreads, hfold⟩, hkeys, ?_, hnones⟩
      intro key' hkey' hmem
      obtain rfl | hkey' := List.mem_cons.mp hkey'
      · exact hfresh hmem
      · exact hseen key' hkey' (List.mem_cons_of_mem _ hmem)
end

/-! ## A text -/

variable {serde : SerdeJson} {own : Events → Except String JsonValue} {text : String}

theorem parseStrictJson_ok_iff {value : JsonValue} :
    parseStrictJson serde text = .ok value ↔
      strictValue (serde.events text).1 = .ok value ∧ (serde.events text).2 = none := by
  unfold parseStrictJson
  cases strictValue (serde.events text).1 with
  | error error => exact ⟨nofun, fun h => (by cases h.1)⟩
  | ok read =>
    cases (serde.events text).2 with
    | none => exact ⟨fun h => ⟨congrArg _ (Except.ok.inj h), rfl⟩, fun h => congrArg _ (Except.ok.inj h.1)⟩
    | some error => exact ⟨nofun, fun h => (by cases h.2)⟩

theorem valueFromStr_ok_iff {value : JsonValue} :
    valueFromStr serde own text = .ok value ↔
      own (serde.events text).1 = .ok value ∧ (serde.events text).2 = none := by
  rw [valueFromStr, bind_ok_iff]
  constructor
  · intro ⟨read, hread, hstop⟩
    obtain ⟨hnone, rfl⟩ := finished_ok_iff.mp hstop
    exact ⟨hread, hnone⟩
  · intro ⟨hread, hnone⟩
    exact ⟨value, hread, finished_ok_iff.mpr ⟨hnone, rfl⟩⟩

/-- **Strict JSON** accepts a text exactly when `serde_json` does and no object
repeats a key, and reads the same value. -/
theorem strict_reading (serde : SerdeJson) (own : Events → Except String JsonValue) (text : String)
    (hown : ReadsValues own) (hfinite : FiniteNumbers (serde.events text).1) :
    StrictReading serde own text := by
  have hsame : ∀ value, parseStrictJson serde text = .ok value ↔
      valueFromStr serde own text = .ok value ∧ NoRepeats (serde.events text).1 := by
    intro value
    rw [parseStrictJson_ok_iff, valueFromStr_ok_iff, strictValue_iff hown _ hfinite]
    exact and_right_comm
  refine ⟨⟨?_, ?_⟩, fun value h => ((hsame value).mp h).1, ?_⟩
  · intro ⟨value, h⟩
    exact ⟨⟨value, ((hsame value).mp h).1⟩, ((hsame value).mp h).2⟩
  · intro ⟨⟨value, h⟩, hnone⟩
    exact ⟨value, (hsame value).mpr ⟨h, hnone⟩⟩
  · intro request h
    obtain ⟨value, hvalue, _⟩ := bind_ok_iff.mp h
    exact ((hsame value).mp hvalue).2

/-! ## A repeated key -/

mutual
/-- A reader that keeps the last entry of a key. -/
def lastValue : Events → Except String JsonValue
  | .null => .ok .null
  | .bool value => .ok (.bool value)
  | .number (.float value) =>
    .ok (if value.isFinite then .number (.float value) else .null)
  | .number value => .ok (.number value)
  | .string value => .ok (.string value)
  | .seq items stop => do
    let values ← lastItems items
    finished stop (.array values)
  | .map entries stop => do
    let values ← lastEntries entries
    finished stop (.object (Fields.ofList values))
  | .fault error => .error error

def lastItems : List Events → Except String (List JsonValue)
  | [] => .ok []
  | item :: items => do
    let value ← lastValue item
    let values ← lastItems items
    .ok (value :: values)

def lastEntries : List (String × Events) → Except String (List (String × JsonValue))
  | [] => .ok []
  | (key, entry) :: entries => do
    let value ← lastValue entry
    let values ← lastEntries entries
    .ok ((key, value) :: values)
end

theorem lastItems_eq (items : List Events) : lastItems items = items.mapM lastValue := by
  induction items with
  | nil => rfl
  | cons item items ih =>
    rw [lastItems, List.mapM_cons, ih]
    rfl

theorem lastEntries_eq (entries : List (String × Events)) :
    lastEntries entries =
      entries.mapM fun (key, entry) => (lastValue entry).map fun value => (key, value) := by
  induction entries with
  | nil => rfl
  | cons entry entries ih =>
    obtain ⟨key, entry⟩ := entry
    rw [lastEntries, List.mapM_cons, ih]
    cases hvalue : lastValue entry with
    | error error => simp only [hvalue, Except.map, bind, Except.bind]
    | ok value =>
      simp only [hvalue, Except.map, bind, Except.bind]
      rfl

theorem lastValue_reads : ReadsValues lastValue where
  null := rfl
  bool _ := rfl
  number value hfinite := by
    cases value with
    | posInt n => rfl
    | negInt n => rfl
    | float n => exact congrArg _ (if_pos hfinite)
  string _ := rfl
  seq items stop := by
    rw [lastValue, lastItems_eq]
  map entries stop := by
    rw [lastValue, lastEntries_eq]
  fault _ := rfl

theorem finiteNumbers_number {number : Number} (h : number.Finite) :
    FiniteNumbers (.number number) := by
  intro number' hwithin
  cases hwithin
  exact h

theorem finiteNumbers_map {entries : List (String × Events)} {stop : Option String}
    (h : ∀ entry ∈ entries, FiniteNumbers entry.2) : FiniteNumbers (.map entries stop) := by
  intro number hwithin
  obtain heq | ⟨entry, hentry, hwithin⟩ := within_map hwithin
  · cases heq
  · exact h entry hentry number hwithin

/-- A field the decoder ignores names the key `a` twice, once with an escape. -/
def repeatedLine : String :=
  "\x7b\"v\":1,\"x\":\x7b\"a\":1,\"\\u0061\":2\x7d\x7d"

def repeatedEvents : Events :=
  .map [("v", .number (.posInt 1)),
    ("x", .map [("a", .number (.posInt 1)), ("a", .number (.posInt 2))] none)] none

/-- A deserializer that knows the one line. -/
def repeatedSerde : SerdeJson where
  events text :=
    if text = repeatedLine then (repeatedEvents, none)
    else (.fault "expected value at line 1 column 1", none)
  display _ error := error
  print _ := repeatedLine

theorem strict_reading_repeated : StrictReading repeatedSerde lastValue repeatedLine := by
  refine strict_reading repeatedSerde lastValue repeatedLine lastValue_reads ?_
  rw [show (repeatedSerde.events repeatedLine).1 = repeatedEvents from
    congrArg Prod.fst (if_pos rfl)]
  have hleaf : ∀ n, FiniteNumbers (.number (.posInt n)) := fun _ => finiteNumbers_number trivial
  refine finiteNumbers_map (List.forall_mem_cons.mpr ⟨hleaf 1, List.forall_mem_singleton.mpr ?_⟩)
  exact finiteNumbers_map
    (List.forall_mem_cons.mpr ⟨hleaf 1, List.forall_mem_singleton.mpr (hleaf 2)⟩)

end VcdTools.Server.Requests
