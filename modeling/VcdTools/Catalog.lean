import VcdTools.Data
import VcdTools.Lib.Groups

/-! # The signal catalog

`catalog.rs`, and `SignalIndex` and `build_target_map` of `lib.rs`. A catalog
carries the fact its constructors keep: the name table holds every signal under
its own full name, and no two signals share one. -/
namespace VcdTools
open VcdTools.Lib

/-- `vcd::IdCode`. -/
structure IdCode where
  code : Nat
  deriving DecidableEq, Repr

structure SignalKey where
  index : Nat
  deriving DecidableEq, Repr

structure ScopeKey where
  index : Nat
  deriving DecidableEq, Repr

structure ScopeNode where
  component : String
  parent : Option ScopeKey
  deriving DecidableEq, Repr

/-- `vcd::VarType`. -/
inductive VarType
  | event | integer | parameter | real | realTime | reg | string | supply0 | supply1 | time
  | tri | triAnd | triOr | triReg | tri0 | tri1 | wAnd | wire | wOr
  deriving DecidableEq, Repr

structure SignalMeta where
  idCode : IdCode
  fullName : String
  size : Nat
  type_ : VarType
  scope : Option ScopeKey
  deriving DecidableEq, Repr

def u32Max : Nat := 2 ^ 32 - 1

def catalogCapacityError : VcdError := .parse "VCD signal catalog exceeds supported size"

/-- `SignalKey::from_len`. -/
def SignalKey.fromLen (len : Nat) : Except VcdError {key : SignalKey // key.index = len} :=
  if len ≤ u32Max then .ok ⟨⟨len⟩, rfl⟩ else .error catalogCapacityError

/-- `ScopeKey::from_len`. -/
def ScopeKey.fromLen (len : Nat) : Except VcdError ScopeKey :=
  if len ≤ u32Max then .ok ⟨len⟩ else .error catalogCapacityError

/-- The name table of a list of signals. -/
structure Indexed (signals : List SignalMeta) (byName : List (String × SignalKey)) : Prop where
  keys : byName = signals.zipIdx.map fun entry => (entry.1.fullName, ⟨entry.2⟩)
  distinct : (signals.map (·.fullName)).Nodup

theorem indexed_nil : Indexed [] [] := ⟨rfl, List.nodup_nil⟩

variable {signals : List SignalMeta} {byName : List (String × SignalKey)}

theorem Indexed.lookup_none (h : Indexed signals byName) {name : String} :
    byName.lookup name = none ↔ name ∉ signals.map (·.fullName) := by
  rw [h.keys, List.lookup_eq_none_iff]
  constructor
  · intro hnone hmem
    obtain ⟨signal, hsignal, rfl⟩ := List.mem_map.mp hmem
    obtain ⟨i, hi⟩ := List.mem_iff_getElem?.mp hsignal
    have hentry := hnone (signal.fullName, ⟨i⟩)
      (List.mem_map.mpr ⟨(signal, i), by simpa [List.mem_zipIdx_iff_getElem?] using hi, rfl⟩)
    simp at hentry
  · intro hname entry hentry
    obtain ⟨⟨signal, i⟩, hsignal, rfl⟩ := List.mem_map.mp hentry
    have hmem : signal ∈ signals := List.mem_of_getElem? (List.mem_zipIdx_iff_getElem?.mp hsignal)
    simpa using fun heq : name = signal.fullName => hname (heq ▸ List.mem_map_of_mem hmem)

/-- A signal with a new name goes to the end of both lists. -/
theorem Indexed.concat (h : Indexed signals byName) (signal : SignalMeta)
    (hnew : byName.lookup signal.fullName = none) :
    Indexed (signals ++ [signal]) (byName ++ [(signal.fullName, ⟨signals.length⟩)]) where
  keys := by
    simp [List.zipIdx_append, h.keys]
  distinct := by
    rw [List.map_append, List.nodup_append]
    refine ⟨h.distinct, by simp, ?_⟩
    intro name hname name' hname' heq
    rw [List.map_singleton, List.mem_singleton] at hname'
    subst hname' heq
    exact h.lookup_none.mp hnew hname

structure SignalCatalog where
  signals : List SignalMeta
  byName : List (String × SignalKey)
  aliasesById : Groups IdCode SignalKey
  scopes : List ScopeNode
  indexed : Indexed signals byName

/-- `SignalCatalog::key_by_name`. -/
def SignalCatalog.keyByName (catalog : SignalCatalog) (name : String) : Option SignalKey :=
  catalog.byName.lookup name

/-- `SignalCatalog::signal`; `none` is the panic of a key out of bounds. -/
def SignalCatalog.signal (catalog : SignalCatalog) (key : SignalKey) : Option SignalMeta :=
  catalog.signals[key.index]?

/-- `SignalCatalog::names`. -/
def SignalCatalog.names (catalog : SignalCatalog) : List String := catalog.signals.map (·.fullName)

/-- `SignalCatalog::aliases`. -/
def SignalCatalog.aliases (catalog : SignalCatalog) (id : IdCode) : List SignalKey :=
  catalog.aliasesById.getD id

/-- The signal a name stands for. -/
def SignalCatalog.find (catalog : SignalCatalog) (name : String) : Option SignalMeta :=
  catalog.signals.find? fun signal => signal.fullName = name

theorem lookup_zipIdx_bind (pre signals : List SignalMeta) (name : String) :
    (((signals.zipIdx pre.length).map fun entry =>
        (entry.1.fullName, (⟨entry.2⟩ : SignalKey))).lookup name).bind
      (fun key => (pre ++ signals)[key.index]?) =
      signals.find? fun signal => signal.fullName = name := by
  induction signals generalizing pre with
  | nil => rfl
  | cons signal rest ih =>
    rw [List.zipIdx_cons, List.map_cons, List.lookup_cons, List.find?_cons]
    by_cases hname : name = signal.fullName
    · subst hname
      simp
    · have hne : ¬ signal.fullName = name := fun h => hname h.symm
      have hrest := ih (pre ++ [signal])
      rw [List.length_append, List.append_assoc, List.length_singleton,
        List.singleton_append] at hrest
      simpa only [beq_eq_false_iff_ne.mpr hname, hne, decide_false] using hrest

/-- **A name finds its signal**, and the key it is looked up with is in bounds. -/
theorem SignalCatalog.signal_keyByName (catalog : SignalCatalog) (name : String) :
    (catalog.keyByName name).bind catalog.signal = catalog.find name := by
  have h := lookup_zipIdx_bind [] catalog.signals name
  rw [keyByName, catalog.indexed.keys]
  exact h

theorem SignalCatalog.find_name {catalog : SignalCatalog} {name : String} {signal : SignalMeta}
    (h : catalog.find name = some signal) : signal.fullName = name := by
  simpa using List.find?_some h

/-! ## Building a catalog from a header -/

/-- `vcd::ReferenceIndex`. -/
inductive ReferenceIndex
  | bitSelect (bit : Int)
  | range (msb lsb : Int)
  deriving DecidableEq, Repr

/-- `impl Display for ReferenceIndex`. -/
def ReferenceIndex.toText : ReferenceIndex → String
  | .bitSelect bit => "[" ++ toString bit ++ "]"
  | .range msb lsb => "[" ++ toString msb ++ ":" ++ toString lsb ++ "]"

/-- `vcd::Var`. -/
structure Var where
  varType : VarType
  size : Nat
  code : IdCode
  reference : String
  index : Option ReferenceIndex
  deriving DecidableEq, Repr

/-- `vcd::ScopeItem`: a scope, a variable, or an item the catalog passes over. -/
inductive ScopeItem
  | scope (identifier : String) (items : List ScopeItem)
  | var (var : Var)
  | comment (text : String)

/-- The name of a scope's component or variable below `path`. -/
def joinName (path name : String) : String :=
  if path.isEmpty then name else path ++ "." ++ name

def Var.fullName (path : String) (var : Var) : String :=
  joinName path var.reference ++ (var.index.map ReferenceIndex.toText).getD ""

structure CatalogBuilder where
  signals : List SignalMeta
  byName : List (String × SignalKey)
  aliasesById : Groups IdCode SignalKey
  scopes : List ScopeNode
  indexed : Indexed signals byName

def CatalogBuilder.new : CatalogBuilder := ⟨[], [], [], [], indexed_nil⟩

/-- `CatalogBuilder::add_scope`. -/
def CatalogBuilder.addScope (builder : CatalogBuilder) (component : String)
    (parent : Option ScopeKey) : Except VcdError (CatalogBuilder × ScopeKey) := do
  let key ← ScopeKey.fromLen builder.scopes.length
  return ({ builder with scopes := builder.scopes ++ [⟨component, parent⟩] }, key)

/-- `CatalogBuilder::add_signal`. -/
def CatalogBuilder.addSignal (builder : CatalogBuilder) (scope : Option ScopeKey) (path : String)
    (var : Var) : Except VcdError CatalogBuilder := do
  let ⟨key, hkey⟩ ← SignalKey.fromLen builder.signals.length
  let signal : SignalMeta := ⟨var.code, var.fullName path, var.size, var.varType, scope⟩
  if hnew : builder.byName.lookup signal.fullName = none then
    return {
      signals := builder.signals ++ [signal]
      byName := builder.byName ++ [(signal.fullName, key)]
      aliasesById := builder.aliasesById.push var.code key
      scopes := builder.scopes
      indexed := by
        obtain ⟨index⟩ := key
        cases hkey
        exact builder.indexed.concat signal hnew }
  else throw (.duplicateSignal signal.fullName)

mutual

/-- One round of `CatalogBuilder::collect`. -/
def CatalogBuilder.collectItem (builder : CatalogBuilder) (parent : Option ScopeKey)
    (path : String) : ScopeItem → Except VcdError CatalogBuilder
  | .scope identifier items => do
    let (builder, key) ← builder.addScope identifier parent
    builder.collect (some key) (joinName path identifier) items
  | .var var => builder.addSignal parent path var
  | .comment _ => .ok builder

/-- `CatalogBuilder::collect`. -/
def CatalogBuilder.collect (builder : CatalogBuilder) (parent : Option ScopeKey)
    (path : String) : List ScopeItem → Except VcdError CatalogBuilder
  | [] => .ok builder
  | item :: items => do
    let builder ← builder.collectItem parent path item
    builder.collect parent path items

end

/-- `CatalogBuilder::finish`. -/
def CatalogBuilder.finish (builder : CatalogBuilder) : SignalCatalog :=
  ⟨builder.signals, builder.byName, builder.aliasesById, builder.scopes, builder.indexed⟩

/-- `SignalCatalog::from_scope_items`. -/
def SignalCatalog.fromScopeItems (items : List ScopeItem) : Except VcdError SignalCatalog := do
  let builder ← CatalogBuilder.new.collect none "" items
  return builder.finish

/-! ## The compatibility index -/

structure Signal where
  name : String
  idCode : IdCode
  size : Nat
  type_ : VarType
  scope : List String
  deriving DecidableEq, Repr

/-- The loop from a scope up to the outermost one. It has at most `fuel` rounds; a
key out of bounds, where the code would panic, ends it. -/
def scopeKeys (scopes : List ScopeNode) : Nat → Option ScopeKey → List ScopeKey
  | _, none => []
  | 0, some _ => []
  | fuel + 1, some key =>
    key :: scopeKeys scopes fuel (scopes[key.index]?.bind (·.parent))

/-- The components on the way down to a scope. -/
def scopeWalk (scopes : List ScopeNode) (scope : Option ScopeKey) : List String :=
  (scopeKeys scopes scopes.length scope).reverse.filterMap fun key =>
    scopes[key.index]?.map (·.component)

/-- `SignalCatalog::scope_component_refs`. -/
def SignalCatalog.scopeComponentRefs (catalog : SignalCatalog) (key : SignalKey) :
    Option (List String) :=
  (catalog.signal key).map fun signal => scopeWalk catalog.scopes signal.scope

/-- `SignalCatalog::scope_components`. -/
def SignalCatalog.scopeComponents (catalog : SignalCatalog) (scope : Option ScopeKey) :
    List String :=
  scopeWalk catalog.scopes scope

structure SignalIndex where
  byId : Groups IdCode Signal
  byName : List (String × Signal)
  deriving Repr

/-- The loop of `SignalIndex::build`. -/
def SignalIndex.buildLoop (index : SignalIndex) : List Signal → Except VcdError SignalIndex
  | [] => .ok index
  | sig :: signals =>
    let byId := index.byId.push sig.idCode sig
    if (index.byName.lookup sig.name).isSome then .error (.duplicateSignal sig.name)
    else SignalIndex.buildLoop ⟨byId, index.byName ++ [(sig.name, sig)]⟩ signals

/-- `SignalIndex::build`. -/
def SignalIndex.build (signals : List Signal) : Except VcdError SignalIndex :=
  SignalIndex.buildLoop ⟨[], []⟩ signals

def SignalMeta.toOwned (scopeComponents : Option ScopeKey → List String) (signal : SignalMeta) :
    Signal :=
  ⟨signal.fullName, signal.idCode, signal.size, signal.type_, scopeComponents signal.scope⟩

/-- `SignalCatalog::to_owned_signals`. -/
def SignalCatalog.toOwnedSignals (catalog : SignalCatalog) : List Signal :=
  catalog.signals.map (SignalMeta.toOwned catalog.scopeComponents)

/-- `SignalCatalog::to_compatibility_parts`. -/
def SignalCatalog.toCompatibilityParts (catalog : SignalCatalog) :
    Except VcdError (List Signal × SignalIndex) := do
  let signals := catalog.toOwnedSignals
  let index ← SignalIndex.build signals
  return (signals, index)

/-- `SignalCatalog::into_compatibility_parts`, with its own walk over the scopes. -/
def SignalCatalog.intoCompatibilityParts (catalog : SignalCatalog) :
    Except VcdError (List Signal × SignalIndex) := do
  let signals := catalog.signals.map (SignalMeta.toOwned (scopeWalk catalog.scopes))
  let index ← SignalIndex.build signals
  return (signals, index)

theorem SignalIndex.buildLoop_ok (index : SignalIndex) (signals : List Signal)
    (hnew : ∀ sig ∈ signals, index.byName.lookup sig.name = none)
    (hdistinct : (signals.map (·.name)).Nodup) :
    ∃ built, index.buildLoop signals = .ok built ∧
      built.byName = index.byName ++ signals.map (fun sig => (sig.name, sig)) ∧
      (∀ id, built.byId.getD id = index.byId.getD id ++ signals.filter (·.idCode = id)) ∧
      (index.byId.Filled → built.byId.Filled) := by
  induction signals generalizing index with
  | nil => exact ⟨index, rfl, by simp, by simp, id⟩
  | cons sig rest ih =>
    obtain ⟨hsig, hrest⟩ := List.nodup_cons.mp hdistinct
    have hnone := hnew sig List.mem_cons_self
    have hnext : ∀ s ∈ rest, (index.byName ++ [(sig.name, sig)]).lookup s.name = none := by
      intro s hs
      have hne : s.name ≠ sig.name := fun h =>
        hsig (List.mem_map.mpr ⟨s, hs, h⟩)
      rw [List.lookup_append, hnew s (List.mem_cons_of_mem _ hs)]
      simp [hne]
    obtain ⟨built, hbuilt, hnames, hids, hfilled⟩ :=
      ih ⟨index.byId.push sig.idCode sig, index.byName ++ [(sig.name, sig)]⟩ hnext hrest
    refine ⟨built, ?_, by rw [hnames]; simp, ?_, fun h => hfilled (h.push _ _)⟩
    · rw [SignalIndex.buildLoop]
      simpa [hnone] using hbuilt
    · intro id
      rw [hids, Groups.getD_push, List.append_assoc]
      by_cases hid : sig.idCode = id <;> simp [hid]

/-- **The index of a catalog exists** and finds what the catalog finds. -/
theorem SignalCatalog.toCompatibilityParts_ok (catalog : SignalCatalog) :
    ∃ signals index, catalog.toCompatibilityParts = .ok (signals, index) ∧
      ∀ name, index.byName.lookup name =
        (catalog.find name).map (SignalMeta.toOwned catalog.scopeComponents) := by
  obtain ⟨index, hindex, hnames, -⟩ := SignalIndex.buildLoop_ok ⟨[], []⟩ catalog.toOwnedSignals
    (fun _ _ => rfl) (by simpa [toOwnedSignals, SignalMeta.toOwned, Function.comp_def]
      using catalog.indexed.distinct)
  refine ⟨catalog.toOwnedSignals, index, by simp [toCompatibilityParts, SignalIndex.build, hindex,
    bind, Except.bind, pure, Except.pure], fun name => ?_⟩
  rw [hnames, List.nil_append, toOwnedSignals, find]
  generalize catalog.scopeComponents = scopeComponents
  generalize catalog.signals = signals
  induction signals with
  | nil => rfl
  | cons signal rest ih =>
    rw [List.map_cons, List.map_cons, List.lookup_cons, List.find?_cons]
    by_cases hname : name = signal.fullName
    · subst hname
      simp [SignalMeta.toOwned]
    · have hne : ¬ signal.fullName = name := fun h => hname h.symm
      simpa [SignalMeta.toOwned, beq_eq_false_iff_ne.mpr hname, hne] using ih

/-! ## Target maps -/

/-- The loop of `build_target_map`. -/
def buildTargetMapLoop (index : SignalIndex) (mapping : Groups IdCode String)
    (missing : List String) : List String → Groups IdCode String × List String
  | [] => (mapping, missing)
  | name :: targets =>
    match index.byName.lookup name with
    | some sig => buildTargetMapLoop index (mapping.push sig.idCode sig.name) missing targets
    | none => buildTargetMapLoop index mapping (missing ++ [name]) targets

/-- `build_target_map`. -/
def buildTargetMap (index : SignalIndex) (targets : List String) :
    Groups IdCode String × List String :=
  buildTargetMapLoop index [] [] targets

/-- The requested names that stand for an identifier, one for each request, in
the order of the requests. -/
def SignalCatalog.requested (catalog : SignalCatalog) (targets : List String) (id : IdCode) :
    List String :=
  targets.filter fun name => (catalog.find name).map (·.idCode) = some id

theorem buildTargetMapLoop_spec {catalog : SignalCatalog} {index : SignalIndex}
    (hindex : ∀ name, index.byName.lookup name =
      (catalog.find name).map (SignalMeta.toOwned catalog.scopeComponents))
    (targets : List String) (hfound : ∀ name ∈ targets, (catalog.find name).isSome)
    (mapping : Groups IdCode String) (hmapping : mapping.Filled) :
    ∃ built, buildTargetMapLoop index mapping [] targets = (built, []) ∧ built.Filled ∧
      ∀ id, built.getD id = mapping.getD id ++ catalog.requested targets id := by
  induction targets generalizing mapping with
  | nil => exact ⟨mapping, rfl, hmapping, by simp [SignalCatalog.requested]⟩
  | cons name rest ih =>
    obtain ⟨signal, hsignal⟩ := Option.isSome_iff_exists.mp (hfound name List.mem_cons_self)
    have hname : signal.fullName = name := SignalCatalog.find_name hsignal
    obtain ⟨built, hbuilt, hfilled, hget⟩ := ih (fun n hn => hfound n (List.mem_cons_of_mem _ hn))
      (mapping.push signal.idCode name) (hmapping.push _ _)
    refine ⟨built, ?_, hfilled, fun id => ?_⟩
    · rw [buildTargetMapLoop, hindex, hsignal]
      simpa [SignalMeta.toOwned, hname] using hbuilt
    · rw [hget, Groups.getD_push]
      by_cases hid : signal.idCode = id <;>
        simp [SignalCatalog.requested, hsignal, hid]

/-- **The target map** of names that all exist holds each identifier's requested
names, and nothing is missing. -/
theorem buildTargetMap_spec {catalog : SignalCatalog} {index : SignalIndex}
    (hindex : ∀ name, index.byName.lookup name =
      (catalog.find name).map (SignalMeta.toOwned catalog.scopeComponents))
    {targets : List String} (hfound : ∀ name ∈ targets, (catalog.find name).isSome) :
    ∃ built, buildTargetMap index targets = (built, []) ∧ built.Filled ∧
      ∀ id, built.getD id = catalog.requested targets id := by
  obtain ⟨built, hbuilt, hfilled, hget⟩ :=
    buildTargetMapLoop_spec hindex targets hfound [] Groups.filled_nil
  exact ⟨built, hbuilt, hfilled, fun id => by simpa [Groups.getD] using hget id⟩

end VcdTools
