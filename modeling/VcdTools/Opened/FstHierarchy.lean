import Mathlib.Data.List.Induction
import Mathlib.Data.List.Infix
import Mathlib.Data.List.Nodup
import VcdTools.Lib.Fallible
import VcdTools.Opened.Fst

/-! # The catalog of an FST hierarchy

The callback of `read_hierarchy` in `OpenedFst::open_with_hierarchy_limit`, over
the entries `fst-reader` reports. Below it stands the hierarchy itself, which
knows which scopes enclose a declaration and charges no limit. -/
namespace VcdTools.Opened
open VcdTools.Lib

def maxHierarchyDepth : Nat := 1024

def maxDeclarations : Nat := 1000000

def maxNameBytes : Nat := 512 * 1024 * 1024

def maxCatalogBytes : Nat := 1024 * 1024 * 1024

/-- `size_of::<FstSignal>()` on a 64-bit target. -/
def fstSignalBytes : Nat := 40

/-- `FstHierarchyEntry::Scope`: the instance name, and the module type. -/
structure FstScope where
  name : String
  component : String
  deriving DecidableEq, Repr

/-- `fst_reader::FstVarType`, by what `signal_type` asks of it. -/
inductive FstVarType
  | genericString | real | other
  deriving DecidableEq, Repr

/-- `FstHierarchyEntry::Var`. -/
structure FstVar where
  type : FstVarType
  name : String
  length : Nat
  handle : Nat
  isAlias : Bool
  deriving DecidableEq, Repr

/-- `fst_reader::FstHierarchyEntry`. -/
inductive FstHierarchyEntry
  | scope (scope : FstScope)
  | upScope
  | var (var : FstVar)
  | other
  deriving DecidableEq, Repr

/-- `signal_type`. -/
def signalType : FstVarType → FstSignalType
  | .genericString => .genericString
  | .real => .real
  | .other => .digital

/-- `ensure_resource`. -/
def ensureResource (kind : String) (actual limit : Nat) : Except FstError Unit :=
  if actual > limit then .error (.resourceLimit kind limit actual) else .ok ()

/-- `charge_resource`: the new value of `current`. -/
def chargeResource (kind : String) (current amount limit : Nat) : Except FstError Nat :=
  let actual := saturatingAdd current amount
  if actual > limit then .error (.resourceLimit kind limit actual) else .ok actual

/-- The name a scope stands with. -/
def scopeLabel (scope : FstScope) : String :=
  if scope.component.isEmpty then scope.name else scope.component

/-- `full_name`. -/
def scopedName (scopes : List String) (name : String) : String :=
  if scopes.isEmpty then name else ".".intercalate scopes ++ "." ++ name

/-- `full_len`. -/
def scopedLength (scopes : List String) (name : String) : Nat :=
  saturatingAdd name.utf8ByteSize (scopes.map fun part => part.utf8ByteSize + 1).sum

def FstVar.signal (fullName : String) (var : FstVar) : FstSignal :=
  ⟨fullName, var.handle, var.length, signalType var.type, var.isAlias⟩

/-- The variables of the callback. -/
structure HierarchyBuilder where
  scopes : List String
  signals : List FstSignal
  names : List String
  nameBytes : Nat

/-- The callback; an error is `hierarchy_error`, after which it passes over every
entry. -/
def HierarchyBuilder.entry (builder : HierarchyBuilder) :
    FstHierarchyEntry → Except FstError HierarchyBuilder
  | .scope scope => do
    let component := scopeLabel scope
    ensureResource "hierarchy_depth" (builder.scopes.length + 1) maxHierarchyDepth
    let nameBytes ← chargeResource "name_bytes" builder.nameBytes component.utf8ByteSize maxNameBytes
    return { builder with scopes := builder.scopes ++ [component], nameBytes := nameBytes }
  | .upScope => return { builder with scopes := builder.scopes.dropLast }
  | .var var => do
    ensureResource "declarations" (builder.signals.length + 1) maxDeclarations
    let nameBytes ← chargeResource "name_bytes" builder.nameBytes
      (scopedLength builder.scopes var.name) maxNameBytes
    let estimated := saturatingAdd nameBytes
      (min ((builder.signals.length + 1) * (fstSignalBytes + 64)) u64Max)
    ensureResource "catalog_bytes" estimated maxCatalogBytes
    let fullName := scopedName builder.scopes var.name
    if builder.names.contains fullName then throw (.duplicateSignal fullName)
    return { builder with
      signals := builder.signals ++ [var.signal fullName]
      names := fullName :: builder.names
      nameBytes := nameBytes }
  | .other => return builder

/-- `signals` and `by_name` of the opened file. -/
structure FstCatalog where
  signals : List FstSignal
  byName : List (String × Nat)
  deriving DecidableEq, Repr

/-- The part of `open_with_hierarchy_limit` that builds the catalog: `ending` is
how `read_hierarchy` itself ends. -/
def fromHierarchy (entries : List FstHierarchyEntry) (ending : Caught) :
    Except FstError FstCatalog := do
  let built := entries.foldlM HierarchyBuilder.entry ⟨[], [], [], 0⟩
  match ending with
  | .panicked => throw .parserPanicked
  | .failed message => throw (.parse (bounded message))
  | .done =>
    let builder ← built
    return {
      signals := builder.signals
      byName := builder.signals.zipIdx.map fun entry => (entry.1.name, entry.2) }

/-! ## The hierarchy -/

/-- A variable and the scopes that enclose it, the outermost first. -/
abbrev Declaration := List FstScope × FstVar

/-- What has been read of a hierarchy: the open scopes, the declarations, and the
bytes of the names the builder keeps. -/
structure Hierarchy where
  openScopes : List FstScope
  declared : List Declaration
  nameBytes : Nat

def Hierarchy.next (hierarchy : Hierarchy) : FstHierarchyEntry → Hierarchy
  | .scope scope =>
    { hierarchy with
      openScopes := hierarchy.openScopes ++ [scope]
      nameBytes := saturatingAdd hierarchy.nameBytes (scopeLabel scope).utf8ByteSize }
  | .upScope => { hierarchy with openScopes := hierarchy.openScopes.dropLast }
  | .var var =>
    { hierarchy with
      declared := hierarchy.declared ++ [(hierarchy.openScopes, var)]
      nameBytes := saturatingAdd hierarchy.nameBytes
        (scopedLength (hierarchy.openScopes.map scopeLabel) var.name) }
  | .other => hierarchy

def Hierarchy.empty : Hierarchy := ⟨[], [], 0⟩

def hierarchyOf (entries : List FstHierarchyEntry) : Hierarchy :=
  entries.foldl Hierarchy.next .empty

/-- The full name of a declaration, with the scopes as `text` writes them. -/
def Declaration.fullName (text : FstScope → String) (declaration : Declaration) : String :=
  scopedName (declaration.1.map text) declaration.2.name

/-- **The full names**: the instance names of the enclosing scopes and the
variable's own, joined with dots, in declaration order. -/
def instanceNames (entries : List FstHierarchyEntry) : List String :=
  (hierarchyOf entries).declared.map (Declaration.fullName FstScope.name)

/-- The same with the module type of a scope that has one. -/
def labelledNames (entries : List FstHierarchyEntry) : List String :=
  (hierarchyOf entries).declared.map (Declaration.fullName scopeLabel)

/-- No limit is passed, at any entry. -/
def WithinLimits (entries : List FstHierarchyEntry) : Prop :=
  ∀ before, before <+: entries →
    (hierarchyOf before).openScopes.length ≤ maxHierarchyDepth ∧
    (hierarchyOf before).declared.length ≤ maxDeclarations ∧
    (hierarchyOf before).nameBytes ≤ maxNameBytes

/-- The limit that an entry is the first to pass, and by how much. -/
inductive Hierarchy.Passes (hierarchy : Hierarchy) (entry : FstHierarchyEntry) :
    String → Nat → Nat → Prop
  | depth (h : (hierarchy.next entry).openScopes.length = maxHierarchyDepth + 1) :
    Passes hierarchy entry "hierarchy_depth" maxHierarchyDepth (maxHierarchyDepth + 1)
  | declarations (h : (hierarchy.next entry).declared.length = maxDeclarations + 1) :
    Passes hierarchy entry "declarations" maxDeclarations (maxDeclarations + 1)
  | nameBytes (hdepth : (hierarchy.next entry).openScopes.length ≤ maxHierarchyDepth)
    (hdeclared : (hierarchy.next entry).declared.length ≤ maxDeclarations)
    (h : maxNameBytes < (hierarchy.next entry).nameBytes) :
    Passes hierarchy entry "name_bytes" maxNameBytes (hierarchy.next entry).nameBytes

/-- **What the catalog of a hierarchy should be.** -/
structure HierarchyRight (entries : List FstHierarchyEntry) : Prop where
  /-- Each limit rejects the entry that passes it, and no other. -/
  limits : ∀ kind limit actual,
    fromHierarchy entries .done = .error (.resourceLimit kind limit actual) ↔
      ∃ before entry after, entries = before ++ entry :: after ∧ WithinLimits before ∧
        (labelledNames before).Nodup ∧ (hierarchyOf before).Passes entry kind limit actual
  /-- Two equal full names fail, and nothing else does. -/
  duplicate : WithinLimits entries →
    ((∃ name, fromHierarchy entries .done = .error (.duplicateSignal name)) ↔
      ¬ (instanceNames entries).Nodup)
  /-- The variables in declaration order under their full names, and the inverse. -/
  listed : WithinLimits entries → (instanceNames entries).Nodup →
    ∃ catalog, fromHierarchy entries .done = .ok catalog ∧
      catalog.signals = (hierarchyOf entries).declared.map (fun declaration =>
        declaration.2.signal (declaration.fullName FstScope.name)) ∧
      ∀ name index, catalog.byName.lookup name = some index ↔
        (instanceNames entries)[index]? = some name

/-! ## Well-nested hierarchies -/

/-- What a well-nested sequence of entries says: scopes around their items. -/
inductive HierarchyItem
  | scope (scope : FstScope) (items : List HierarchyItem)
  | var (var : FstVar)
  | other

mutual

/-- The entries `fst-reader` reports for an item. -/
def HierarchyItem.entries : HierarchyItem → List FstHierarchyEntry
  | .scope scope items => .scope scope :: (forestEntries items ++ [.upScope])
  | .var var => [.var var]
  | .other => [.other]

def forestEntries : List HierarchyItem → List FstHierarchyEntry
  | [] => []
  | item :: items => item.entries ++ forestEntries items

end

mutual

/-- The declarations of an item below its enclosing scopes, in preorder. -/
def HierarchyItem.declarations (enclosing : List FstScope) : HierarchyItem → List Declaration
  | .scope scope items => forestDeclarations (enclosing ++ [scope]) items
  | .var var => [(enclosing, var)]
  | .other => []

def forestDeclarations (enclosing : List FstScope) : List HierarchyItem → List Declaration
  | [] => []
  | item :: items => item.declarations enclosing ++ forestDeclarations enclosing items

end

mutual

theorem item_entries (item : HierarchyItem) (hierarchy : Hierarchy) :
    (item.entries.foldl Hierarchy.next hierarchy).openScopes = hierarchy.openScopes ∧
    (item.entries.foldl Hierarchy.next hierarchy).declared =
      hierarchy.declared ++ item.declarations hierarchy.openScopes := by
  match item with
  | .scope scope items =>
    rw [HierarchyItem.entries, List.foldl_cons, List.foldl_append, HierarchyItem.declarations]
    obtain ⟨hscopes, hdeclared⟩ := forest_entries items (hierarchy.next (.scope scope))
    refine ⟨?_, hdeclared⟩
    simp only [List.foldl_cons, List.foldl_nil, Hierarchy.next] at hscopes ⊢
    rw [hscopes, List.dropLast_concat]
  | .var var => exact ⟨rfl, rfl⟩
  | .other => exact ⟨rfl, (List.append_nil _).symm⟩

theorem forest_entries (items : List HierarchyItem) (hierarchy : Hierarchy) :
    ((forestEntries items).foldl Hierarchy.next hierarchy).openScopes = hierarchy.openScopes ∧
    ((forestEntries items).foldl Hierarchy.next hierarchy).declared =
      hierarchy.declared ++ forestDeclarations hierarchy.openScopes items := by
  match items with
  | [] => exact ⟨rfl, (List.append_nil _).symm⟩
  | item :: items =>
    obtain ⟨hscopes, hdeclared⟩ := item_entries item hierarchy
    obtain ⟨hscopes', hdeclared'⟩ :=
      forest_entries items (item.entries.foldl Hierarchy.next hierarchy)
    rw [forestEntries, List.foldl_append, forestDeclarations]
    refine ⟨hscopes'.trans hscopes, ?_⟩
    rw [hdeclared', hdeclared, hscopes, List.append_assoc]

end

/-- **The declarations of a well-nested sequence** are those of its items, each
below the scopes around it, and every scope is closed. -/
theorem hierarchyOf_forest (items : List HierarchyItem) :
    (hierarchyOf (forestEntries items)).openScopes = [] ∧
    (hierarchyOf (forestEntries items)).declared = forestDeclarations [] items :=
  forest_entries items .empty

/-! ## The callback follows the hierarchy -/

/-- The builder that has read a hierarchy. -/
def Hierarchy.builder (hierarchy : Hierarchy) : HierarchyBuilder where
  scopes := hierarchy.openScopes.map scopeLabel
  signals := hierarchy.declared.map fun declaration =>
    declaration.2.signal (declaration.fullName scopeLabel)
  names := (hierarchy.declared.map (Declaration.fullName scopeLabel)).reverse
  nameBytes := hierarchy.nameBytes

/-- Why the callback refuses an entry. -/
def Hierarchy.stop (hierarchy : Hierarchy) (entry : FstHierarchyEntry) : Option FstError :=
  match entry with
  | .scope _ =>
    if (hierarchy.next entry).openScopes.length > maxHierarchyDepth then
      some (.resourceLimit "hierarchy_depth" maxHierarchyDepth (hierarchy.next entry).openScopes.length)
    else if (hierarchy.next entry).nameBytes > maxNameBytes then
      some (.resourceLimit "name_bytes" maxNameBytes (hierarchy.next entry).nameBytes)
    else none
  | .var var =>
    if (hierarchy.next entry).declared.length > maxDeclarations then
      some (.resourceLimit "declarations" maxDeclarations (hierarchy.next entry).declared.length)
    else if (hierarchy.next entry).nameBytes > maxNameBytes then
      some (.resourceLimit "name_bytes" maxNameBytes (hierarchy.next entry).nameBytes)
    else if Declaration.fullName scopeLabel (hierarchy.openScopes, var) ∈
        hierarchy.declared.map (Declaration.fullName scopeLabel) then
      some (.duplicateSignal (Declaration.fullName scopeLabel (hierarchy.openScopes, var)))
    else none
  | .upScope | .other => none

theorem ensureResource_ok {kind : String} {actual limit : Nat} (h : ¬ actual > limit) :
    ensureResource kind actual limit = .ok () := if_neg h

theorem ensureResource_error {kind : String} {actual limit : Nat} (h : actual > limit) :
    ensureResource kind actual limit = .error (.resourceLimit kind limit actual) := if_pos h

theorem chargeResource_ok {kind : String} {current amount limit : Nat}
    (h : ¬ saturatingAdd current amount > limit) :
    chargeResource kind current amount limit = .ok (saturatingAdd current amount) := if_neg h

theorem chargeResource_error {kind : String} {current amount limit : Nat}
    (h : saturatingAdd current amount > limit) : chargeResource kind current amount limit =
      .error (.resourceLimit kind limit (saturatingAdd current amount)) := if_pos h

/-- A million declarations and their names fit into a catalog. -/
theorem catalogBytes_fit {nameBytes declared : Nat} (hbytes : ¬ nameBytes > maxNameBytes)
    (hdeclared : ¬ declared > maxDeclarations) :
    ¬ saturatingAdd nameBytes (min (declared * (fstSignalBytes + 64)) u64Max) > maxCatalogBytes := by
  have hsum : nameBytes + min (declared * (fstSignalBytes + 64)) u64Max ≤ maxCatalogBytes := by
    have hmin := Nat.min_le_left (declared * (fstSignalBytes + 64)) u64Max
    unfold fstSignalBytes maxCatalogBytes at *
    unfold maxNameBytes at hbytes
    unfold maxDeclarations at hdeclared
    omega
  exact Nat.not_lt.mpr (Nat.le_trans (Nat.min_le_left _ _) hsum)

theorem entry_scope (hierarchy : Hierarchy) (scope : FstScope) :
    hierarchy.builder.entry (.scope scope) =
      (hierarchy.stop (.scope scope)).elim (.ok (hierarchy.next (.scope scope)).builder) .error := by
  have hlength : (hierarchy.next (.scope scope)).openScopes.length =
      hierarchy.builder.scopes.length + 1 := by
    simp [Hierarchy.next, Hierarchy.builder]
  have hcharge : (hierarchy.next (.scope scope)).nameBytes =
      saturatingAdd hierarchy.builder.nameBytes (scopeLabel scope).utf8ByteSize := rfl
  simp only [HierarchyBuilder.entry, Hierarchy.stop, hlength]
  by_cases hdepth : hierarchy.builder.scopes.length + 1 > maxHierarchyDepth
  · rw [if_pos hdepth, ensureResource_error hdepth]
    rfl
  · rw [if_neg hdepth, ensureResource_ok hdepth]
    by_cases hbytes : (hierarchy.next (.scope scope)).nameBytes > maxNameBytes
    · rw [if_pos hbytes, chargeResource_error (hcharge ▸ hbytes), hcharge]
      rfl
    · rw [if_neg hbytes, chargeResource_ok (hcharge ▸ hbytes)]
      simp [Hierarchy.next, Hierarchy.builder, bind, Except.bind, pure, Except.pure]

theorem entry_var (hierarchy : Hierarchy) (var : FstVar) :
    hierarchy.builder.entry (.var var) =
      (hierarchy.stop (.var var)).elim (.ok (hierarchy.next (.var var)).builder) .error := by
  have hlength : (hierarchy.next (.var var)).declared.length =
      hierarchy.builder.signals.length + 1 := by
    simp [Hierarchy.next, Hierarchy.builder]
  have hcharge : (hierarchy.next (.var var)).nameBytes =
      saturatingAdd hierarchy.builder.nameBytes (scopedLength hierarchy.builder.scopes var.name) := rfl
  simp only [HierarchyBuilder.entry, Hierarchy.stop, hlength]
  by_cases hdeclared : hierarchy.builder.signals.length + 1 > maxDeclarations
  · rw [if_pos hdeclared, ensureResource_error hdeclared]
    rfl
  · rw [if_neg hdeclared, ensureResource_ok hdeclared]
    by_cases hbytes : (hierarchy.next (.var var)).nameBytes > maxNameBytes
    · rw [if_pos hbytes, chargeResource_error (hcharge ▸ hbytes), hcharge]
      rfl
    · rw [if_neg hbytes, chargeResource_ok (hcharge ▸ hbytes), ← hcharge]
      have hcatalog := catalogBytes_fit hbytes hdeclared
      by_cases hname : Declaration.fullName scopeLabel (hierarchy.openScopes, var) ∈
          hierarchy.declared.map (Declaration.fullName scopeLabel)
      · have hcontains : hierarchy.builder.names.contains
            (scopedName hierarchy.builder.scopes var.name) = true :=
          List.contains_iff_mem.mpr (List.mem_reverse.mpr hname)
        rw [if_pos hname]
        simp only [bind, Except.bind]
        rw [ensureResource_ok hcatalog]
        simp only [hcontains]
        rfl
      · have hcontains : hierarchy.builder.names.contains
            (scopedName hierarchy.builder.scopes var.name) = false := by
          rw [← Bool.not_eq_true, List.contains_iff_mem]
          exact fun hmem => hname (List.mem_reverse.mp hmem)
        rw [if_neg hname]
        simp only [bind, Except.bind]
        rw [ensureResource_ok hcatalog]
        simp only [hcontains]
        simp [Hierarchy.next, Hierarchy.builder, Declaration.fullName, pure, Except.pure]

/-- **One entry**: the callback refuses it, or stays the builder of the hierarchy. -/
theorem entry_eq (hierarchy : Hierarchy) (entry : FstHierarchyEntry) :
    hierarchy.builder.entry entry =
      (hierarchy.stop entry).elim (.ok (hierarchy.next entry).builder) .error := by
  cases entry with
  | scope scope => exact entry_scope hierarchy scope
  | upScope =>
    simp [HierarchyBuilder.entry, Hierarchy.stop, Hierarchy.next, Hierarchy.builder,
      List.map_dropLast, pure, Except.pure]
  | var var => exact entry_var hierarchy var
  | other => rfl

/-- The catalog of a hierarchy under the names the builder gives. -/
def Hierarchy.catalog (hierarchy : Hierarchy) : FstCatalog where
  signals := hierarchy.builder.signals
  byName := hierarchy.builder.signals.zipIdx.map fun entry => (entry.1.name, entry.2)

/-- The first entry that is refused. -/
def refusal (entries : List FstHierarchyEntry) : Option FstError :=
  Fallible.firstStop Hierarchy.next Hierarchy.stop .empty entries

/-- **The catalog follows the hierarchy**, up to the first entry that is refused. -/
theorem fromHierarchy_eq (entries : List FstHierarchyEntry) :
    fromHierarchy entries .done = (refusal entries).elim (.ok (hierarchyOf entries).catalog) .error := by
  have hbuilt := Fallible.foldlM_checked Hierarchy.builder entry_eq Hierarchy.empty entries
  have hempty : Hierarchy.empty.builder = ⟨[], [], [], 0⟩ := rfl
  rw [hempty] at hbuilt
  unfold fromHierarchy
  rw [hbuilt]
  unfold refusal hierarchyOf
  cases Fallible.firstStop Hierarchy.next Hierarchy.stop .empty entries <;> rfl

/-! ## Which entry is refused -/

theorem hierarchyOf_concat (entries : List FstHierarchyEntry) (entry : FstHierarchyEntry) :
    hierarchyOf (entries ++ [entry]) = (hierarchyOf entries).next entry := by
  simp [hierarchyOf]

/-- The measures of a hierarchy that the limits are on. -/
def Hierarchy.Fits (hierarchy : Hierarchy) : Prop :=
  hierarchy.openScopes.length ≤ maxHierarchyDepth ∧
    hierarchy.declared.length ≤ maxDeclarations ∧ hierarchy.nameBytes ≤ maxNameBytes

theorem withinLimits_nil : WithinLimits [] := by
  intro before hbefore
  rw [List.prefix_nil.mp hbefore]
  exact ⟨Nat.zero_le _, Nat.zero_le _, Nat.zero_le _⟩

theorem WithinLimits.fits {entries : List FstHierarchyEntry} (h : WithinLimits entries) :
    (hierarchyOf entries).Fits := h entries List.prefix_rfl

theorem withinLimits_concat {entries : List FstHierarchyEntry} {entry : FstHierarchyEntry} :
    WithinLimits (entries ++ [entry]) ↔
      WithinLimits entries ∧ ((hierarchyOf entries).next entry).Fits := by
  constructor
  · intro h
    refine ⟨fun before hbefore => h before (hbefore.trans (List.prefix_append _ _)), ?_⟩
    rw [← hierarchyOf_concat]
    exact h.fits
  · intro ⟨h, hnext⟩ before hbefore
    obtain rfl | hbefore := List.prefix_concat_iff.mp hbefore
    · rw [← hierarchyOf_concat] at hnext
      exact hnext
    · exact h before hbefore

/-- A name that is new. -/
def Hierarchy.Fresh (hierarchy : Hierarchy) : FstHierarchyEntry → Prop
  | .var var => Declaration.fullName scopeLabel (hierarchy.openScopes, var) ∉
      hierarchy.declared.map (Declaration.fullName scopeLabel)
  | _ => True

theorem labelledNames_concat {entries : List FstHierarchyEntry} {entry : FstHierarchyEntry} :
    (labelledNames (entries ++ [entry])).Nodup ↔
      (labelledNames entries).Nodup ∧ (hierarchyOf entries).Fresh entry := by
  unfold labelledNames
  rw [hierarchyOf_concat]
  cases entry with
  | var var =>
    simp only [Hierarchy.next, Hierarchy.Fresh, List.map_append, List.map_singleton]
    rw [← List.concat_eq_append, List.nodup_concat, and_comm]
  | scope scope => simp [Hierarchy.next, Hierarchy.Fresh]
  | upScope => simp [Hierarchy.next, Hierarchy.Fresh]
  | other => simp [Hierarchy.next, Hierarchy.Fresh]

variable {hierarchy : Hierarchy} {entry : FstHierarchyEntry} {kind : String} {limit actual : Nat}

/-- **An entry is let through** when it passes no limit and repeats no name. -/
theorem stop_eq_none_iff (h : hierarchy.Fits) :
    hierarchy.stop entry = none ↔ (hierarchy.next entry).Fits ∧ hierarchy.Fresh entry := by
  obtain ⟨hdepth, hdeclared, hbytes⟩ := h
  cases entry with
  | scope scope =>
    have hsame : (hierarchy.next (.scope scope)).declared = hierarchy.declared := rfl
    simp only [Hierarchy.stop, Hierarchy.Fits, Hierarchy.Fresh, hsame]
    split <;> rename_i hover
    · simp; omega
    · split <;> rename_i hover'
      · simp; omega
      · simp; omega
  | var var =>
    have hsame : (hierarchy.next (.var var)).openScopes = hierarchy.openScopes := rfl
    simp only [Hierarchy.stop, Hierarchy.Fits, Hierarchy.Fresh, hsame]
    split <;> rename_i hover
    · simp; omega
    · split <;> rename_i hover'
      · simp; omega
      · split <;> rename_i hname
        · simp [hname]
        · simp [hname]; omega
  | upScope =>
    simp [Hierarchy.stop, Hierarchy.Fits, Hierarchy.Fresh, Hierarchy.next]
    omega
  | other => simp [Hierarchy.stop, Hierarchy.Fits, Hierarchy.Fresh, Hierarchy.next, *]

/-- **Which limit an entry is refused for.** -/
theorem stop_eq_resource_iff (h : hierarchy.Fits) :
    hierarchy.stop entry = some (.resourceLimit kind limit actual) ↔
      hierarchy.Passes entry kind limit actual := by
  obtain ⟨hdepth, hdeclared, hbytes⟩ := h
  cases entry with
  | scope scope =>
    have hlength : (hierarchy.next (.scope scope)).openScopes.length =
        hierarchy.openScopes.length + 1 := by
      simp [Hierarchy.next]
    have hsame : (hierarchy.next (.scope scope)).declared = hierarchy.declared := rfl
    constructor
    · intro hstop
      simp only [Hierarchy.stop] at hstop
      split at hstop <;> rename_i hover
      · have hover' : (hierarchy.next (.scope scope)).openScopes.length = maxHierarchyDepth + 1 := by
          omega
        cases hstop
        rw [hover']
        exact .depth hover'
      · split at hstop <;> rename_i hover'
        · cases hstop
          exact .nameBytes (Nat.not_lt.mp hover) (by rwa [hsame]) hover'
        · cases hstop
    · intro hpasses
      simp only [Hierarchy.stop]
      cases hpasses with
      | depth hover => rw [if_pos (by omega), hover]
      | declarations hover =>
        rw [hsame] at hover
        omega
      | nameBytes hdepth' hdeclared' hover => rw [if_neg (by omega), if_pos hover]
  | var var =>
    have hlength : (hierarchy.next (.var var)).declared.length = hierarchy.declared.length + 1 := by
      simp [Hierarchy.next]
    have hsame : (hierarchy.next (.var var)).openScopes = hierarchy.openScopes := rfl
    constructor
    · intro hstop
      simp only [Hierarchy.stop] at hstop
      split at hstop <;> rename_i hover
      · have hover' : (hierarchy.next (.var var)).declared.length = maxDeclarations + 1 := by omega
        cases hstop
        rw [hover']
        exact .declarations hover'
      · split at hstop <;> rename_i hover'
        · cases hstop
          exact .nameBytes (by rwa [hsame]) (Nat.not_lt.mp hover) hover'
        · split at hstop <;> cases hstop
    · intro hpasses
      simp only [Hierarchy.stop]
      cases hpasses with
      | depth hover =>
        rw [hsame] at hover
        omega
      | declarations hover => rw [if_pos (by omega), hover]
      | nameBytes hdepth' hdeclared' hover => rw [if_neg (by omega), if_pos hover]
  | upScope =>
    constructor
    · intro hstop
      cases hstop
    · intro hpasses
      have hshorter : (hierarchy.next .upScope).openScopes.length ≤ hierarchy.openScopes.length := by
        simp [Hierarchy.next]
      have hsame : (hierarchy.next .upScope).declared = hierarchy.declared := rfl
      have hsame' : (hierarchy.next .upScope).nameBytes = hierarchy.nameBytes := rfl
      cases hpasses with
      | depth hover => omega
      | declarations hover =>
        rw [hsame] at hover
        omega
      | nameBytes hdepth' hdeclared' hover =>
        rw [hsame'] at hover
        omega
  | other =>
    have hsame : hierarchy.next .other = hierarchy := rfl
    constructor
    · intro hstop
      cases hstop
    · intro hpasses
      cases hpasses <;> simp only [hsame] at * <;> omega

theorem stop_of_fits (h : (hierarchy.next entry).Fits) {error : FstError}
    (hstop : hierarchy.stop entry = some error) : ∃ name, error = .duplicateSignal name := by
  obtain ⟨hdepth, hdeclared, hbytes⟩ := h
  cases entry with
  | scope scope =>
    simp only [Hierarchy.stop] at hstop
    rw [if_neg (Nat.not_lt.mpr hdepth), if_neg (Nat.not_lt.mpr hbytes)] at hstop
    cases hstop
  | var var =>
    simp only [Hierarchy.stop] at hstop
    rw [if_neg (Nat.not_lt.mpr hdeclared), if_neg (Nat.not_lt.mpr hbytes)] at hstop
    split at hstop
    · cases hstop
      exact ⟨_, rfl⟩
    · cases hstop
  | upScope => cases hstop
  | other => cases hstop

/-! ## Runs -/

variable {entries : List FstHierarchyEntry}

/-- **What is let through** stays within the limits and repeats no name. -/
theorem refusal_eq_none_iff :
    refusal entries = none ↔ WithinLimits entries ∧ (labelledNames entries).Nodup := by
  induction entries using List.reverseRecOn with
  | nil => exact ⟨fun _ => ⟨withinLimits_nil, List.nodup_nil⟩, fun _ => rfl⟩
  | append_singleton entries entry ih =>
    have hlast : refusal (entries ++ [entry]) = none ↔
        refusal entries = none ∧ (hierarchyOf entries).stop entry = none := by
      unfold refusal
      rw [Fallible.firstStop_append, Option.or_eq_none_iff, Fallible.firstStop]
      cases hstop : Hierarchy.stop (entries.foldl Hierarchy.next .empty) entry with
      | some error => simp [hierarchyOf, hstop]
      | none => simp [hierarchyOf, hstop, Fallible.firstStop]
    rw [hlast, ih, withinLimits_concat, labelledNames_concat]
    constructor
    · rintro ⟨⟨hwithin, hnodup⟩, hstop⟩
      obtain ⟨hfits, hfresh⟩ := (stop_eq_none_iff hwithin.fits).mp hstop
      exact ⟨⟨hwithin, hfits⟩, hnodup, hfresh⟩
    · rintro ⟨⟨hwithin, hfits⟩, hnodup, hfresh⟩
      exact ⟨⟨hwithin, hnodup⟩, (stop_eq_none_iff hwithin.fits).mpr ⟨hfits, hfresh⟩⟩

/-- **The limits** refuse the first entry that passes one of them. -/
theorem refusal_eq_resource_iff : refusal entries = some (.resourceLimit kind limit actual) ↔
    ∃ before entry after, entries = before ++ entry :: after ∧ WithinLimits before ∧
      (labelledNames before).Nodup ∧ (hierarchyOf before).Passes entry kind limit actual := by
  unfold refusal
  rw [Fallible.firstStop_eq_some_iff]
  constructor
  · intro ⟨before, entry, after, hentries, hnone, hstop⟩
    obtain ⟨hwithin, hnodup⟩ := refusal_eq_none_iff.mp hnone
    exact ⟨before, entry, after, hentries, hwithin, hnodup,
      (stop_eq_resource_iff hwithin.fits).mp hstop⟩
  · intro ⟨before, entry, after, hentries, hwithin, hnodup, hpasses⟩
    exact ⟨before, entry, after, hentries, refusal_eq_none_iff.mpr ⟨hwithin, hnodup⟩,
      (stop_eq_resource_iff hwithin.fits).mpr hpasses⟩

/-- **Within the limits** only a repeated name is refused. -/
theorem WithinLimits.refusal_eq_duplicate_iff (h : WithinLimits entries) :
    (∃ name, refusal entries = some (.duplicateSignal name)) ↔ ¬ (labelledNames entries).Nodup := by
  constructor
  · intro ⟨name, hrefusal⟩ hnodup
    rw [refusal_eq_none_iff.mpr ⟨h, hnodup⟩] at hrefusal
    cases hrefusal
  · intro hnodup
    cases hrefusal : refusal entries with
    | none => exact absurd (refusal_eq_none_iff.mp hrefusal).2 hnodup
    | some error =>
      obtain ⟨before, entry, after, hentries, -, hstop⟩ :=
        Fallible.firstStop_eq_some_iff.mp hrefusal
      have hbefore : before ++ [entry] <+: entries := ⟨after, by rw [hentries]; simp⟩
      have hfits : ((hierarchyOf before).next entry).Fits := by
        rw [← hierarchyOf_concat]
        exact h _ hbefore
      obtain ⟨name, rfl⟩ := stop_of_fits hfits hstop
      exact ⟨name, rfl⟩

theorem fromHierarchy_eq_error_iff {error : FstError} :
    fromHierarchy entries .done = .error error ↔ refusal entries = some error := by
  rw [fromHierarchy_eq]
  cases refusal entries with
  | none =>
    constructor
    · intro h
      cases h
    · intro h
      cases h
  | some error' =>
    constructor
    · intro h
      cases h
      rfl
    · intro h
      cases h
      rfl

theorem catalog_names (hierarchy : Hierarchy) : hierarchy.catalog.signals.map (·.name) =
    hierarchy.declared.map (Declaration.fullName scopeLabel) := by
  simp [Hierarchy.catalog, Hierarchy.builder, FstVar.signal, Function.comp_def]

/-- **The name table is the inverse of the list.** -/
theorem catalog_byName (h : (labelledNames entries).Nodup) (name : String) (index : Nat) :
    (hierarchyOf entries).catalog.byName.lookup name = some index ↔
      (labelledNames entries)[index]? = some name := by
  have htable : (hierarchyOf entries).catalog.byName = (labelledNames entries).zipIdx := by
    unfold labelledNames
    rw [← catalog_names, List.zipIdx_map]
    rfl
  rw [htable, lookup_positions_iff h]

/-- The catalog is the right one when module types give the names that the
instances do, or both repeat a name. -/
theorem hierarchyRight_of_names (h : WithinLimits entries →
    labelledNames entries = instanceNames entries ∨
      (¬ (labelledNames entries).Nodup ∧ ¬ (instanceNames entries).Nodup)) :
    HierarchyRight entries where
  limits := by
    intro kind limit actual
    rw [fromHierarchy_eq_error_iff, refusal_eq_resource_iff]
  duplicate := by
    intro hwithin
    simp only [fromHierarchy_eq_error_iff]
    rw [hwithin.refusal_eq_duplicate_iff]
    obtain hsame | ⟨hlabelled, hinstance⟩ := h hwithin
    · rw [hsame]
    · exact ⟨fun _ => hinstance, fun _ => hlabelled⟩
  listed := by
    intro hwithin hnodup
    have hsame : labelledNames entries = instanceNames entries :=
      (h hwithin).resolve_right fun hboth => hboth.2 hnodup
    have hlabelled : (labelledNames entries).Nodup := hsame ▸ hnodup
    refine ⟨(hierarchyOf entries).catalog, ?_, ?_, ?_⟩
    · rw [fromHierarchy_eq, refusal_eq_none_iff.mpr ⟨hwithin, hlabelled⟩]
      rfl
    · have hpointwise := List.map_inj_left.mp hsame
      exact List.map_congr_left fun declaration hdeclaration => by
        rw [hpointwise declaration hdeclaration]
    · intro name index
      rw [catalog_byName hlabelled, hsame]

/-- **The catalog is the right one in these hierarchies, and in no other.** -/
theorem hierarchyRight_iff (entries : List FstHierarchyEntry) : HierarchyRight entries ↔
    (WithinLimits entries → labelledNames entries = instanceNames entries ∨
      (¬ (labelledNames entries).Nodup ∧ ¬ (instanceNames entries).Nodup)) := by
  constructor
  · intro hright hwithin
    by_cases hnodup : (instanceNames entries).Nodup
    · obtain ⟨catalog, hcatalog, hsignals, -⟩ := hright.listed hwithin hnodup
      rw [fromHierarchy_eq] at hcatalog
      cases hrefusal : refusal entries with
      | some error =>
        rw [hrefusal] at hcatalog
        cases hcatalog
      | none =>
        rw [hrefusal] at hcatalog
        cases hcatalog
        have hnames := congrArg (List.map (·.name)) hsignals
        rw [catalog_names, List.map_map] at hnames
        exact .inl hnames
    · obtain ⟨name, hname⟩ := (hright.duplicate hwithin).mpr hnodup
      have hlabelled := hwithin.refusal_eq_duplicate_iff.mp
        ⟨name, fromHierarchy_eq_error_iff.mp hname⟩
      exact .inr ⟨hlabelled, hnodup⟩
  · exact hierarchyRight_of_names

/-- A scope of a hierarchy is one that was reported. -/
theorem scope_mem (entries : List FstHierarchyEntry) :
    (∀ scope ∈ (hierarchyOf entries).openScopes, .scope scope ∈ entries) ∧
    ∀ declaration ∈ (hierarchyOf entries).declared, ∀ scope ∈ declaration.1,
      .scope scope ∈ entries := by
  induction entries using List.reverseRecOn with
  | nil =>
    exact ⟨fun scope h => absurd h List.not_mem_nil, fun declaration h => absurd h List.not_mem_nil⟩
  | append_singleton entries entry ih =>
    obtain ⟨hopen, hdeclared⟩ := ih
    have hopen' : ∀ scope ∈ (hierarchyOf entries).openScopes, .scope scope ∈ entries ++ [entry] :=
      fun scope h => List.mem_append_left _ (hopen scope h)
    have hdeclared' : ∀ declaration ∈ (hierarchyOf entries).declared, ∀ scope ∈ declaration.1,
        .scope scope ∈ entries ++ [entry] :=
      fun declaration h scope hscope => List.mem_append_left _ (hdeclared declaration h scope hscope)
    rw [hierarchyOf_concat]
    cases entry with
    | scope scope =>
      refine ⟨?_, hdeclared'⟩
      intro scope' hscope
      obtain hscope | hscope := List.mem_append.mp hscope
      · exact hopen' scope' hscope
      · rw [List.mem_singleton.mp hscope]
        exact List.mem_append_right _ List.mem_cons_self
    | upScope => exact ⟨fun scope h => hopen' scope (List.dropLast_subset _ h), hdeclared'⟩
    | var var =>
      refine ⟨hopen', ?_⟩
      intro declaration h
      obtain h | h := List.mem_append.mp h
      · exact hdeclared' declaration h
      · rw [List.mem_singleton.mp h]
        exact hopen'
    | other => exact ⟨hopen', hdeclared'⟩

/-- **No module types**: where no scope reports one, or only its own name, the
catalog is the right one. -/
theorem hierarchyRight_of_untyped (h : ∀ scope, .scope scope ∈ entries →
    scope.component.isEmpty = true ∨ scope.component = scope.name) : HierarchyRight entries := by
  refine hierarchyRight_of_names fun _ => .inl ?_
  refine List.map_congr_left fun declaration hdeclaration => ?_
  have hscopes : declaration.1.map scopeLabel = declaration.1.map FstScope.name := by
    refine List.map_congr_left fun scope hscope => ?_
    unfold scopeLabel
    obtain hempty | hsame := h scope ((scope_mem entries).2 declaration hdeclaration scope hscope)
    · rw [if_pos hempty]
    · rw [hsame, ite_self]
  unfold Declaration.fullName
  rw [hscopes]

/-- Two instances `u1` and `u2` of a module `core`, with a clock each. -/
def twins : List FstHierarchyEntry :=
  forestEntries [.scope ⟨"top", ""⟩ [
    .scope ⟨"u1", "core"⟩ [.var ⟨.other, "clk", 1, 0, false⟩],
    .scope ⟨"u2", "core"⟩ [.var ⟨.other, "clk", 1, 1, false⟩]]]

theorem withinLimits_of_inits (h : ∀ before ∈ entries.inits, (hierarchyOf before).Fits) :
    WithinLimits entries := fun before hbefore => h before ((List.mem_inits _ _).mpr hbefore)

theorem twins_within : WithinLimits twins := by
  refine withinLimits_of_inits ?_
  simp [twins, forestEntries, HierarchyItem.entries, hierarchyOf, Hierarchy.next, Hierarchy.empty,
    Hierarchy.Fits, maxHierarchyDepth, maxDeclarations, maxNameBytes]
  decide

/-- **Two instances of one module** are taken for one another. -/
theorem twins_refused : instanceNames twins = ["top.u1.clk", "top.u2.clk"] ∧
    fromHierarchy twins .done = .error (.duplicateSignal "top.core.clk") ∧
    ¬ HierarchyRight twins := by
  have hnames : instanceNames twins = ["top.u1.clk", "top.u2.clk"] := by decide
  have hbuilt : fromHierarchy twins .done = .error (.duplicateSignal "top.core.clk") := by decide
  refine ⟨hnames, hbuilt, ?_⟩
  intro hright
  refine (hright.duplicate twins_within).mp ⟨_, hbuilt⟩ ?_
  rw [hnames]
  decide

end VcdTools.Opened
