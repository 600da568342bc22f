import Mathlib.Data.List.Forall2
import VcdTools.Catalog

/-! # The catalog of a header tree

`SignalCatalog::from_scope_items` against the tree it reads: what its views, its
scope walks and its compatibility parts say is what stands in the tree. -/
namespace VcdTools
open VcdTools.Lib

/-! ## Trees -/

/-- A variable below the identifiers of the scopes around it, the outermost
first. -/
abbrev ScopedVar := List String × Var

/-- The dotted full name. -/
def ScopedVar.fullName (declared : ScopedVar) : String :=
  ".".intercalate (declared.1 ++ [declared.2.reference]) ++
    (declared.2.index.map ReferenceIndex.toText).getD ""

mutual

/-- The variables of an item, in preorder. -/
def ScopeItem.vars (path : List String) : ScopeItem → List ScopedVar
  | .scope identifier items => treeVars (path ++ [identifier]) items
  | .var var => [(path, var)]
  | .comment _ => []

def treeVars (path : List String) : List ScopeItem → List ScopedVar
  | [] => []
  | item :: items => item.vars path ++ treeVars path items

end

mutual

/-- How many scopes an item has. -/
def ScopeItem.scopeCount : ScopeItem → Nat
  | .scope _ items => treeScopes items + 1
  | .var _ | .comment _ => 0

def treeScopes : List ScopeItem → Nat
  | [] => 0
  | item :: items => item.scopeCount + treeScopes items

end

mutual

/-- No scope has an empty identifier. -/
def ScopeItem.Named : ScopeItem → Prop
  | .scope identifier items => identifier ≠ "" ∧ TreeNamed items
  | .var _ | .comment _ => True

def TreeNamed : List ScopeItem → Prop
  | [] => True
  | item :: items => item.Named ∧ TreeNamed items

end

/-- The full names of a header, in declaration order. -/
def declaredNames (items : List ScopeItem) : List String :=
  (treeVars [] items).map ScopedVar.fullName

/-! ## Walks over the scopes -/

/-- **The loop up the scopes**, run to its end: the keys it passes, in bounds and
each above the one before, and their components. -/
inductive ScopeWalk (scopes : List ScopeNode) :
    Option ScopeKey → List ScopeKey → List String → Prop
  | top : ScopeWalk scopes none [] []
  | inner {key : ScopeKey} {node : ScopeNode} {keys : List ScopeKey} {path : List String}
    (hnode : scopes[key.index]? = some node)
    (hparent : ∀ parent ∈ node.parent, parent.index < key.index)
    (hwalk : ScopeWalk scopes node.parent keys path) :
    ScopeWalk scopes (some key) (key :: keys) (node.component :: path)

variable {scopes : List ScopeNode} {scope : Option ScopeKey} {keys : List ScopeKey}
  {path : List String}

theorem ScopeWalk.append (h : ScopeWalk scopes scope keys path) (more : List ScopeNode) :
    ScopeWalk (scopes ++ more) scope keys path := by
  induction h with
  | top => exact .top
  | inner hnode hparent _ ih =>
    refine .inner ?_ hparent ih
    obtain ⟨hlt, -⟩ := List.getElem?_eq_some_iff.mp hnode
    rw [List.getElem?_append_left hlt, hnode]

/-- A walk has no more rounds than there are scopes up to its start. -/
theorem ScopeWalk.length_le (h : ScopeWalk scopes scope keys path) {bound : Nat}
    (hbound : ∀ key ∈ scope, key.index < bound) : keys.length ≤ bound := by
  induction h generalizing bound with
  | top => exact Nat.zero_le _
  | @inner key node keys path hnode hparent hwalk ih =>
    have hrest := ih hparent
    have hkey := hbound key rfl
    rw [List.length_cons]
    omega

theorem ScopeWalk.keys_eq (h : ScopeWalk scopes scope keys path) {fuel : Nat}
    (hfuel : keys.length ≤ fuel) : scopeKeys scopes fuel scope = keys := by
  induction h generalizing fuel with
  | top => cases fuel <;> rfl
  | @inner key node keys path hnode hparent hwalk ih =>
    cases fuel with
    | zero => cases hfuel
    | succ fuel =>
      rw [scopeKeys, hnode, Option.bind_some, ih (Nat.le_of_succ_le_succ hfuel)]

theorem ScopeWalk.components (h : ScopeWalk scopes scope keys path) :
    keys.filterMap (fun key => scopes[key.index]?.map (·.component)) = path := by
  induction h with
  | top => rfl
  | inner hnode hparent hwalk ih =>
    rw [List.filterMap_cons, hnode, ih]
    rfl

theorem ScopeWalk.index_lt (h : ScopeWalk scopes scope keys path) :
    ∀ key ∈ scope, key.index < scopes.length := by
  cases h with
  | top =>
    intro key hkey
    cases hkey
  | inner hnode hparent hwalk =>
    intro key hkey
    cases hkey
    exact (List.getElem?_eq_some_iff.mp hnode).1

/-- **The walk of the code** gives the components on the way down. -/
theorem ScopeWalk.scopeWalk_eq (h : ScopeWalk scopes scope keys path) :
    scopeWalk scopes scope = path.reverse := by
  unfold scopeWalk
  rw [h.keys_eq (h.length_le h.index_lt), List.filterMap_reverse, h.components]

/-! ## Names -/

theorem isEmpty_intercalate {path : List String} (h : ∀ component ∈ path, component ≠ "") :
    (".".intercalate path).isEmpty = path.isEmpty := by
  rcases List.eq_nil_or_concat path with rfl | ⟨before, last, rfl⟩
  · rfl
  · have hlast := h last (by simp)
    by_cases hbefore : before = []
    · subst hbefore
      simpa using hlast
    · rw [List.concat_eq_append, String.intercalate_append_of_ne_nil hbefore (List.cons_ne_nil _ _),
        ← Bool.not_eq_not, Bool.eq_iff_iff]
      simp [← String.toList_inj]

theorem joinName_intercalate {path : List String} (h : ∀ component ∈ path, component ≠ "")
    (name : String) : joinName (".".intercalate path) name = ".".intercalate (path ++ [name]) := by
  unfold joinName
  rw [isEmpty_intercalate h]
  by_cases hpath : path = []
  · subst hpath
    simp
  · have hempty : path.isEmpty = false := by simpa using hpath
    rw [hempty, String.intercalate_append_of_ne_nil hpath (List.cons_ne_nil _ _)]
    simp

theorem fullName_eq {path : List String} (h : ∀ component ∈ path, component ≠ "") (var : Var) :
    var.fullName (".".intercalate path) = ScopedVar.fullName (path, var) := by
  unfold Var.fullName ScopedVar.fullName
  rw [joinName_intercalate h]

/-! ## What the builder holds -/

/-- A signal that stands for a variable. -/
structure SignalOf (scopes : List ScopeNode) (signal : SignalMeta) (declared : ScopedVar) :
    Prop where
  fullName : signal.fullName = declared.fullName
  idCode : signal.idCode = declared.2.code
  size : signal.size = declared.2.size
  type_ : signal.type_ = declared.2.varType
  scope : ∃ keys, ScopeWalk scopes signal.scope keys declared.1.reverse

theorem SignalOf.append {signal : SignalMeta} {declared : ScopedVar}
    (h : SignalOf scopes signal declared) (more : List ScopeNode) :
    SignalOf (scopes ++ more) signal declared := by
  obtain ⟨keys, hwalk⟩ := h.scope
  exact ⟨h.fullName, h.idCode, h.size, h.type_, keys, hwalk.append more⟩

/-- The keys of the signals with an identifier code, in declaration order. -/
def keysOf (signals : List SignalMeta) (id : IdCode) : List SignalKey :=
  (signals.zipIdx.filter (·.1.idCode = id)).map fun entry => ⟨entry.2⟩

/-- **The builder has read these variables.** -/
structure CatalogBuilder.Holds (builder : CatalogBuilder) (vars : List ScopedVar) : Prop where
  signals : List.Forall₂ (SignalOf builder.scopes) builder.signals vars
  aliases : ∀ id, builder.aliasesById.getD id = keysOf builder.signals id

variable {builder : CatalogBuilder} {vars : List ScopedVar}

theorem forall₂_names {signals : List SignalMeta}
    (h : List.Forall₂ (SignalOf scopes) signals vars) :
    signals.map (·.fullName) = vars.map ScopedVar.fullName := by
  induction h with
  | nil => rfl
  | cons hsignal _ ih => rw [List.map_cons, List.map_cons, hsignal.fullName, ih]

theorem CatalogBuilder.Holds.names (h : builder.Holds vars) :
    builder.signals.map (·.fullName) = vars.map ScopedVar.fullName := forall₂_names h.signals

theorem CatalogBuilder.new_holds : CatalogBuilder.new.Holds [] := ⟨.nil, fun _ => rfl⟩

/-- **A scope is added** under its parent. -/
theorem CatalogBuilder.Holds.addScope (h : builder.Holds vars)
    (hparent : ScopeWalk builder.scopes scope keys path) (hroom : builder.scopes.length < 2 ^ 32)
    (component : String) : ∃ added key keys', builder.addScope component scope = .ok (added, key) ∧
      added.Holds vars ∧ added.scopes = builder.scopes ++ [⟨component, scope⟩] ∧
      ScopeWalk added.scopes (some key) keys' (component :: path) := by
  have hkey : ScopeKey.fromLen builder.scopes.length = .ok ⟨builder.scopes.length⟩ :=
    if_pos (Nat.le_sub_one_of_lt hroom)
  refine ⟨{ builder with scopes := builder.scopes ++ [⟨component, scope⟩] },
    ⟨builder.scopes.length⟩, ⟨builder.scopes.length⟩ :: keys, ?_, ?_, rfl, ?_⟩
  · rw [CatalogBuilder.addScope, hkey]
    rfl
  · exact ⟨h.signals.imp fun _ _ hsignal => hsignal.append _, h.aliases⟩
  · exact .inner (List.getElem?_concat_length) hparent.index_lt (hparent.append _)

/-- **A variable is added**, unless its name is taken. -/
theorem CatalogBuilder.Holds.addSignal (h : builder.Holds vars)
    (hparent : ScopeWalk builder.scopes scope keys path.reverse)
    (hnamed : ∀ component ∈ path, component ≠ "") (hroom : vars.length < 2 ^ 32) (var : Var) :
    (ScopedVar.fullName (path, var) ∈ vars.map ScopedVar.fullName ∧
      builder.addSignal scope (".".intercalate path) var =
        .error (.duplicateSignal (ScopedVar.fullName (path, var)))) ∨
    ∃ added, builder.addSignal scope (".".intercalate path) var = .ok added ∧
      added.Holds (vars ++ [(path, var)]) ∧ added.scopes = builder.scopes := by
  have hlength : builder.signals.length = vars.length := h.signals.length_eq
  have hkey : SignalKey.fromLen builder.signals.length = .ok ⟨⟨builder.signals.length⟩, rfl⟩ := by
    rw [← hlength] at hroom
    exact if_pos (Nat.le_sub_one_of_lt hroom)
  have hname := fullName_eq hnamed var
  unfold CatalogBuilder.addSignal
  rw [hkey]
  simp only [bind, Except.bind]
  by_cases hnew : builder.byName.lookup (var.fullName (".".intercalate path)) = none
  · right
    rw [dif_pos hnew]
    refine ⟨_, rfl, ⟨?_, ?_⟩, rfl⟩
    · exact List.rel_append h.signals (.cons ⟨hname, rfl, rfl, rfl, keys, hparent⟩ .nil)
    · intro id
      rw [Groups.getD_push, h.aliases]
      unfold keysOf
      rw [List.zipIdx_append, List.filter_append, List.map_append]
      by_cases hid : var.code = id <;> simp [hid]
  · left
    rw [dif_neg hnew, hname]
    refine ⟨?_, rfl⟩
    rw [builder.indexed.lookup_none, not_not, hname, h.names] at hnew
    exact hnew

/-! ## The traversal -/

/-- What reading more variables ends with: a builder that has read them, and the
scopes they stand in; or the first of them whose name is taken. -/
inductive Collects (builder : CatalogBuilder) (vars new : List ScopedVar) (scopeCount : Nat) :
    Except VcdError CatalogBuilder → Prop
  | read {after : CatalogBuilder} (more : List ScopeNode) (holds : after.Holds (vars ++ new))
    (scopes : after.scopes = builder.scopes ++ more) (count : more.length = scopeCount) :
    Collects builder vars new scopeCount (.ok after)
  | duplicate (done rest : List ScopedVar) (taken : ScopedVar) (split : new = done ++ taken :: rest)
    (distinct : ((vars ++ done).map ScopedVar.fullName).Nodup)
    (repeats : taken.fullName ∈ (vars ++ done).map ScopedVar.fullName) :
    Collects builder vars new scopeCount (.error (.duplicateSignal taken.fullName))

theorem CatalogBuilder.Holds.distinct (h : builder.Holds vars) :
    (vars.map ScopedVar.fullName).Nodup := by
  rw [← h.names]
  exact builder.indexed.distinct

/-- **One item after the other.** -/
theorem Collects.trans {first second : List ScopedVar} {count count' : Nat}
    {next : CatalogBuilder → Except VcdError CatalogBuilder}
    {result : Except VcdError CatalogBuilder} (h : Collects builder vars first count result)
    (hnext : ∀ after more, result = .ok after → after.Holds (vars ++ first) →
      after.scopes = builder.scopes ++ more → more.length = count →
      Collects after (vars ++ first) second count' (next after)) :
    Collects builder vars (first ++ second) (count + count') (result >>= next) := by
  cases h with
  | @read after more holds hscopes hcount =>
    have hrest := hnext after more rfl holds hscopes hcount
    change Collects builder vars (first ++ second) (count + count') (next after)
    generalize next after = result at hrest
    cases hrest with
    | read more' holds' hscopes' hcount' =>
      rw [List.append_assoc] at holds'
      refine .read (more ++ more') holds' ?_ ?_
      · rw [hscopes', hscopes, List.append_assoc]
      · rw [List.length_append, hcount, hcount']
    | duplicate done rest taken hsplit hdistinct hrepeats =>
      rw [List.append_assoc] at hdistinct hrepeats
      exact .duplicate (first ++ done) rest taken (by rw [hsplit, List.append_assoc]) hdistinct
        hrepeats
  | duplicate done rest taken hsplit hdistinct hrepeats =>
    exact .duplicate done (rest ++ second) taken (by rw [hsplit]; simp) hdistinct hrepeats

mutual

theorem collectItem_reads {builder : CatalogBuilder} {vars : List ScopedVar} {scope : Option ScopeKey}
    {keys : List ScopeKey} {path : List String} (item : ScopeItem)
    (h : builder.Holds vars)
    (hparent : ScopeWalk builder.scopes scope keys path.reverse)
    (hpath : ∀ component ∈ path, component ≠ "") (hnamed : item.Named)
    (hvars : vars.length + (item.vars path).length ≤ 2 ^ 32)
    (hscopes : builder.scopes.length + item.scopeCount ≤ 2 ^ 32) :
    Collects builder vars (item.vars path) item.scopeCount
      (builder.collectItem scope (".".intercalate path) item) := by
  match item with
  | .scope identifier items =>
    obtain ⟨hidentifier, hitems⟩ := hnamed
    rw [ScopeItem.scopeCount] at hscopes
    obtain ⟨added, key, keys', hadded, hholds, hadded_scopes, hwalk⟩ :=
      h.addScope hparent (by omega) identifier
    rw [← List.reverse_concat] at hwalk
    have hpath' : ∀ component ∈ path ++ [identifier], component ≠ "" := by
      intro component hcomponent
      obtain hcomponent | hcomponent := List.mem_append.mp hcomponent
      · exact hpath component hcomponent
      · rw [List.mem_singleton.mp hcomponent]
        exact hidentifier
    have hlength : added.scopes.length = builder.scopes.length + 1 := by
      rw [hadded_scopes, List.length_append]
      rfl
    have hread := collect_reads items hholds hwalk hpath' hitems hvars (by omega)
    rw [CatalogBuilder.collectItem, hadded, ScopeItem.vars, ScopeItem.scopeCount]
    simp only [bind, Except.bind]
    rw [joinName_intercalate hpath]
    generalize added.collect (some key) (".".intercalate (path ++ [identifier])) items = result
      at hread ⊢
    cases hread with
    | read more holds hmore hcount =>
      refine .read (⟨identifier, scope⟩ :: more) holds ?_ ?_
      · rw [hmore, hadded_scopes, List.append_assoc, List.singleton_append]
      · rw [List.length_cons, hcount]
    | duplicate done rest taken hsplit hdistinct hrepeats =>
      exact .duplicate done rest taken hsplit hdistinct hrepeats
  | .var var =>
    rw [CatalogBuilder.collectItem, ScopeItem.vars, ScopeItem.scopeCount]
    rw [ScopeItem.vars, List.length_singleton] at hvars
    obtain ⟨htaken, hadd⟩ | ⟨added, hadd, hholds, hsame⟩ := h.addSignal hparent hpath (by omega) var
    · rw [hadd]
      refine .duplicate [] [] (path, var) rfl ?_ ?_
      · rw [List.append_nil]
        exact h.distinct
      · rw [List.append_nil]
        exact htaken
    · rw [hadd]
      exact .read [] hholds (by rw [hsame, List.append_nil]) rfl
  | .comment text =>
    rw [CatalogBuilder.collectItem, ScopeItem.vars, ScopeItem.scopeCount]
    exact .read [] (by rw [List.append_nil]; exact h) (List.append_nil _).symm rfl

theorem collect_reads {builder : CatalogBuilder} {vars : List ScopedVar} {scope : Option ScopeKey}
    {keys : List ScopeKey} {path : List String} (items : List ScopeItem)
    (h : builder.Holds vars)
    (hparent : ScopeWalk builder.scopes scope keys path.reverse)
    (hpath : ∀ component ∈ path, component ≠ "") (hnamed : TreeNamed items)
    (hvars : vars.length + (treeVars path items).length ≤ 2 ^ 32)
    (hscopes : builder.scopes.length + treeScopes items ≤ 2 ^ 32) :
    Collects builder vars (treeVars path items) (treeScopes items)
      (builder.collect scope (".".intercalate path) items) := by
  match items with
  | [] =>
    rw [CatalogBuilder.collect, treeVars, treeScopes]
    exact .read [] (by rw [List.append_nil]; exact h) (List.append_nil _).symm rfl
  | item :: items =>
    obtain ⟨hitem, hitems⟩ := hnamed
    rw [treeVars, List.length_append] at hvars
    rw [treeScopes] at hscopes
    rw [CatalogBuilder.collect, treeVars, treeScopes]
    refine (collectItem_reads item h hparent hpath hitem (by omega) (by omega)).trans ?_
    intro after more _ hholds hmore hcount
    have hparent' : ScopeWalk after.scopes scope keys path.reverse := by
      rw [hmore]
      exact hparent.append more
    refine collect_reads items hholds hparent' hpath hitems ?_ ?_
    · rw [List.length_append]
      omega
    · rw [hmore, List.length_append, hcount]
      omega

end

/-! ## The views -/

/-- **The catalog says what the header says**, in every view of it. -/
structure SignalCatalog.Faithful (catalog : SignalCatalog) (items : List ScopeItem) : Prop where
  /-- The signals are the variables in preorder, under their dotted names. -/
  names : catalog.names = declaredNames items
  /-- A name's key is its position. -/
  keys : ∀ name index,
    catalog.keyByName name = some ⟨index⟩ ↔ (declaredNames items)[index]? = some name
  /-- The aliases of an identifier code are its signals, in declaration order. -/
  aliases : ∀ id, catalog.aliases id =
    ((treeVars [] items).zipIdx.filter (·.1.2.code = id)).map fun entry => ⟨entry.2⟩
  /-- The walk up a signal's scopes ends, and its components are those around the
  variable, which make up the name in front of the reference. -/
  scopes : ∀ index path var, (treeVars [] items)[index]? = some (path, var) →
    ∃ signal keys, catalog.signals[index]? = some signal ∧
      ScopeWalk catalog.scopes signal.scope keys path.reverse ∧
      catalog.scopeComponentRefs ⟨index⟩ = some path ∧
      signal.fullName = ".".intercalate (path ++ [var.reference]) ++
        (var.index.map ReferenceIndex.toText).getD ""
  /-- Both ways to the compatibility parts give the variables, and an index that
  agrees with the names and the aliases. -/
  parts : ∃ signals index, catalog.toCompatibilityParts = .ok (signals, index) ∧
    catalog.intoCompatibilityParts = .ok (signals, index) ∧
    signals = (treeVars [] items).map (fun declared => (⟨declared.fullName, declared.2.code,
      declared.2.size, declared.2.varType, declared.1⟩ : Signal)) ∧
    (∀ name, index.byName.lookup name =
      (catalog.keyByName name).bind fun key => signals[key.index]?) ∧
    ∀ id, index.byId.get id = if catalog.aliases id = [] then none
      else some ((catalog.aliases id).filterMap fun key => signals[key.index]?)

/-- The elements of a kind, found with their positions. -/
theorem filter_zipIdx {α : Type*} (xs : List α) (p : α → Bool) :
    (xs.zipIdx.filter fun entry => p entry.1).map (·.1) = xs.filter p := by
  have hfilter := List.filter_map (f := (·.1)) (p := p) (l := xs.zipIdx)
  rw [List.zipIdx_map_fst] at hfilter
  rw [hfilter]
  rfl

/-- The positions of the elements of a kind, and those elements. -/
theorem filterMap_positions {α : Type*} (xs : List α) (p : α → Bool) :
    ((xs.zipIdx.filter fun entry => p entry.1).map (·.2)).filterMap (xs[·]?) = xs.filter p := by
  rw [← filter_zipIdx xs p, List.filterMap_map, ← List.filterMap_eq_map]
  refine List.filterMap_congr fun entry hentry => ?_
  exact List.mem_zipIdx_iff_getElem?.mp (List.mem_of_mem_filter hentry)

/-- Two lists that agree position by position have the same positions of a kind. -/
theorem keysOf_eq {signals : List SignalMeta} (h : List.Forall₂ (SignalOf scopes) signals vars)
    (id : IdCode) (start : Nat) :
    (((signals.zipIdx start).filter (·.1.idCode = id)).map fun entry => (⟨entry.2⟩ : SignalKey)) =
      ((vars.zipIdx start).filter (·.1.2.code = id)).map fun entry => ⟨entry.2⟩ := by
  induction h generalizing start with
  | nil => rfl
  | cons hsignal _ ih =>
    rw [List.zipIdx_cons, List.zipIdx_cons, List.filter_cons, List.filter_cons, hsignal.idCode]
    split
    · rw [List.map_cons, List.map_cons, ih]
    · exact ih _

theorem forall₂_getElem? {α β : Type*} {R : α → β → Prop} {xs : List α} {ys : List β}
    (h : List.Forall₂ R xs ys) {i : Nat} {y : β} (hy : ys[i]? = some y) :
    ∃ x, xs[i]? = some x ∧ R x y := by
  induction h generalizing i with
  | nil => cases hy
  | cons hr _ ih =>
    cases i with
    | zero =>
      cases hy
      exact ⟨_, rfl, hr⟩
    | succ i => exact ih hy

/-- **The owned signals** are the variables with the scopes around them. -/
theorem owned_signals {signals : List SignalMeta}
    (h : List.Forall₂ (SignalOf scopes) signals vars) :
    signals.map (SignalMeta.toOwned (scopeWalk scopes)) = vars.map fun declared =>
      (⟨declared.fullName, declared.2.code, declared.2.size, declared.2.varType, declared.1⟩ :
        Signal) := by
  induction h with
  | nil => rfl
  | cons hsignal _ ih =>
    obtain ⟨keys, hwalk⟩ := hsignal.scope
    rw [List.map_cons, List.map_cons, ih, SignalMeta.toOwned, hsignal.fullName, hsignal.idCode,
      hsignal.size, hsignal.type_, hwalk.scopeWalk_eq, List.reverse_reverse]

/-- **The compatibility parts** of a catalog, whichever way they are built. -/
theorem SignalCatalog.compatibilityParts (catalog : SignalCatalog)
    (haliases : ∀ id, catalog.aliases id = keysOf catalog.signals id) :
    ∃ index, catalog.toCompatibilityParts = .ok (catalog.toOwnedSignals, index) ∧
      catalog.intoCompatibilityParts = .ok (catalog.toOwnedSignals, index) ∧
      (∀ name, index.byName.lookup name =
        (catalog.keyByName name).bind fun key => catalog.toOwnedSignals[key.index]?) ∧
      ∀ id, index.byId.get id = if catalog.aliases id = [] then none
        else some ((catalog.aliases id).filterMap fun key => catalog.toOwnedSignals[key.index]?) := by
  obtain ⟨index, hindex, -, hids, hfilled⟩ := SignalIndex.buildLoop_ok ⟨[], []⟩
    catalog.toOwnedSignals (fun _ _ => rfl) (by
      simpa [toOwnedSignals, SignalMeta.toOwned, Function.comp_def] using catalog.indexed.distinct)
  have hto : catalog.toCompatibilityParts = .ok (catalog.toOwnedSignals, index) := by
    have hbuild : SignalIndex.build catalog.toOwnedSignals = .ok index := hindex
    simp only [toCompatibilityParts, hbuild]
    rfl
  have hinto : catalog.intoCompatibilityParts = .ok (catalog.toOwnedSignals, index) := hto
  refine ⟨index, hto, hinto, ?_, ?_⟩
  · intro name
    obtain ⟨signals, index', hparts, hlookup⟩ := catalog.toCompatibilityParts_ok
    rw [hto] at hparts
    cases hparts
    rw [hlookup, ← catalog.signal_keyByName, Option.map_bind]
    refine congrArg (Option.bind (catalog.keyByName name)) (funext fun key => ?_)
    rw [toOwnedSignals, List.getElem?_map]
    rfl
  · intro id
    -- The signals of an identifier code, found by position or by a filter.
    have hpositions : (catalog.aliases id).filterMap (fun key => catalog.toOwnedSignals[key.index]?) =
        catalog.toOwnedSignals.filter (·.idCode = id) := by
      rw [haliases, keysOf, List.filterMap_map, toOwnedSignals]
      have hfilter := filterMap_positions catalog.signals fun signal => decide (signal.idCode = id)
      rw [List.filterMap_map] at hfilter
      rw [List.filter_map]
      have hmap := congrArg (List.map (SignalMeta.toOwned catalog.scopeComponents)) hfilter
      rw [List.map_filterMap] at hmap
      refine Eq.trans ?_ hmap
      refine List.filterMap_congr fun entry _ => ?_
      exact List.getElem?_map
    have hempty : catalog.aliases id = [] ↔ catalog.toOwnedSignals.filter (·.idCode = id) = [] := by
      rw [haliases, keysOf, List.map_eq_nil_iff, toOwnedSignals, List.filter_map,
        List.map_eq_nil_iff, ← filter_zipIdx catalog.signals, List.map_eq_nil_iff]
      rfl
    have hids' : index.byId.getD id = catalog.toOwnedSignals.filter (·.idCode = id) := hids id
    rw [(hfilled Groups.filled_nil).get_eq id, hids', hpositions]
    exact if_congr hempty.symm rfl rfl

/-- What is built has every view right. -/
theorem CatalogBuilder.Holds.faithful {items : List ScopeItem}
    (h : builder.Holds (treeVars [] items)) : builder.finish.Faithful items where
  names := h.names
  keys := by
    intro name index
    have htable : builder.byName = ((builder.signals.map (·.fullName)).zipIdx.map fun entry =>
        (entry.1, (⟨entry.2⟩ : SignalKey))) := by
      rw [builder.indexed.keys, List.zipIdx_map, List.map_map]
      rfl
    change builder.byName.lookup name = some ⟨index⟩ ↔ _
    rw [htable, lookup_map_values, declaredNames, ← h.names,
      ← lookup_positions_iff builder.indexed.distinct]
    cases (builder.signals.map (·.fullName)).zipIdx.lookup name <;> simp
  aliases := by
    intro id
    exact (h.aliases id).trans (keysOf_eq h.signals id 0)
  scopes := by
    intro index path var hvar
    obtain ⟨signal, hsignal, hof⟩ := forall₂_getElem? h.signals hvar
    obtain ⟨keys, hwalk⟩ := hof.scope
    refine ⟨signal, keys, hsignal, hwalk, ?_, hof.fullName⟩
    have hfound : builder.finish.signal ⟨index⟩ = some signal := hsignal
    have hcomponents := hwalk.scopeWalk_eq
    rw [List.reverse_reverse] at hcomponents
    rw [SignalCatalog.scopeComponentRefs, hfound, Option.map_some]
    exact congrArg some hcomponents
  parts := by
    obtain ⟨index, hto, hinto, hnames, hids⟩ := builder.finish.compatibilityParts h.aliases
    exact ⟨_, index, hto, hinto, owned_signals h.signals, hnames, hids⟩

/-- **The VCD catalog is faithful to its header**: a repeated full name fails under
the first one that repeats, and nothing else does. -/
theorem fromScopeItems_faithful (items : List ScopeItem) (hnamed : TreeNamed items)
    (hsignals : (treeVars [] items).length ≤ 2 ^ 32) (hscopes : treeScopes items ≤ 2 ^ 32) :
    (∃ before name after, declaredNames items = before ++ name :: after ∧ before.Nodup ∧
      name ∈ before ∧ SignalCatalog.fromScopeItems items = .error (.duplicateSignal name)) ∨
    ((declaredNames items).Nodup ∧
      ∃ catalog, SignalCatalog.fromScopeItems items = .ok catalog ∧ catalog.Faithful items) := by
  have hread := collect_reads items CatalogBuilder.new_holds .top
    (fun component hcomponent => absurd hcomponent List.not_mem_nil) hnamed
    (by simpa using hsignals) (by simpa [CatalogBuilder.new] using hscopes)
  rw [String.intercalate_nil] at hread
  unfold SignalCatalog.fromScopeItems
  generalize CatalogBuilder.new.collect none "" items = result at hread ⊢
  cases hread with
  | @read after more hholds hmore hcount =>
    exact .inr ⟨hholds.distinct, after.finish, rfl, hholds.faithful⟩
  | duplicate done rest taken hsplit hdistinct hrepeats =>
    refine .inl ⟨done.map ScopedVar.fullName, taken.fullName, rest.map ScopedVar.fullName, ?_,
      hdistinct, hrepeats, rfl⟩
    rw [declaredNames, hsplit, List.map_append, List.map_cons]

/-- A scope in a scope, and two names for one identifier code. -/
def nestedItems : List ScopeItem :=
  [.scope "top" [
    .var ⟨.wire, 1, ⟨33⟩, "clk", none⟩,
    .scope "core" [.var ⟨.reg, 8, ⟨34⟩, "bus", some (.range 7 0)⟩, .var ⟨.wire, 1, ⟨33⟩, "clk", none⟩]],
   .comment "done"]

theorem fromScopeItems_faithful_nested :
    declaredNames nestedItems = ["top.clk", "top.core.bus[7:0]", "top.core.clk"] ∧
    ((∃ before name after, declaredNames nestedItems = before ++ name :: after ∧ before.Nodup ∧
      name ∈ before ∧
      SignalCatalog.fromScopeItems nestedItems = .error (.duplicateSignal name)) ∨
    ((declaredNames nestedItems).Nodup ∧ ∃ catalog,
      SignalCatalog.fromScopeItems nestedItems = .ok catalog ∧ catalog.Faithful nestedItems)) := by
  have hnames : declaredNames nestedItems = ["top.clk", "top.core.bus[7:0]", "top.core.clk"] := by
    decide
  have hnamed : TreeNamed nestedItems := by
    simp [nestedItems, TreeNamed, ScopeItem.Named]
  have hscopes : treeScopes nestedItems ≤ 2 ^ 32 := by
    simp [nestedItems, treeScopes, ScopeItem.scopeCount]
  have hsignals : (treeVars [] nestedItems).length ≤ 2 ^ 32 := by
    simp [nestedItems, treeVars, ScopeItem.vars]
  exact ⟨hnames, fromScopeItems_faithful nestedItems hnamed hsignals hscopes⟩

end VcdTools
