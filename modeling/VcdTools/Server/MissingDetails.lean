import VcdTools.Lib.Fallible
import VcdTools.Query.ExtractReference
import VcdTools.Server.ErrorFrames

/-! # The names of missing signals

Target resolution joins the missing names with a comma and a blank, and
`protocol_error_from_vcd` splits the text there again, for the details of the
error. A name that has a comma and a blank in it comes back in pieces. -/
namespace VcdTools.Server
open VcdTools.Query VcdTools.Lib Json

/-- The requested names that are missing, in request order. -/
def missingNames (opened : OpenedVcd) (targets : List String) : List String :=
  targets.filter fun name => (opened.signal name).isNone

/-- Names in the details of an error: the first so many, each bounded. -/
def boundedNames (items : Nat) (names : List String) : List String :=
  (names.take items).map fun name => truncateUtf8 name maxErrorDetailStringBytes

/-- What a name should be shown as: itself within the bound, otherwise cut
between two characters to at most the bound, with an ellipsis at the end. -/
structure ShownAs (name shown : String) : Prop where
  whole : strBytes name ≤ maxErrorDetailStringBytes → shown = name
  cut : maxErrorDetailStringBytes < strBytes name →
    (∃ kept rest, name.toList = kept ++ rest ∧ shown = String.ofList (kept ++ [ellipsis])) ∧
      strBytes shown ≤ maxErrorDetailStringBytes

/-- What a name splits into. -/
def namePieces (name : String) : List String := name.splitOn ", "

/-- A name without the separator in it. -/
def Unbroken (name : String) : Prop := ¬ [',', ' '] <:+: name.toList

/-- The beginning of a text beyond the bound that has room before an ellipsis. -/
structure Keeps (text : String) (kept : List Char) : Prop where
  long : maxErrorDetailStringBytes < strBytes text
  beginning : kept <+: text.toList
  fits : bytes (kept ++ [ellipsis]) ≤ maxErrorDetailStringBytes
  most : ∀ c, kept ++ [c] <+: text.toList →
    maxErrorDetailStringBytes < bytes (kept ++ [c, ellipsis])

/-- Two texts that look the same behind the bound: they are the same, both begin
with the same characters beyond it, or one is what is kept of the other. -/
inductive LooksLike (text other : String) : Prop
  | same : text = other → LooksLike text other
  | both (kept : List Char) : Keeps text kept → Keeps other kept → LooksLike text other
  | first (kept : List Char) : Keeps text kept → other.toList = kept ++ [ellipsis] →
      LooksLike text other
  | second (kept : List Char) : Keeps other kept → text.toList = kept ++ [ellipsis] →
      LooksLike text other

/-- The first name of `items` with the separator in it is beyond the bound, and
from it on each name that is shown looks like the piece in its place. -/
structure Masked (items : Nat) (before : List String) (name : String) (after : List String) :
    Prop where
  shown : before.length < items
  unbroken : ∀ earlier ∈ before, Unbroken earlier
  broken : ¬ Unbroken name
  long : maxErrorDetailStringBytes < strBytes name
  alike : List.Forall₂ LooksLike
    (((name :: after).flatMap namePieces).take (items - before.length))
    ((name :: after).take (items - before.length))

/-- **When the names are shown as they are**: the separator is in none of the
first of them, or is masked by the bound. -/
def KeepsNames (items : Nat) (names : List String) : Prop :=
  (∀ name ∈ names.take items, Unbroken name) ∨
    ∃ before name after, names = before ++ name :: after ∧ Masked items before name after

variable {items : Nat} {name : String} {names before after : List String}

/-! ## Bounding a name -/

theorem takeBytes_prefix (max : Nat) (cs : List Char) : takeBytes max cs <+: cs := by
  induction cs generalizing max with
  | nil => exact List.prefix_rfl
  | cons c cs ih =>
    rw [takeBytes]
    split
    · exact List.prefix_cons_inj c |>.mpr (ih _)
    · exact List.nil_prefix

/-- **The bound shows a name as it should.** -/
theorem shownAs_truncateUtf8 (name : String) :
    ShownAs name (truncateUtf8 name maxErrorDetailStringBytes) where
  whole := truncateUtf8_short
  cut h := by
    obtain ⟨rest, hrest⟩ :=
      takeBytes_prefix (maxErrorDetailStringBytes - ellipsis.utf8Size) name.toList
    exact ⟨⟨_, rest, hrest.symm, if_neg (Nat.not_le.mpr h)⟩, truncateUtf8_le name⟩

/-- What is taken of a text cannot be more. -/
theorem takeBytes_most {max : Nat} {cs : List Char} {c : Char}
    (h : takeBytes max cs ++ [c] <+: cs) : max < bytes (takeBytes max cs ++ [c]) := by
  induction cs generalizing max with
  | nil => exact absurd (List.prefix_nil.mp h) (by simp)
  | cons d cs ih =>
    rw [takeBytes] at h ⊢
    split at h
    · rename_i hfits
      have hrest := ih (List.cons_prefix_cons.mp h).2
      rw [if_pos hfits, List.cons_append, bytes_cons]
      omega
    · rename_i hlarge
      obtain ⟨rfl, -⟩ := List.cons_prefix_cons.mp h
      rw [if_neg hlarge]
      simpa using hlarge

/-- What a text beyond the bound keeps is what is taken of it. -/
theorem keeps_iff {text : String} {kept : List Char} : Keeps text kept ↔
    maxErrorDetailStringBytes < strBytes text ∧
      kept = takeBytes (maxErrorDetailStringBytes - ellipsis.utf8Size) text.toList := by
  have hellipsis := ellipsis_bytes.1
  have hle := takeBytes_le (maxErrorDetailStringBytes - ellipsis.utf8Size) text.toList
  have hbeginning := takeBytes_prefix (maxErrorDetailStringBytes - ellipsis.utf8Size) text.toList
  constructor
  · intro h
    refine ⟨h.long, ?_⟩
    have hfits := h.fits
    rw [bytes_append, bytes_cons, bytes_nil] at hfits
    -- neither of the two beginnings goes on where the other ends
    obtain ⟨rest, hrest⟩ | ⟨rest, hrest⟩ :=
      List.prefix_or_prefix_of_prefix h.beginning hbeginning
    · cases rest with
      | nil => exact (List.append_nil kept).symm.trans hrest
      | cons c rest =>
        have hmore : kept ++ [c] <+:
            takeBytes (maxErrorDetailStringBytes - ellipsis.utf8Size) text.toList :=
          ⟨rest, by rw [List.append_assoc]; exact hrest⟩
        have hmost := h.most c (hmore.trans hbeginning)
        rw [← hrest] at hle
        simp only [bytes_append, bytes_cons, bytes_nil, maxErrorDetailStringBytes] at hle hmost
        omega
    · cases rest with
      | nil => exact hrest.symm.trans (List.append_nil _)
      | cons c rest =>
        have hmore : takeBytes (maxErrorDetailStringBytes - ellipsis.utf8Size) text.toList ++ [c] <+:
            kept := ⟨rest, by rw [List.append_assoc]; exact hrest⟩
        have hmost := takeBytes_most (hmore.trans h.beginning)
        rw [← hrest] at hfits
        simp only [bytes_append, bytes_cons, bytes_nil, maxErrorDetailStringBytes] at hfits hmost
        omega
  · rintro ⟨hlong, rfl⟩
    refine ⟨hlong, hbeginning, ?_, fun c hc => ?_⟩
    · rw [bytes_append, bytes_cons, bytes_nil]
      simp only [maxErrorDetailStringBytes] at hle ⊢
      omega
    · have hmost := takeBytes_most hc
      simp only [bytes_append, bytes_cons, bytes_nil, maxErrorDetailStringBytes] at hmost ⊢
      omega

theorem truncateUtf8_long {text : String} (h : maxErrorDetailStringBytes < strBytes text) :
    truncateUtf8 text maxErrorDetailStringBytes = String.ofList
      (takeBytes (maxErrorDetailStringBytes - ellipsis.utf8Size) text.toList ++ [ellipsis]) :=
  if_neg (Nat.not_le.mpr h)

/-- A text is what is shown of a longer one when it is what that keeps, with the
ellipsis. -/
theorem truncateUtf8_eq_iff {text : String} (h : maxErrorDetailStringBytes < strBytes text)
    (shown : String) : truncateUtf8 text maxErrorDetailStringBytes = shown ↔
      ∃ kept, Keeps text kept ∧ shown.toList = kept ++ [ellipsis] := by
  rw [truncateUtf8_long h, ← String.toList_inj, String.toList_ofList]
  constructor
  · exact fun heq => ⟨_, keeps_iff.mpr ⟨h, rfl⟩, heq.symm⟩
  · rintro ⟨kept, hkeeps, hshown⟩
    rw [hshown, (keeps_iff.mp hkeeps).2]

/-- **Texts look the same exactly when they are shown the same.** -/
theorem looksLike_iff {text other : String} :
    LooksLike text other ↔ truncateUtf8 text maxErrorDetailStringBytes =
      truncateUtf8 other maxErrorDetailStringBytes := by
  have hwithin : ∀ {text : String} {kept : List Char}, text.toList = kept ++ [ellipsis] →
      ∀ {other : String}, Keeps other kept → strBytes text ≤ maxErrorDetailStringBytes := by
    intro text kept htext other hkeeps
    rw [strBytes, htext]
    exact hkeeps.fits
  constructor
  · intro h
    cases h with
    | same h => rw [h]
    | both kept htext hother =>
      rw [truncateUtf8_long htext.long, truncateUtf8_long hother.long,
        ← (keeps_iff.mp htext).2, ← (keeps_iff.mp hother).2]
    | first kept htext hother =>
      rw [truncateUtf8_short (hwithin hother htext)]
      exact (truncateUtf8_eq_iff htext.long other).mpr ⟨kept, htext, hother⟩
    | second kept hother htext =>
      rw [truncateUtf8_short (hwithin htext hother)]
      exact ((truncateUtf8_eq_iff hother.long text).mpr ⟨kept, hother, htext⟩).symm
  · intro h
    by_cases htext : strBytes text ≤ maxErrorDetailStringBytes
    · rw [truncateUtf8_short htext] at h
      by_cases hother : strBytes other ≤ maxErrorDetailStringBytes
      · rw [truncateUtf8_short hother] at h
        exact .same h
      · obtain ⟨kept, hkeeps, hshown⟩ :=
          (truncateUtf8_eq_iff (Nat.not_le.mp hother) text).mp h.symm
        exact .second kept hkeeps hshown
    · by_cases hother : strBytes other ≤ maxErrorDetailStringBytes
      · rw [truncateUtf8_short hother] at h
        obtain ⟨kept, hkeeps, hshown⟩ := (truncateUtf8_eq_iff (Nat.not_le.mp htext) other).mp h
        exact .first kept hkeeps hshown
      · obtain ⟨kept, hkeeps, hshown⟩ := (truncateUtf8_eq_iff (Nat.not_le.mp htext) _).mp h
        rw [truncateUtf8_long (Nat.not_le.mp hother), String.toList_ofList,
          List.append_left_inj] at hshown
        exact .both kept hkeeps (keeps_iff.mpr ⟨Nat.not_le.mp hother, hshown.symm⟩)

/-! ## Pieces -/

theorem namePieces_eq (name : String) :
    namePieces name = (Joined.pieces ',' ' ' name.toList).map String.ofList := by
  have h := Joined.splitOn_eq_pieces (a := ',') (b := ' ') name.toList
  rw [String.ofList_toList] at h
  exact h

/-- A name without the separator is its only piece. -/
theorem unbroken_iff : Unbroken name ↔ namePieces name = [name] := by
  have hpieces : Joined.pieces ',' ' ' name.toList = [name.toList] ↔
      ¬ [',', ' '] <:+: name.toList := Joined.pieces_eq_singleton_iff (by decide)
  rw [Unbroken, ← hpieces, namePieces_eq]
  constructor
  · intro h
    rw [h, List.map_singleton, String.ofList_toList]
  · intro h
    have htexts := congrArg (List.map String.toList) h
    rwa [List.map_map, List.map_singleton, show String.toList ∘ String.ofList = id from
      funext fun _ => String.toList_ofList, List.map_id] at htexts

/-- A name with the separator in it starts with a shorter piece. -/
theorem namePieces_broken (h : ¬ Unbroken name) :
    ∃ piece rest, namePieces name = piece :: rest ∧ strBytes piece < strBytes name := by
  obtain ⟨first, rest, hpieces⟩ :=
    List.exists_cons_of_ne_nil (Joined.pieces_ne_nil (a := ',') (b := ' ') name.toList)
  cases rest with
  | nil =>
    have htext := Joined.intercalate_pieces (a := ',') (b := ' ') name.toList
    rw [hpieces, List.intercalate_singleton] at htext
    refine absurd (unbroken_iff.mpr ?_) h
    rw [namePieces_eq, hpieces, htext, List.map_singleton, String.ofList_toList]
  | cons next rest =>
    obtain ⟨more, hmore⟩ := Joined.pieces_first hpieces
    refine ⟨String.ofList first, (next :: rest).map String.ofList, ?_, ?_⟩
    · rw [namePieces_eq, hpieces]
      rfl
    · rw [strBytes, strBytes, String.toList_ofList, hmore, bytes_append, bytes_cons]
      have hcomma : 0 < Char.utf8Size ',' := by decide
      omega

theorem flatMap_unbroken (h : ∀ name ∈ names, Unbroken name) : names.flatMap namePieces = names := by
  calc
    _ = names.flatMap fun name => [name] :=
      List.flatMap_congr fun name hname => unbroken_iff.mp (h name hname)
    _ = names := List.flatMap_singleton' names

/-- The joined names split into the pieces of each. -/
theorem splitOn_intercalate_names (h : names ≠ []) :
    (", ".intercalate names).splitOn ", " = names.flatMap namePieces := by
  have hne : names.map String.toList ≠ [] := by simpa using h
  have hjoined : ", ".intercalate names =
      String.ofList ([',', ' '].intercalate (names.map String.toList)) := by
    rw [← String.toList_inj]
    exact String.toList_intercalate.trans String.toList_ofList.symm
  have hsplit := Joined.splitOn_eq_pieces (a := ',') (b := ' ')
    ([',', ' '].intercalate (names.map String.toList))
  rw [← hjoined, Joined.pieces_intercalate (by decide) hne] at hsplit
  have hpieces : ((names.map String.toList).flatMap (Joined.pieces ',' ' ')).map String.ofList =
      names.flatMap namePieces := by
    rw [List.flatMap_map, List.map_flatMap]
    exact List.flatMap_congr fun name _ => (namePieces_eq name).symm
  exact hsplit.trans hpieces

/-! ## What is shown -/

theorem boundedNames_append (h : before.length ≤ items) (after : List String) :
    boundedNames items (before ++ after) =
      boundedNames before.length before ++ boundedNames (items - before.length) after := by
  rw [boundedNames, List.take_append, List.take_of_length_le h, List.map_append, boundedNames,
    List.take_length]
  rfl

/-- The shown names are those of the first names. -/
theorem boundedNames_unbroken (h : ∀ name ∈ names.take items, Unbroken name) :
    boundedNames items (names.flatMap namePieces) = boundedNames items names := by
  have hsplit : names.flatMap namePieces =
      names.take items ++ (names.drop items).flatMap namePieces := by
    calc
      _ = (names.take items ++ names.drop items).flatMap namePieces := by
        rw [List.take_append_drop]
      _ = _ := by rw [List.flatMap_append, flatMap_unbroken h]
  rw [hsplit, boundedNames, boundedNames, List.take_append]
  by_cases hlen : items ≤ names.length
  · have hzero : items - (names.take items).length = 0 := by
      rw [List.length_take]
      omega
    rw [hzero, List.take_zero, List.append_nil, List.take_take, Nat.min_self]
  · rw [List.drop_eq_nil_of_le (Nat.le_of_not_le hlen), List.flatMap_nil, List.take_nil,
      List.append_nil, List.take_take, Nat.min_self]

/-- The first name with the separator in it. -/
theorem exists_first_broken (h : ¬ ∀ name ∈ names.take items, Unbroken name) :
    ∃ before name after, names = before ++ name :: after ∧ before.length < items ∧
      (∀ earlier ∈ before, Unbroken earlier) ∧ ¬ Unbroken name := by
  induction names generalizing items with
  | nil => exact absurd (fun name hname => by simp at hname) h
  | cons name names ih =>
    cases items with
    | zero => exact absurd (fun name hname => by simp at hname) h
    | succ items =>
      by_cases hname : Unbroken name
      · have hrest : ¬ ∀ name ∈ names.take items, Unbroken name := by
          intro hall
          refine h fun other hother => ?_
          rw [List.take_succ_cons] at hother
          obtain rfl | hother := List.mem_cons.mp hother
          · exact hname
          · exact hall other hother
        obtain ⟨before, broken, after, rfl, hlen, hbefore, hbroken⟩ := ih hrest
        refine ⟨name :: before, broken, after, rfl, Nat.succ_lt_succ hlen, fun earlier hearlier => ?_,
          hbroken⟩
        obtain rfl | hearlier := List.mem_cons.mp hearlier
        · exact hname
        · exact hbefore earlier hearlier
      · exact ⟨[], name, names, rfl, Nat.zero_lt_succ _, fun _ h => (by cases h), hname⟩

/-- What is shown from the first broken name on decides. -/
theorem boundedNames_from (hlen : before.length < items)
    (hbefore : ∀ earlier ∈ before, Unbroken earlier) :
    boundedNames items ((before ++ name :: after).flatMap namePieces) =
        boundedNames items (before ++ name :: after) ↔
      boundedNames (items - before.length) ((name :: after).flatMap namePieces) =
        boundedNames (items - before.length) (name :: after) := by
  rw [List.flatMap_append, flatMap_unbroken hbefore, boundedNames_append (Nat.le_of_lt hlen),
    boundedNames_append (Nat.le_of_lt hlen), List.append_right_inj]

/-- Names are shown the same when they look the same, each in its place. -/
theorem boundedNames_eq_iff {shown : List String} : boundedNames items shown =
    boundedNames items names ↔ List.Forall₂ LooksLike (shown.take items) (names.take items) := by
  rw [boundedNames, boundedNames, ← List.forall₂_eq_eq_eq, List.forall₂_map_left_iff,
    List.forall₂_map_right_iff]
  exact ⟨.imp fun _ _ => looksLike_iff.mpr, .imp fun _ _ => looksLike_iff.mp⟩

/-- Within the bound a broken name shows. -/
theorem long_of_same (hitems : 0 < items) (hbroken : ¬ Unbroken name)
    (h : boundedNames items ((name :: after).flatMap namePieces) =
      boundedNames items (name :: after)) : maxErrorDetailStringBytes < strBytes name := by
  by_contra hshort
  obtain ⟨piece, rest, hpieces, hlt⟩ := namePieces_broken hbroken
  obtain ⟨items, rfl⟩ : ∃ k, items = k + 1 := ⟨items - 1, by omega⟩
  rw [List.flatMap_cons, hpieces] at h
  have hhead : truncateUtf8 piece maxErrorDetailStringBytes =
      truncateUtf8 name maxErrorDetailStringBytes := (List.cons.inj h).1
  rw [truncateUtf8_short (by omega), truncateUtf8_short (by omega)] at hhead
  rw [hhead] at hlt
  exact Nat.lt_irrefl _ hlt

/-- **The pieces are shown as the names** exactly when the names are kept. -/
theorem boundedNames_pieces_iff (items : Nat) (names : List String) :
    boundedNames items (names.flatMap namePieces) = boundedNames items names ↔
      KeepsNames items names := by
  constructor
  · intro h
    by_cases hall : ∀ name ∈ names.take items, Unbroken name
    · exact .inl hall
    · obtain ⟨before, name, after, rfl, hlen, hbefore, hbroken⟩ := exists_first_broken hall
      have hfrom := (boundedNames_from hlen hbefore).mp h
      exact .inr ⟨before, name, after, rfl, hlen, hbefore, hbroken,
        long_of_same (by omega) hbroken hfrom, boundedNames_eq_iff.mp hfrom⟩
  · intro h
    obtain hall | ⟨before, name, after, rfl, hmasked⟩ := h
    · exact boundedNames_unbroken hall
    · exact (boundedNames_from hmasked.shown hmasked.unbroken).mpr
        (boundedNames_eq_iff.mpr hmasked.alike)

/-- Names within the bound are kept exactly when none has the separator in it. -/
theorem keepsNames_short_iff (h : ∀ name ∈ names, strBytes name ≤ maxErrorDetailStringBytes) :
    KeepsNames items names ↔ ∀ name ∈ names.take items, Unbroken name := by
  constructor
  · intro hkeeps
    obtain hall | ⟨before, name, after, rfl, hmasked⟩ := hkeeps
    · exact hall
    · have hshort := h name (List.mem_append_right _ List.mem_cons_self)
      exact absurd hmasked.long (Nat.not_lt.mpr hshort)
  · exact .inl

/-! ## Target resolution -/

/-- What refuses a number of signals is a policy. -/
theorem checkSignalCount_policy {context : QueryContext} {actual : Nat} {error : QueryError}
    (h : context.checkSignalCount actual = .error error) : error.isPolicy = true := by
  unfold QueryContext.checkSignalCount at h
  cases hcheck : context.check with
  | error e =>
    rw [hcheck] at h
    cases h
    obtain ⟨rfl, -⟩ | ⟨rfl, -⟩ := QueryContext.check_error hcheck
    · rfl
    · rfl
  | ok _ =>
    rw [hcheck] at h
    simp only [bind, Except.bind] at h
    split at h
    · split at h
      · cases h
        rfl
      · cases h
    · cases h

/-- A resolution that fails for missing names joins all of them. -/
theorem resolve_missing {opened : OpenedVcd} {targets : List String} {context : QueryContext}
    {signals : String} (h : TargetSelection.resolve opened targets context =
      .error (.vcd (.missingSignals signals))) :
    missingNames opened targets ≠ [] ∧
      signals = ", ".intercalate (missingNames opened targets) := by
  cases hcount : context.checkSignalCount targets.length with
  | error error =>
    have herror : TargetSelection.resolve opened targets context = .error error := by
      simp only [TargetSelection.resolve, hcount, bind, Except.bind]
    rw [herror] at h
    cases h
    cases checkSignalCount_policy hcount
  | ok _ =>
    obtain ⟨⟨⟩, hcheck, -⟩ := Fallible.bind_ok_iff.mp hcount
    obtain ⟨byId, -, -, heq⟩ := resolve_eq opened (QueryContext.check_ok.mp hcheck) hcount
    rw [heq] at h
    split at h
    · cases h
    · rename_i hsome
      cases h
      exact ⟨hsome, rfl⟩

/-- The list of the details is that of the missing names exactly when they are
kept. -/
theorem details_kept_iff (h : names ≠ []) :
    (protocolErrorFromQuery (.vcd (.missingSignals (", ".intercalate names)))).details =
        .obj [("signals", .arr ((boundedNames maxErrorDetailItems names).map .str))] ↔
      KeepsNames maxErrorDetailItems names := by
  have hlisted : listedNames (", ".intercalate names) =
      boundedNames maxErrorDetailItems (names.flatMap namePieces) := by
    rw [listedNames, splitOn_intercalate_names h]
    rfl
  rw [missingSignals_details, hlisted, ← boundedNames_pieces_iff]
  constructor
  · intro heq
    have hlist := Json.arr.inj (Prod.mk.inj (List.cons.inj (Json.obj.inj heq)).1).2
    exact List.map_injective_iff.mpr (fun _ _ => Json.str.inj) hlist
  · intro heq
    rw [heq]

instance (name : String) : Decidable (Unbroken name) := inferInstanceAs (Decidable (¬ _))

theorem resolve_unknown : TargetSelection.resolve (aliasedVcd []) ["x,y", "a", "x z"] {} =
    .error (.vcd (.missingSignals "x,y, x z")) := rfl

end VcdTools.Server
