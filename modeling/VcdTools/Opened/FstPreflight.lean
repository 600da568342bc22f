import VcdTools.Lib.Bytes
import VcdTools.Lib.Fallible
import VcdTools.Opened.Fst

/-! # The preflight check of an FST file

`preflight_hierarchy` of `opened/fst.rs`, with the byte readers it uses: a walk
over the sections of a file before `fst-reader` allocates for them. A position is
the file's cursor. -/
namespace VcdTools.Opened
open VcdTools.Lib

/-- `MAX_HIERARCHY_COMPRESSED_BYTES`. -/
def maxHierarchyCompressedBytes : Nat := 512 * 1024 * 1024

section
variable (file : List UInt8) (path : String)

/-- The error of `read_exact` at the end of the file. -/
def endOfFile : FstError := .io path { kind := .unexpectedEof, message := "failed to fill whole buffer" }

/-- The big-endian number that stands at a position. -/
def declaredAt (pos : Nat) : Option Nat :=
  if pos + 8 ≤ file.length then some (beValue ((file.drop pos).take 8)) else none

/-- `read_be_u64`: the number, and where the cursor is after it. -/
def readBeU64 (pos : Nat) : Except FstError (Nat × Nat) :=
  match declaredAt file pos with
  | some value => .ok (value, pos + 8)
  | none => .error (endOfFile path)

/-- The loop of `read_variant_u64`, with the rounds that are left. -/
def readVariantLoop : Nat → Nat → Nat → Nat → Except FstError (Nat × Nat)
  | 0, _, _, _ => .error (.parse "invalid FST hierarchy length encoding")
  | rounds + 1, index, value, pos =>
    match file[pos]? with
    | none => .error (endOfFile path)
    | some byte =>
      let value := value ||| ((byte &&& 0x7f).toNat <<< (7 * index)) % 2 ^ 64
      if byte &&& 0x80 = 0 then .ok (value, pos + 1)
      else readVariantLoop rounds (index + 1) value (pos + 1)

/-- `read_variant_u64`. -/
def readVariantU64 (pos : Nat) : Except FstError (Nat × Nat) :=
  readVariantLoop file path 10 0 0 pos

/-- The checks of a hierarchy section, from the position after its length. -/
def hierarchyLengths (limit : Nat) (kind : UInt8) (sectionLength pos : Nat) :
    Except FstError Unit := do
  if sectionLength > maxHierarchyCompressedBytes then
    throw (.resourceLimit "hierarchy_compressed_bytes" maxHierarchyCompressedBytes sectionLength)
  if sectionLength < 16 then throw (.parse "compressed FST hierarchy header is truncated")
  let (uncompressed, pos) ← readBeU64 file path pos
  if uncompressed > limit then
    throw (.resourceLimit "hierarchy_uncompressed_bytes" limit uncompressed)
  if kind = 7 then
    let (intermediate, _) ← readVariantU64 file path pos
    if intermediate > limit then
      throw (.resourceLimit "hierarchy_intermediate_bytes" limit intermediate)

/-- `matches!(kind[0], 4 | 6 | 7)`. -/
def isHierarchy (kind : UInt8) : Bool := kind = 4 || kind = 6 || kind = 7

/-- `u64::checked_add`. -/
def checkedAdd (a b : Nat) : Option Nat := if a + b ≤ u64Max then some (a + b) else none

/-- One round of the loop: the position to go on from, or `none` at its end. -/
def sectionStep (fileLen limit pos : Nat) : Except FstError (Option Nat) :=
  match file[pos]? with
  | none => .ok none
  | some kind => do
    let sectionStart := pos + 1
    let (sectionLength, pos) ← readBeU64 file path sectionStart
    if kind = 255 ∧ sectionLength = 0 then return none
    if sectionLength < 8 then throw (.parse "invalid FST section length")
    match checkedAdd sectionStart sectionLength with
    | none => throw (.parse "FST section length overflow")
    | some sectionEnd =>
      if sectionEnd > fileLen then throw (.parse "FST section extends beyond input")
      if isHierarchy kind then hierarchyLengths file path limit kind sectionLength pos
      return some sectionEnd

/-- The loop; `none` when it has not ended after so many rounds. -/
def walkSections (fileLen limit : Nat) : Nat → Nat → Option (Except FstError Unit)
  | 0, _ => none
  | rounds + 1, pos =>
    match sectionStep file path fileLen limit pos with
    | .error error => some (.error error)
    | .ok none => some (.ok ())
    | .ok (some next) => walkSections fileLen limit rounds next

/-- `preflight_hierarchy`, of a file whose metadata says its length: where the
cursor is after it, which the last `seek` puts at the start. -/
def preflightHierarchy (limit : Nat) : Option (Except FstError Nat) :=
  (walkSections file path file.length limit (file.length + 1) 0).map fun result =>
    result.map fun _ => 0

/-! ## What the check should mean -/

/-- **The sections from a position on** up to the end of the file or to the
terminator lie inside the file, and the lengths that a hierarchy section declares
in itself are at most the limit. -/
inductive SectionsFrom (limit : Nat) : Nat → Prop
  | endOfFile {pos : Nat} (h : file.length ≤ pos) : SectionsFrom limit pos
  | terminator {pos : Nat} (hkind : file[pos]? = some 255) (hlength : declaredAt file (pos + 1) = some 0) :
    SectionsFrom limit pos
  | next {pos : Nat} {kind : UInt8} {length : Nat} (hkind : file[pos]? = some kind)
    (hlength : declaredAt file (pos + 1) = some length) (hheader : 8 ≤ length)
    (hinside : pos + 1 + length ≤ file.length)
    (huncompressed : isHierarchy kind = true → 16 ≤ length ∧
      ∃ uncompressed, declaredAt file (pos + 9) = some uncompressed ∧ uncompressed ≤ limit)
    (hintermediate : kind = 7 → ∃ intermediate count,
      leb128 (file.drop (pos + 17)) = some (intermediate, count) ∧ 16 + count ≤ length ∧
        intermediate ≤ limit)
    (hrest : SectionsFrom limit (pos + 1 + length)) : SectionsFrom limit pos

/-- The walk comes to a position. -/
inductive Visits (limit : Nat) : Nat → Prop
  | start : Visits limit 0
  | next {pos next : Nat} (h : Visits limit pos)
    (hstep : sectionStep file path file.length limit pos = .ok (some next)) : Visits limit next

/-- The walk comes to a hierarchy section and asks for its uncompressed length. -/
structure AsksUncompressed (limit pos : Nat) (kind : UInt8) (length : Nat) : Prop where
  visits : Visits file path limit pos
  hasKind : file[pos]? = some kind
  hierarchy : isHierarchy kind = true
  hasLength : declaredAt file (pos + 1) = some length
  inside : pos + 1 + length ≤ file.length
  representable : pos + 1 + length ≤ u64Max
  compressed : length ≤ maxHierarchyCompressedBytes
  header : 16 ≤ length

/-- The walk comes to a section of kind 7 and asks for its intermediate length. -/
structure AsksIntermediate (limit pos length : Nat) : Prop extends
    AsksUncompressed file path limit pos 7 length where
  uncompressed : ∃ uncompressed, declaredAt file (pos + 9) = some uncompressed ∧
    uncompressed ≤ limit

/-- **What the check should be**: it ends; a file it accepts is made of sections in
order, and the cursor is back; the lengths it reads stand in their section; and
they are the numbers that stand there. -/
structure PreflightSound (limit : Nat) : Prop where
  ends : (preflightHierarchy file path limit).isSome
  accepted : ∀ cursor, preflightHierarchy file path limit = some (.ok cursor) →
    cursor = 0 ∧ SectionsFrom file limit 0
  uncompressed : ∀ pos kind length, AsksUncompressed file path limit pos kind length →
    ∀ value after, readBeU64 file path (pos + 9) = .ok (value, after) → after ≤ pos + 1 + length
  intermediate : ∀ pos length, AsksIntermediate file path limit pos length →
    ∀ value after, readVariantU64 file path (pos + 17) = .ok (value, after) →
      after ≤ pos + 1 + length ∧
      leb128 (file.drop (pos + 17)) = some (value, after - (pos + 17))

/-- **The intermediate lengths end in time**: where the number of a section of kind
7 has at most ten bytes, its last byte is in the section, and a tenth byte is 0 or
1. -/
def EncodedInside (limit : Nat) : Prop :=
  ∀ pos length, AsksIntermediate file path limit pos length →
    ∀ last, lastByte (file.drop (pos + 17)) = some last → last < 10 →
      17 + last < 1 + length ∧
      (last = 9 → ∀ byte, (file.drop (pos + 17))[9]? = some byte → byte.toNat ≤ 1)

end

/-! ## The readers -/

section
variable {file : List UInt8} {path : String} {limit pos value after : Nat} {kind : UInt8}

theorem readBeU64_ok_iff : readBeU64 file path pos = .ok (value, after) ↔
    declaredAt file pos = some value ∧ after = pos + 8 := by
  unfold readBeU64
  cases declaredAt file pos with
  | none =>
    constructor
    · intro h
      cases h
    · intro ⟨h, _⟩
      cases h
  | some value' =>
    constructor
    · intro h
      cases h
      exact ⟨rfl, rfl⟩
    · intro ⟨h, hafter⟩
      cases h
      rw [hafter]

theorem drop_of_getElem? {byte : UInt8} (h : file[pos]? = some byte) :
    file.drop pos = byte :: file.drop (pos + 1) := by
  obtain ⟨hlt, rfl⟩ := List.getElem?_eq_some_iff.mp h
  exact List.drop_eq_getElem_cons hlt

/-- **The loop reads the number that stands at the cursor**, if it has no more
bytes than there are rounds, as far as 64 bits hold it. -/
theorem readVariantLoop_ok_iff {rounds index low : Nat} (hindex : index + rounds = 10)
    (hlow : 0 < rounds → low < 2 ^ (7 * index)) :
    readVariantLoop file path rounds index low pos = .ok (value, after) ↔
      ∃ number count, leb128 (file.drop pos) = some (number, count) ∧ count ≤ rounds ∧
        value = (low + number * 2 ^ (7 * index)) % 2 ^ 64 ∧ after = pos + count := by
  induction rounds generalizing index low pos with
  | zero =>
    constructor
    · intro h
      cases h
    · intro ⟨number, count, hnumber, hcount, _⟩
      have := leb128_count_pos hnumber
      omega
  | succ rounds ih =>
    rw [readVariantLoop]
    cases hbyte : file[pos]? with
    | none =>
      rw [List.drop_of_length_le (List.getElem?_eq_none_iff.mp hbyte)]
      constructor
      · intro h
        cases h
      · intro ⟨_, _, h, _⟩
        cases h
    | some byte =>
      have hor := or_shiftLeft_mod (hlow (Nat.succ_pos _)) (by omega : 7 * index ≤ 64)
        (byte &&& 0x7f).toNat
      rw [drop_of_getElem? hbyte]
      simp only [hor, and_high_bit]
      rw [and_low_bits]
      by_cases hlast : byte.toNat < 128
      · rw [if_pos hlast, leb128_cons_last hlast, Nat.mod_eq_of_lt hlast]
        constructor
        · intro h
          cases h
          exact ⟨_, 1, rfl, by omega, rfl, rfl⟩
        · intro ⟨number, count, hnumber, _, hvalue, hafter⟩
          cases hnumber
          rw [hvalue, hafter]
      · have hlow' : 0 < rounds → (low + byte.toNat % 128 * 2 ^ (7 * index)) % 2 ^ 64 <
            2 ^ (7 * (index + 1)) := by
          intro hrounds
          have hpow : 2 ^ (7 * (index + 1)) = 128 * 2 ^ (7 * index) := by ring
          have hsmall : low + byte.toNat % 128 * 2 ^ (7 * index) < 2 ^ (7 * (index + 1)) := by
            have := hlow (Nat.succ_pos _)
            have : byte.toNat % 128 * 2 ^ (7 * index) ≤ 127 * 2 ^ (7 * index) :=
              Nat.mul_le_mul_right _ (by omega)
            omega
          exact Nat.lt_of_le_of_lt (Nat.mod_le _ _) hsmall
        rw [if_neg hlast, leb128_cons_more hlast, ih (by omega) hlow']
        have hsum : ∀ number, ((low + byte.toNat % 128 * 2 ^ (7 * index)) % 2 ^ 64 +
            number * 2 ^ (7 * (index + 1))) % 2 ^ 64 =
              (low + (byte.toNat % 128 + 128 * number) * 2 ^ (7 * index)) % 2 ^ 64 := by
          intro number
          rw [Nat.mod_add_mod]
          congr 1
          ring
        constructor
        · intro ⟨number, count, hnumber, hcount, hvalue, hafter⟩
          refine ⟨byte.toNat % 128 + 128 * number, count + 1, ?_, by omega, ?_, by omega⟩
          · rw [hnumber, Option.map_some]
          · rw [hvalue, hsum]
        · intro ⟨number, count, hnumber, hcount, hvalue, hafter⟩
          obtain ⟨⟨number', count'⟩, hrest, hencoded⟩ := Option.map_eq_some_iff.mp hnumber
          cases hencoded
          exact ⟨number', count', hrest, by omega, by rw [hvalue, hsum], by omega⟩

theorem readVariantU64_ok_iff : readVariantU64 file path pos = .ok (value, after) ↔
    ∃ number count, leb128 (file.drop pos) = some (number, count) ∧ count ≤ 10 ∧
      value = number % 2 ^ 64 ∧ after = pos + count := by
  unfold readVariantU64
  rw [readVariantLoop_ok_iff (by rfl) (fun _ => Nat.one_pos)]
  simp

/-! ## The walk -/

theorem hierarchyLengths_ok_iff {length : Nat} :
    hierarchyLengths file path limit kind length (pos + 9) = .ok () ↔
      length ≤ maxHierarchyCompressedBytes ∧ 16 ≤ length ∧
      (∃ uncompressed, declaredAt file (pos + 9) = some uncompressed ∧ uncompressed ≤ limit) ∧
      (kind = 7 → ∃ intermediate after,
        readVariantU64 file path (pos + 17) = .ok (intermediate, after) ∧ intermediate ≤ limit) := by
  simp only [hierarchyLengths, Fallible.guard_ok_iff, Fallible.bind_ok_iff, Nat.not_lt]
  -- The block on its own of a section of kind 7.
  have hseven : ∀ pos, (if kind = 7 then do
        let (intermediate, _) ← readVariantU64 file path pos
        if intermediate > limit then
          throw (.resourceLimit "hierarchy_intermediate_bytes" limit intermediate)
      else pure ()) = (.ok () : Except FstError Unit) ↔ (kind = 7 → ∃ intermediate after,
        readVariantU64 file path pos = .ok (intermediate, after) ∧ intermediate ≤ limit) := by
    intro pos
    by_cases hkind : kind = 7
    · simp only [hkind, if_true, Fallible.bind_ok_iff, Fallible.check_ok_iff, Nat.not_lt,
        forall_const]
      constructor
      · intro ⟨read, hread, hlimit, _⟩
        exact ⟨read.1, read.2, hread, hlimit⟩
      · intro ⟨intermediate, after, hread, hlimit⟩
        exact ⟨(intermediate, after), hread, hlimit, rfl⟩
    · simp only [hkind, if_false]
      exact ⟨fun _ h => h.elim, fun _ => rfl⟩
  constructor
  · intro ⟨hcompressed, hheader, ⟨uncompressed, after⟩, hread, hlimit, hrest⟩
    obtain ⟨huncompressed, hafter⟩ := readBeU64_ok_iff.mp hread
    cases hafter
    exact ⟨hcompressed, hheader, ⟨uncompressed, huncompressed, hlimit⟩, (hseven _).mp hrest⟩
  · intro ⟨hcompressed, hheader, ⟨uncompressed, huncompressed, hlimit⟩, hrest⟩
    exact ⟨hcompressed, hheader, (uncompressed, pos + 17),
      readBeU64_ok_iff.mpr ⟨huncompressed, rfl⟩, hlimit, (hseven _).mpr hrest⟩

theorem checkedAdd_some_iff {a b sum : Nat} :
    checkedAdd a b = some sum ↔ a + b ≤ u64Max ∧ sum = a + b := by
  unfold checkedAdd
  split
  · rename_i h
    exact ⟨fun heq => ⟨h, (Option.some.inj heq).symm⟩, fun heq => by rw [heq.2]⟩
  · rename_i h
    exact ⟨fun heq => (by cases heq), fun heq => absurd heq.1 h⟩

/-- The walk goes on from a section. -/
structure Passes (file : List UInt8) (path : String) (fileLen limit pos : Nat) (kind : UInt8)
    (length : Nat) : Prop where
  hasKind : file[pos]? = some kind
  hasLength : declaredAt file (pos + 1) = some length
  open_ : ¬ (kind = 255 ∧ length = 0)
  header : 8 ≤ length
  representable : pos + 1 + length ≤ u64Max
  inside : pos + 1 + length ≤ fileLen
  lengths : isHierarchy kind = true → hierarchyLengths file path limit kind length (pos + 9) = .ok ()

/-- The walk ends, with nothing wrong. -/
def Finishes (file : List UInt8) (pos : Nat) : Prop :=
  file[pos]? = none ∨ file[pos]? = some 255 ∧ declaredAt file (pos + 1) = some 0

theorem check_then_iff {c : Prop} [Decidable c] {check : Except FstError Unit}
    {next result : Option Nat} :
    (if c then check >>= fun _ => pure next else pure next) = .ok result ↔
      (c → check = .ok ()) ∧ result = next := by
  by_cases hc : c
  · rw [if_pos hc, Fallible.bind_ok_iff]
    constructor
    · intro ⟨_, hcheck, hresult⟩
      cases hresult
      exact ⟨fun _ => hcheck, rfl⟩
    · intro ⟨hcheck, hresult⟩
      exact ⟨(), hcheck hc, by rw [hresult]; rfl⟩
  · rw [if_neg hc]
    constructor
    · intro hresult
      cases hresult
      exact ⟨fun h => absurd h hc, rfl⟩
    · intro ⟨_, hresult⟩
      rw [hresult]
      rfl

/-- **One round**: it ends, or goes on after a section that passed. -/
theorem sectionStep_ok_iff {fileLen : Nat} {next : Option Nat} :
    sectionStep file path fileLen limit pos = .ok next ↔
      (Finishes file pos ∧ next = none) ∨
      ∃ kind length, Passes file path fileLen limit pos kind length ∧
        next = some (pos + 1 + length) := by
  unfold sectionStep Finishes
  cases hkind : file[pos]? with
  | none =>
    constructor
    · intro h
      cases h
      exact .inl ⟨.inl rfl, rfl⟩
    · intro h
      obtain ⟨-, rfl⟩ | ⟨kind, length, hpasses, -⟩ := h
      · rfl
      · cases hkind ▸ hpasses.hasKind
  | some kind =>
    simp only [Fallible.bind_ok_iff]
    constructor
    · intro ⟨⟨length, after⟩, hread, hstep⟩
      obtain ⟨hlength, hafter⟩ := readBeU64_ok_iff.mp hread
      cases hafter
      by_cases hopen : kind = 255 ∧ length = 0
      · obtain ⟨rfl, rfl⟩ := hopen
        cases hstep
        exact .inl ⟨.inr ⟨rfl, hlength⟩, rfl⟩
      · rw [if_neg hopen, Fallible.guard_ok_iff] at hstep
        obtain ⟨hheader, hstep⟩ := hstep
        cases hsum : checkedAdd (pos + 1) length with
        | none =>
          rw [hsum] at hstep
          cases hstep
        | some sectionEnd =>
          rw [hsum] at hstep
          obtain ⟨hrepresentable, rfl⟩ := checkedAdd_some_iff.mp hsum
          obtain ⟨hinside, hstep⟩ := Fallible.guard_ok_iff.mp hstep
          obtain ⟨hlengths, rfl⟩ := check_then_iff.mp hstep
          exact .inr ⟨kind, length, ⟨hkind, hlength, hopen, Nat.not_lt.mp hheader, hrepresentable,
            Nat.not_lt.mp hinside, hlengths⟩, rfl⟩
    · intro h
      obtain ⟨hend, rfl⟩ | ⟨kind', length, hpasses, rfl⟩ := h
      · obtain hnone | ⟨h255, hlength⟩ := hend
        · cases hnone
        · cases h255
          exact ⟨(0, pos + 9), readBeU64_ok_iff.mpr ⟨hlength, rfl⟩, rfl⟩
      · have hsame := hpasses.hasKind
        rw [hkind] at hsame
        cases hsame
        refine ⟨(length, pos + 9), readBeU64_ok_iff.mpr ⟨hpasses.hasLength, rfl⟩, ?_⟩
        rw [if_neg hpasses.open_, Fallible.guard_ok_iff,
          checkedAdd_some_iff.mpr ⟨hpasses.representable, rfl⟩]
        refine ⟨Nat.not_lt.mpr hpasses.header, Fallible.guard_ok_iff.mpr
          ⟨Nat.not_lt.mpr hpasses.inside, check_then_iff.mpr ⟨hpasses.lengths, rfl⟩⟩⟩

/-! ## Runs -/

/-- **The walk ends**: every section takes it nine bytes on, and no further than
the end of the file. -/
theorem walkSections_isSome {rounds : Nat} (hpos : pos ≤ file.length)
    (hrounds : file.length - pos < rounds) :
    (walkSections file path file.length limit rounds pos).isSome := by
  induction rounds generalizing pos with
  | zero => cases hrounds
  | succ rounds ih =>
    rw [walkSections]
    cases hstep : sectionStep file path file.length limit pos with
    | error error => rfl
    | ok next =>
      cases next with
      | none => rfl
      | some next =>
        obtain ⟨-, hnone⟩ | ⟨kind, length, hpasses, hnext⟩ := sectionStep_ok_iff.mp hstep
        · cases hnone
        · cases hnext
          have := hpasses.header
          have := hpasses.inside
          exact ih hpasses.inside (by omega)

/-- A number of at most ten bytes that ends in time is read as it stands. -/
theorem EncodedInside.read (h : EncodedInside file path limit) {length : Nat}
    (hasks : AsksIntermediate file path limit pos length)
    (hread : readVariantU64 file path (pos + 17) = .ok (value, after)) :
    after ≤ pos + 1 + length ∧ leb128 (file.drop (pos + 17)) = some (value, after - (pos + 17)) := by
  obtain ⟨number, count, hnumber, hcount, hvalue, hafter⟩ := readVariantU64_ok_iff.mp hread
  have hpositive := leb128_count_pos hnumber
  have hlast : lastByte (file.drop (pos + 17)) = some (count - 1) := by
    rw [lastByte_eq, hnumber, Option.map_some]
  obtain ⟨hinside, htenth⟩ := h pos length hasks _ hlast (by omega)
  have hsmall : number < 2 ^ 64 := by
    refine (leb128_lt_iff hnumber hcount).mpr fun last hlast hten => ?_
    subst hten
    exact htenth rfl last hlast
  rw [Nat.mod_eq_of_lt hsmall] at hvalue
  refine ⟨by omega, ?_⟩
  rw [hnumber, hvalue, hafter, Nat.add_sub_cancel_left]

/-- What a section that passed says of the lengths it declares. -/
theorem Passes.asks {length : Nat} (h : Passes file path file.length limit pos kind length)
    (hvisits : Visits file path limit pos) (hkind : isHierarchy kind = true) :
    AsksUncompressed file path limit pos kind length ∧
      ∃ uncompressed, declaredAt file (pos + 9) = some uncompressed ∧ uncompressed ≤ limit := by
  obtain ⟨hcompressed, hheader, huncompressed, -⟩ := hierarchyLengths_ok_iff.mp (h.lengths hkind)
  exact ⟨⟨hvisits, h.hasKind, hkind, h.hasLength, h.inside, h.representable, hcompressed, hheader⟩,
    huncompressed⟩

/-- **A walk that ends well** has seen only sections in order. -/
theorem walkSections_sections (h : EncodedInside file path limit) {rounds : Nat}
    (hvisits : Visits file path limit pos)
    (hwalk : walkSections file path file.length limit rounds pos = some (.ok ())) :
    SectionsFrom file limit pos := by
  induction rounds generalizing pos with
  | zero => cases hwalk
  | succ rounds ih =>
    rw [walkSections] at hwalk
    cases hstep : sectionStep file path file.length limit pos with
    | error error =>
      rw [hstep] at hwalk
      cases hwalk
    | ok next =>
      rw [hstep] at hwalk
      obtain ⟨hfinishes, rfl⟩ | ⟨kind, length, hpasses, rfl⟩ := sectionStep_ok_iff.mp hstep
      · obtain hend | ⟨hkind, hlength⟩ := hfinishes
        · exact .endOfFile (List.getElem?_eq_none_iff.mp hend)
        · exact .terminator hkind hlength
      · refine .next hpasses.hasKind hpasses.hasLength hpasses.header hpasses.inside ?_ ?_
          (ih (hvisits.next hstep) hwalk)
        · intro hkind
          obtain ⟨hasks, huncompressed⟩ := hpasses.asks hvisits hkind
          exact ⟨hasks.header, huncompressed⟩
        · intro hkind
          subst hkind
          obtain ⟨hasks, huncompressed⟩ := hpasses.asks hvisits rfl
          obtain ⟨-, -, -, hseven⟩ := hierarchyLengths_ok_iff.mp (hpasses.lengths rfl)
          obtain ⟨intermediate, after, hread, hlimit⟩ := hseven rfl
          obtain ⟨hinside, hnumber⟩ := h.read ⟨hasks, huncompressed⟩ hread
          have := hasks.header
          exact ⟨intermediate, _, hnumber, by omega, hlimit⟩

/-- **The check is what it should be where the intermediate lengths end in time,
and in no other file.** -/
theorem preflightSound_iff (file : List UInt8) (path : String) (limit : Nat) :
    PreflightSound file path limit ↔ EncodedInside file path limit := by
  constructor
  · intro hsound pos length hasks last hlast hten
    rw [lastByte_eq] at hlast
    obtain ⟨⟨number, count⟩, hnumber, rfl⟩ := Option.map_eq_some_iff.mp hlast
    have hpositive := leb128_count_pos hnumber
    have hread : readVariantU64 file path (pos + 17) = .ok (number % 2 ^ 64, pos + 17 + count) :=
      readVariantU64_ok_iff.mpr ⟨number, count, hnumber, by omega, rfl, rfl⟩
    obtain ⟨hinside, hsame⟩ := hsound.intermediate pos length hasks _ _ hread
    refine ⟨by omega, ?_⟩
    intro hninth byte hbyte
    rw [hnumber] at hsame
    have hvalue : number = number % 2 ^ 64 := congrArg Prod.fst (Option.some.inj hsame)
    have hsmall : number < 2 ^ 64 := by
      rw [hvalue]
      exact Nat.mod_lt _ (Nat.two_pow_pos 64)
    refine (leb128_lt_iff hnumber (by omega)).mp hsmall byte ?_ (by omega)
    rw [hninth]
    exact hbyte
  · intro hencoded
    refine ⟨?_, ?_, ?_, fun pos length hasks value after hread => hencoded.read hasks hread⟩
    · unfold preflightHierarchy
      rw [Option.isSome_map]
      exact walkSections_isSome (Nat.zero_le _) (Nat.lt_succ_self _)
    · intro cursor hcursor
      unfold preflightHierarchy at hcursor
      obtain ⟨result, hwalk, hresult⟩ := Option.map_eq_some_iff.mp hcursor
      obtain ⟨_, rfl, rfl⟩ := Fallible.map_ok_iff.mp hresult
      exact ⟨rfl, walkSections_sections hencoded .start hwalk⟩
    · intro pos kind length hasks value after hread
      obtain ⟨-, rfl⟩ := readBeU64_ok_iff.mp hread
      have := hasks.header
      omega

/-- A section of kind 7 that ends in front of its intermediate length: the bytes of
the terminator are read for it. -/
def shortSection : List UInt8 :=
  [7, 0, 0, 0, 0, 0, 0, 0, 16, 0, 0, 0, 0, 0, 0, 0, 0, 255, 0, 0, 0, 0, 0, 0, 0, 0]

/-- A section of kind 7 whose intermediate length is 2 to the power of 64. -/
def wideSection : List UInt8 :=
  [7, 0, 0, 0, 0, 0, 0, 0, 26, 0, 0, 0, 0, 0, 0, 0, 0,
    128, 128, 128, 128, 128, 128, 128, 128, 128, 2]

/-- **Both files are accepted**, with a limit of 127 bytes. -/
theorem sections_accepted :
    preflightHierarchy shortSection "a.fst" 127 = some (.ok 0) ∧
    readVariantU64 shortSection "a.fst" 17 = .ok (127, 19) ∧
    ¬ PreflightSound shortSection "a.fst" 127 ∧
    preflightHierarchy wideSection "a.fst" 127 = some (.ok 0) ∧
    leb128 (wideSection.drop 17) = some (2 ^ 64, 10) ∧
    readVariantU64 wideSection "a.fst" 17 = .ok (0, 27) ∧
    ¬ PreflightSound wideSection "a.fst" 127 := by
  have hshort : readVariantU64 shortSection "a.fst" 17 = .ok (127, 19) := by decide
  have hwide : readVariantU64 wideSection "a.fst" 17 = .ok (0, 27) := by decide
  have hnumber : leb128 (wideSection.drop 17) = some (2 ^ 64, 10) := by decide
  have hshortAsks : AsksIntermediate shortSection "a.fst" 127 0 16 :=
    ⟨⟨.start, rfl, rfl, by decide, by decide, by decide, by decide, by decide⟩, 0, by decide,
      by decide⟩
  have hwideAsks : AsksIntermediate wideSection "a.fst" 127 0 26 :=
    ⟨⟨.start, rfl, rfl, by decide, by decide, by decide, by decide, by decide⟩, 0, by decide,
      by decide⟩
  refine ⟨by decide, hshort, ?_, by decide, hnumber, hwide, ?_⟩
  · intro hsound
    have hinside := (hsound.intermediate 0 16 hshortAsks _ _ hshort).1
    omega
  · intro hsound
    have hsame := (hsound.intermediate 0 26 hwideAsks _ _ hwide).2
    rw [hnumber] at hsame
    cases hsame

end

end VcdTools.Opened
