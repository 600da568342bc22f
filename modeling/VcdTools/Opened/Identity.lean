import VcdTools.Header.Split
import VcdTools.Lib.Handle

/-! # The identity of an opened file

`FileIdentity` of `opened/identity.rs`: what is recorded of a file when it is
opened, and what a later validation compares with it. BLAKE3 is a parameter: a
function of all the bytes that the hasher is fed. -/
namespace VcdTools.Opened
open VcdTools.Lib

/-- `std::fs::Metadata`; `modified` is absent where the system does not tell it. -/
structure Metadata where
  len : Nat
  modified : Option Int
  device : Nat
  inode : Nat
  deriving DecidableEq, Repr

/-- `FingerprintPolicy`. -/
inductive FingerprintPolicy
  | metadataAndSamples | strictFullContent
  deriving DecidableEq, Repr

/-- `FileIdentity`, with fingerprints of type `η`. -/
structure FileIdentity (η : Type) where
  len : Nat
  modified : Option Int
  bodyOffset : Nat
  headerFingerprint : η
  sampleFingerprint : η
  fullContentFingerprint : Option η
  device : Nat
  inode : Nat

/-- An open file of the crate. -/
abbrev OpenFile := File IoError Metadata

/-- What the functions on a `&mut File` do. -/
abbrev FileAction := Action Handle VcdError

variable {η : Type} (hash : List UInt8 → η) (file : OpenFile)

/-! ## Fingerprints -/

def contentSampleBytes : Nat := 64 * 1024

/-- The length of the buffers that are read into. -/
def blockBytes : Nat := 64 * 1024

theorem blockBytes_pos : 0 < blockBytes := by simp [blockBytes]

/-- `u64::to_le_bytes`. -/
def toLeBytes (n : Nat) : List UInt8 := (List.range 8).map fun i => UInt8.ofNat (n / 256 ^ i)

def samplesTag : List UInt8 := Header.ascii "vcd_tools_rs bounded samples v1" ++ [0]

def fullContentTag : List UInt8 := Header.ascii "vcd_tools_rs full content v1" ++ [0]

/-- The end of the file where a region should be. -/
def changedWhile (subject : String) : IoError :=
  ⟨.unexpectedEof, "VCD changed while calculating " ++ subject ++ " fingerprint", false⟩

/-- `hash_region`; a hasher is the bytes it was fed. -/
def hashRegion (hasher : List UInt8) (offset len : Nat) : FileAction (List UInt8) := do
  let _ ← (file.seek offset).mapError .io
  (file.readRegion blockBytes (changedWhile "content") len
    (hasher ++ toLeBytes offset ++ toLeBytes len)).mapError .io

/-- `fingerprint_raw_region`. -/
def fingerprintRawRegion (offset len : Nat) : FileAction η := do
  let _ ← (file.seek offset).mapError .io
  let hasher ← (file.readRegion blockBytes (changedWhile "header") len []).mapError .io
  return hash hasher

/-- `fingerprint_samples`. -/
def fingerprintSamples (len : Nat) : FileAction η := do
  let hasher ← hashRegion file samplesTag 0 (min len contentSampleBytes)
  let endStart := len - contentSampleBytes
  let hasher ← hashRegion file (hasher ++ toLeBytes endStart) endStart (len - endStart)
  return hash hasher

/-- `fingerprint_full_content`. -/
def fingerprintFullContent : FileAction η := do
  let _ ← (file.seek 0).mapError .io
  let hasher ← (file.readRest blockBytes fullContentTag).mapError .io
  return hash hasher

/-! ## Recording -/

/-- `same_platform_identity`. -/
def samePlatformIdentity (before after : Metadata) : Bool :=
  before.device = after.device && before.inode = after.inode

/-- The full content under a policy that asks for it. -/
def policyFingerprint : FingerprintPolicy → FileAction (Option η)
  | .metadataAndSamples => pure none
  | .strictFullContent => do
    let fingerprint ← fingerprintFullContent hash file
    return some fingerprint

/-- `FileIdentity::from_open_file`. -/
def fromOpenFile (header : List UInt8) (bodyOffset : Nat) (policy : FingerprintPolicy) :
    FileAction (FileIdentity η) := do
  let metadata ← file.stat.mapError .io
  Action.ensure (bodyOffset ≤ metadata.len)
    (.io ⟨.invalidData, "VCD body offset is outside the opened file", false⟩)
  let sampleFingerprint ← fingerprintSamples hash file metadata.len
  let fullContentFingerprint ← policyFingerprint hash file policy
  let metadataAfter ← file.stat.mapError .io
  Action.ensure (metadata.len = metadataAfter.len ∧ metadata.modified = metadataAfter.modified ∧
      samePlatformIdentity metadata metadataAfter)
    (.io ⟨.other, "VCD changed while calculating file identity", false⟩)
  let _ ← (file.seek bodyOffset).mapError .io
  return ⟨metadata.len, metadata.modified, bodyOffset, hash header, sampleFingerprint,
    fullContentFingerprint, metadata.device, metadata.inode⟩

/-! ## Validating -/

namespace FileIdentity
variable (self : FileIdentity η)

/-- `matches_metadata`, with `matches_stored_platform_identity` of Unix. -/
def matchesMetadata (metadata : Metadata) : Bool :=
  self.len = metadata.len && self.modified = metadata.modified &&
    (self.device = metadata.device && self.inode = metadata.inode)

theorem matchesMetadata_iff {metadata : Metadata} : self.matchesMetadata metadata ↔
    metadata.len = self.len ∧ metadata.modified = self.modified ∧
      metadata.device = self.device ∧ metadata.inode = self.inode := by
  rw [matchesMetadata, Bool.and_eq_true, Bool.and_eq_true, Bool.and_eq_true, decide_eq_true_iff,
    decide_eq_true_iff, decide_eq_true_iff, decide_eq_true_iff, and_assoc, eq_comm,
    @eq_comm _ self.modified, @eq_comm _ self.device, @eq_comm _ self.inode]

variable [DecidableEq η]

/-- `content_fingerprints_match`. -/
def contentFingerprintsMatch (policy : FingerprintPolicy) : FileAction Bool := do
  let header ← fingerprintRawRegion hash file 0 self.bodyOffset
  if header ≠ self.headerFingerprint then return false
  else do
    let samples ← fingerprintSamples hash file self.len
    if samples ≠ self.sampleFingerprint then return false
    else match policy, self.fullContentFingerprint with
      | .metadataAndSamples, none => return true
      | .strictFullContent, some expected => do
        let content ← fingerprintFullContent hash file
        return content = expected
      | _, _ => return false

/-- The closure of `validate_open_file`. -/
def validation (policy : FingerprintPolicy) : FileAction Unit := do
  let metadataBefore ← file.stat.mapError .io
  Action.ensure (self.matchesMetadata metadataBefore) generationMismatchError
  let content ← self.contentFingerprintsMatch hash file policy
  Action.ensure (content = true) generationMismatchError
  let metadataAfter ← file.stat.mapError .io
  Action.ensure (self.matchesMetadata metadataAfter ∧
    samePlatformIdentity metadataBefore metadataAfter) generationMismatchError

/-- `validate_open_file`. -/
def validateOpenFile (policy : FingerprintPolicy) : FileAction Unit := do
  let validation ← (self.validation hash file policy).attempt
  let restore ← (file.seek self.bodyOffset).attempt
  Action.lift validation
  let _ ← Action.lift (restore.mapError VcdError.io)

end FileIdentity

/-! ## What is hashed -/

/-- What a hasher was fed after a region. -/
def regionText (content hasher : List UInt8) (offset len : Nat) : List UInt8 :=
  hasher ++ toLeBytes offset ++ toLeBytes len ++ (content.drop offset).take len

/-- What the samples of a file are the hash of. -/
def samplesText (content : List UInt8) : List UInt8 :=
  let endStart := content.length - contentSampleBytes
  regionText content
    (regionText content samplesTag 0 (min content.length contentSampleBytes) ++ toLeBytes endStart)
    endStart (content.length - endStart)

variable {hash file} {α : Type} {a : α} {position : Nat} {x : FileAction α}

theorem seek_only (h : ∀ calls b s', x ⟨position, calls⟩ = (.ok b, s') → b = a) :
    Action.Only (do let _ ← (file.seek position).mapError .io; x) a := by
  intro s b s'' hblock
  obtain ⟨_, s', hseek, hx⟩ := Action.bind_eq_ok.mp hblock
  obtain ⟨-, rfl⟩ := File.call_ok (Action.mapError_ok.mp hseek)
  exact h _ _ _ hx

theorem seek_total (hhealthy : file.Healthy) (h : ∀ calls, ∃ a s', x ⟨position, calls⟩ = (.ok a, s')) :
    Action.Total (do let _ ← (file.seek position).mapError .io; x) := by
  intro s
  obtain ⟨a, s', hx⟩ := h (s.calls + 1)
  exact ⟨a, s', (Action.bind_ok (Action.mapError_ok.mpr (hhealthy.call _ s))).trans hx⟩

theorem stat_answers (hhealthy : file.Healthy) {metadata : Metadata}
    (h : ∀ n, file.metadata n = metadata) :
    Action.Answers (file.stat.mapError VcdError.io) metadata where
  only _ _ _ hstat := (File.call_ok (Action.mapError_ok.mp hstat)).1.trans (h _)
  total s := ⟨_, _, Action.mapError_ok.mpr (hhealthy.call _ s)⟩

theorem hashRegion_only (hasher : List UInt8) (offset len : Nat) :
    (hashRegion file hasher offset len).Only (regionText file.content hasher offset len) :=
  seek_only fun _ _ _ h => (File.readRegion_ok (Action.mapError_ok.mp h)).2

theorem hashRegion_answers (hhealthy : file.Healthy) (hasher : List UInt8) {offset len : Nat}
    (hlen : len ≤ file.content.length - offset) :
    (hashRegion file hasher offset len).Answers (regionText file.content hasher offset len) where
  only := hashRegion_only hasher offset len
  total := seek_total hhealthy fun calls => by
    obtain ⟨bytes, s', hread⟩ := hhealthy.readRegion (h := ⟨offset, calls⟩)
      blockBytes_pos (changedWhile "content") (hasher ++ toLeBytes offset ++ toLeBytes len) hlen
    exact ⟨bytes, s', Action.mapError_ok.mpr hread⟩

theorem fingerprintRawRegion_only (offset len : Nat) :
    (fingerprintRawRegion hash file offset len).Only (hash ((file.content.drop offset).take len)) :=
  seek_only fun _ _ _ h => by
    obtain ⟨hasher, s', hread, hhash⟩ := Action.bind_eq_ok.mp h
    rw [(File.readRegion_ok (Action.mapError_ok.mp hread)).2] at hhash
    cases hhash
    rfl

theorem fingerprintRawRegion_answers (hhealthy : file.Healthy) {offset len : Nat}
    (hlen : len ≤ file.content.length - offset) :
    (fingerprintRawRegion hash file offset len).Answers
      (hash ((file.content.drop offset).take len)) where
  only := fingerprintRawRegion_only offset len
  total := seek_total hhealthy fun calls => by
    obtain ⟨bytes, s', hread⟩ := hhealthy.readRegion (h := ⟨offset, calls⟩)
      blockBytes_pos (changedWhile "header") [] hlen
    exact ⟨hash bytes, s', Action.bind_ok (Action.mapError_ok.mpr hread)⟩

theorem fingerprintSamples_only :
    (fingerprintSamples hash file file.content.length).Only (hash (samplesText file.content)) :=
  (hashRegion_only _ _ _).bind ((hashRegion_only _ _ _).bind .pure)

theorem fingerprintSamples_answers (hhealthy : file.Healthy) :
    (fingerprintSamples hash file file.content.length).Answers (hash (samplesText file.content)) :=
  (hashRegion_answers hhealthy _ (Nat.min_le_left ..)).bind
    ((hashRegion_answers hhealthy _ (Nat.le_refl _)).bind .pure)

theorem fingerprintFullContent_only :
    (fingerprintFullContent hash file).Only (hash (fullContentTag ++ file.content)) :=
  seek_only fun _ _ _ h => by
    obtain ⟨hasher, s', hread, hhash⟩ := Action.bind_eq_ok.mp h
    rw [File.readRest_ok blockBytes_pos (Action.mapError_ok.mp hread)] at hhash
    cases hhash
    rfl

theorem fingerprintFullContent_answers (hhealthy : file.Healthy) :
    (fingerprintFullContent hash file).Answers (hash (fullContentTag ++ file.content)) where
  only := fingerprintFullContent_only
  total := seek_total hhealthy fun calls => by
    obtain ⟨bytes, s', hread⟩ := hhealthy.readRest blockBytes fullContentTag ⟨0, calls⟩
    exact ⟨hash bytes, s', Action.bind_ok (Action.mapError_ok.mpr hread)⟩

/-! ## What is recorded -/

/-- The length that the system tells is that of the content. -/
def Sized (file : OpenFile) : Prop := ∀ n, (file.metadata n).len = file.content.length

/-- The fingerprint of the full content under a policy. -/
def fullFingerprint (hash : List UInt8 → η) (policy : FingerprintPolicy) (content : List UInt8) :
    Option η :=
  match policy with
  | .metadataAndSamples => none
  | .strictFullContent => some (hash (fullContentTag ++ content))

theorem policyFingerprint_only (policy : FingerprintPolicy) :
    (policyFingerprint hash file policy).Only (fullFingerprint hash policy file.content) :=
  match policy with
  | .metadataAndSamples => .pure
  | .strictFullContent => fingerprintFullContent_only.bind .pure

/-- **What an identity says of a content** under a policy. -/
structure Records (hash : List UInt8 → η) (policy : FingerprintPolicy) (content : List UInt8)
    (identity : FileIdentity η) : Prop where
  len : identity.len = content.length
  bodyOffset : identity.bodyOffset ≤ content.length
  header : identity.headerFingerprint = hash (content.take identity.bodyOffset)
  samples : identity.sampleFingerprint = hash (samplesText content)
  full : identity.fullContentFingerprint = fullFingerprint hash policy content

/-- **An identity that is made records the file.** -/
theorem fromOpenFile_records (hsized : Sized file) {header : List UInt8} {bodyOffset : Nat}
    {policy : FingerprintPolicy} (hheader : header = file.content.take bodyOffset)
    {s s' : Handle} {identity : FileIdentity η}
    (h : fromOpenFile hash file header bodyOffset policy s = (.ok identity, s')) :
    Records hash policy file.content identity := by
  obtain ⟨metadata, s₁, hstat, h⟩ := Action.bind_eq_ok.mp h
  obtain ⟨_, s₂, hoffset, h⟩ := Action.bind_eq_ok.mp h
  obtain ⟨samples, s₃, hsamples, h⟩ := Action.bind_eq_ok.mp h
  obtain ⟨full, s₄, hfull, h⟩ := Action.bind_eq_ok.mp h
  obtain ⟨metadataAfter, s₅, _, h⟩ := Action.bind_eq_ok.mp h
  obtain ⟨_, s₆, _, h⟩ := Action.bind_eq_ok.mp h
  obtain ⟨_, s₇, _, h⟩ := Action.bind_eq_ok.mp h
  have hlen : metadata.len = file.content.length := by
    rw [(File.call_ok (Action.mapError_ok.mp hstat)).1, hsized]
  rw [hlen] at hsamples
  cases h
  exact {
    len := hlen
    bodyOffset := (Action.ensure_ok.mp hoffset).1.trans_eq hlen
    header := congrArg hash hheader
    samples := fingerprintSamples_only _ _ _ hsamples
    full := policyFingerprint_only policy _ _ _ hfull }

/-! ## What is validated -/

/-- **The content that a fingerprint covers is unchanged**: the header and the
first and last samples, or all of it. -/
def Unchanged (policy : FingerprintPolicy) (bodyOffset : Nat) (recorded content : List UInt8) :
    Prop :=
  match policy with
  | .metadataAndSamples =>
    content.take bodyOffset = recorded.take bodyOffset ∧
      content.take contentSampleBytes = recorded.take contentSampleBytes ∧
      content.drop (content.length - contentSampleBytes) =
        recorded.drop (recorded.length - contentSampleBytes)
  | .strictFullContent => content = recorded

/-- What is hashed of a content under a policy. -/
def hashedTexts (policy : FingerprintPolicy) (bodyOffset : Nat) (content : List UInt8) :
    List (List UInt8) :=
  match policy with
  | .metadataAndSamples => [content.take bodyOffset, samplesText content]
  | .strictFullContent =>
    [content.take bodyOffset, samplesText content, fullContentTag ++ content]

/-- **No collision** between what is hashed of two contents. -/
def CollisionFree (hash : List UInt8 → η) (policy : FingerprintPolicy) (bodyOffset : Nat)
    (recorded content : List UInt8) : Prop :=
  ∀ text ∈ hashedTexts policy bodyOffset content,
    ∀ text' ∈ hashedTexts policy bodyOffset recorded, hash text = hash text' → text = text'

theorem take_min_length (content : List UInt8) (n : Nat) :
    content.take (min content.length n) = content.take n := by
  rw [Nat.min_comm, ← List.take_take, List.take_length]

/-- Samples of contents of one length are equal when they are at both ends. -/
theorem samplesText_eq_iff {recorded content : List UInt8} (hlen : content.length = recorded.length) :
    samplesText content = samplesText recorded ↔
      content.take contentSampleBytes = recorded.take contentSampleBytes ∧
        content.drop (content.length - contentSampleBytes) =
          recorded.drop (recorded.length - contentSampleBytes) := by
  have hrest : ∀ c : List UInt8, (c.drop (c.length - contentSampleBytes)).take
      (c.length - (c.length - contentSampleBytes)) = c.drop (c.length - contentSampleBytes) :=
    fun c => List.take_of_length_le (by rw [List.length_drop])
  have htext : ∀ c : List UInt8, samplesText c =
      samplesTag ++ toLeBytes 0 ++ toLeBytes (min c.length contentSampleBytes) ++
        c.take contentSampleBytes ++
          (toLeBytes (c.length - contentSampleBytes) ++ toLeBytes (c.length - contentSampleBytes) ++
            toLeBytes (c.length - (c.length - contentSampleBytes)) ++
              c.drop (c.length - contentSampleBytes)) := by
    intro c
    simp only [samplesText, regionText, List.drop_zero, take_min_length, hrest, List.append_assoc]
  rw [htext, htext, hlen]
  constructor
  · intro h
    obtain ⟨hfirst, hlast⟩ := List.append_inj h (by simp [hlen])
    exact ⟨List.append_cancel_left hfirst, List.append_cancel_left hlast⟩
  · intro ⟨hfirst, hlast⟩
    rw [hfirst, hlast]

theorem policyFingerprint_answers (hhealthy : file.Healthy) (policy : FingerprintPolicy) :
    (policyFingerprint hash file policy).Answers (fullFingerprint hash policy file.content) :=
  match policy with
  | .metadataAndSamples => .pure
  | .strictFullContent => (fingerprintFullContent_answers hhealthy).bind .pure

theorem seek_answers (hhealthy : file.Healthy) (position : Nat) :
    Action.Answers ((file.seek position).mapError VcdError.io) position where
  only _ _ _ h := (File.call_ok (Action.mapError_ok.mp h)).1
  total s := ⟨_, _, Action.mapError_ok.mpr (hhealthy.seek position s)⟩

/-- An identity is made of a file that stays as it is. -/
theorem fromOpenFile_answers (hhealthy : file.Healthy) {metadata : Metadata}
    (hmetadata : ∀ n, file.metadata n = metadata) (hlen : metadata.len = file.content.length)
    (header : List UInt8) {bodyOffset : Nat} (hoffset : bodyOffset ≤ file.content.length)
    (policy : FingerprintPolicy) :
    (fromOpenFile hash file header bodyOffset policy).Answers
      ⟨metadata.len, metadata.modified, bodyOffset, hash header, hash (samplesText file.content),
        fullFingerprint hash policy file.content, metadata.device, metadata.inode⟩ := by
  have hstat := stat_answers hhealthy hmetadata
  refine .bind hstat (.bind (.ensure (hoffset.trans_eq hlen.symm)) ?_)
  rw [hlen]
  refine .bind (fingerprintSamples_answers hhealthy)
    (.bind (policyFingerprint_answers hhealthy policy) (.bind hstat ?_))
  have hsame : file.content.length = metadata.len ∧ metadata.modified = metadata.modified ∧
      samePlatformIdentity metadata metadata := ⟨hlen.symm, rfl, by simp [samePlatformIdentity]⟩
  exact .bind (.ensure hsame) (.bind (seek_answers hhealthy bodyOffset) .pure)

section
variable {identity : FileIdentity η} {policy : FingerprintPolicy} {recorded : List UInt8}

/-- **The fingerprints agree exactly when the covered content is unchanged.** -/
theorem fingerprints_iff (hidentity : Records hash policy recorded identity)
    (hcollision : CollisionFree hash policy identity.bodyOffset recorded file.content)
    (hlen : identity.len = file.content.length) :
    (hash (file.content.take identity.bodyOffset) = identity.headerFingerprint ∧
        hash (samplesText file.content) = identity.sampleFingerprint ∧
          fullFingerprint hash policy file.content = identity.fullContentFingerprint) ↔
      Unchanged policy identity.bodyOffset recorded file.content := by
  have hlength : file.content.length = recorded.length := hlen.symm.trans hidentity.len
  rw [hidentity.header, hidentity.samples, hidentity.full]
  cases policy with
  | metadataAndSamples =>
    rw [Unchanged, ← samplesText_eq_iff hlength]
    constructor
    · intro ⟨hheader, hsamples, _⟩
      exact ⟨hcollision _ (by simp [hashedTexts]) _ (by simp [hashedTexts]) hheader,
        hcollision _ (by simp [hashedTexts]) _ (by simp [hashedTexts]) hsamples⟩
    · intro ⟨hheader, hsamples⟩
      exact ⟨congrArg hash hheader, congrArg hash hsamples, rfl⟩
  | strictFullContent =>
    constructor
    · intro ⟨_, _, hfull⟩
      have htext := hcollision _ (by simp [hashedTexts]) _ (by simp [hashedTexts])
        (Option.some.inj hfull)
      exact List.append_cancel_left htext
    · intro h
      have hcontent : file.content = recorded := h
      rw [hcontent]
      exact ⟨rfl, rfl, rfl⟩

variable [DecidableEq η]

/-- The fingerprints of a file are compared with those of an identity. -/
theorem contentFingerprintsMatch_answers (hidentity : Records hash policy recorded identity)
    (hhealthy : file.Healthy) (hlen : identity.len = file.content.length) :
    (identity.contentFingerprintsMatch hash file policy).Answers
      (decide (hash (file.content.take identity.bodyOffset) = identity.headerFingerprint ∧
        hash (samplesText file.content) = identity.sampleFingerprint ∧
          fullFingerprint hash policy file.content = identity.fullContentFingerprint)) := by
  have hoffset : identity.bodyOffset ≤ file.content.length - 0 :=
    hidentity.bodyOffset.trans_eq (hidentity.len.symm.trans hlen)
  refine (fingerprintRawRegion_answers hhealthy hoffset).bind ?_
  rw [List.drop_zero]
  by_cases hheader : hash (file.content.take identity.bodyOffset) = identity.headerFingerprint
  · rw [if_neg (not_not_intro hheader), hlen]
    refine (fingerprintSamples_answers hhealthy).bind ?_
    by_cases hsamples : hash (samplesText file.content) = identity.sampleFingerprint
    · rw [if_neg (not_not_intro hsamples)]
      have hfull := hidentity.full
      cases policy with
      | metadataAndSamples =>
        rw [fullFingerprint] at hfull
        simp only [hfull, hheader, hsamples, fullFingerprint, and_self, decide_true]
        exact .pure
      | strictFullContent =>
        rw [fullFingerprint] at hfull
        simp only [hfull, hheader, hsamples, fullFingerprint, true_and, Option.some.injEq]
        exact (fingerprintFullContent_answers hhealthy).bind .pure
    · rw [if_pos hsamples, decide_eq_false fun h => hsamples h.2.1]
      exact .pure
  · rw [if_pos hheader, decide_eq_false fun h => hheader h.1]
    exact .pure

/-- **A validation compares the metadata and the fingerprints.** -/
theorem validation_ends (hidentity : Records hash policy recorded identity)
    (hhealthy : file.Healthy) {metadata : Metadata} (hmetadata : ∀ n, file.metadata n = metadata)
    (hlen : metadata.len = file.content.length) :
    (identity.validation hash file policy).Ends
      (if identity.matchesMetadata metadata ∧
        hash (file.content.take identity.bodyOffset) = identity.headerFingerprint ∧
          hash (samplesText file.content) = identity.sampleFingerprint ∧
            fullFingerprint hash policy file.content = identity.fullContentFingerprint then .ok ()
      else .error generationMismatchError) := by
  have hstat := stat_answers hhealthy hmetadata
  refine .bind hstat (.ensure (fun hmatches => ?_) fun hmatches => if_neg fun h => hmatches h.1)
  have hcontent : identity.len = file.content.length := by
    exact ((FileIdentity.matchesMetadata_iff identity).mp hmatches).1.symm.trans hlen
  refine .bind (contentFingerprintsMatch_answers hidentity hhealthy hcontent)
    (.ensure (fun hagree => ?_) fun hagree => if_neg fun h => hagree (decide_eq_true h.2))
  rw [if_pos ⟨hmatches, of_decide_eq_true hagree⟩]
  have hsame : samePlatformIdentity metadata metadata := by
    simp [samePlatformIdentity]
  refine .bind hstat fun s => ?_
  rw [Action.ensure, if_pos ⟨hmatches, hsame⟩]
  rfl

/-- `validate_open_file` seeks to the body however the validation ends. -/
theorem validateOpenFile_eq (identity : FileIdentity η) (policy : FingerprintPolicy) (s : Handle) :
    identity.validateOpenFile hash file policy s =
      ((identity.validation hash file policy s).1.bind fun _ =>
        ((file.seek identity.bodyOffset (identity.validation hash file policy s).2).1.mapError
          VcdError.io).map fun _ => (),
        (file.seek identity.bodyOffset (identity.validation hash file policy s).2).2) := by
  unfold FileIdentity.validateOpenFile
  rw [Action.attempt_bind, Action.attempt_bind]
  generalize identity.validation hash file policy s = validated
  generalize file.seek identity.bodyOffset validated.2 = restored
  obtain ⟨validation, s₁⟩ := validated
  obtain ⟨restore, s₂⟩ := restored
  cases validation with
  | error e => rfl
  | ok u => cases restore <;> rfl

/-- Where no call fails, what the validation says stands, and the handle is at
the body. -/
theorem validateOpenFile_healthy (hhealthy : file.Healthy) (identity : FileIdentity η)
    (policy : FingerprintPolicy) (s : Handle) :
    ((identity.validateOpenFile hash file policy s).1 = .ok () ↔
        (identity.validation hash file policy s).1 = .ok ()) ∧
      (identity.validateOpenFile hash file policy s).2.cursor = identity.bodyOffset := by
  rw [validateOpenFile_eq, hhealthy.seek]
  refine ⟨?_, rfl⟩
  cases (identity.validation hash file policy s).1 with
  | error e => exact ⟨fun h => (by cases h), fun h => (by cases h)⟩
  | ok u => exact ⟨fun _ => rfl, fun _ => rfl⟩

end

end VcdTools.Opened
