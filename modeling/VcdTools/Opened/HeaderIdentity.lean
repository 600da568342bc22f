import VcdTools.Lib.Buffered
import VcdTools.Opened.Identity

/-! # The identity of a file that is opened

`read_header_bytes_from_file` of `header.rs` as it reads its file, and the
identity that `read_identified_compact_header` records; what `validate_open_file`
accepts of any file later. -/
namespace VcdTools.Opened
open VcdTools.Lib VcdTools.Lib.BufReader VcdTools.Header

/-- The capacity of `BufReader::new`. -/
def bufferCapacity : Nat := 8 * 1024

theorem bufferCapacity_pos : 0 < bufferCapacity := by simp [bufferCapacity]

variable {η : Type} (hash : List UInt8 → η) (file : OpenFile)

/-! ## Reading the header -/

/-- The loop of `read_header_bytes_from_file`. -/
def readHeaderFrom (headerBytes : List UInt8) : Action BufReader IoError (Option (List UInt8)) :=
  fun self =>
    match _hread : readUntil file bufferCapacity isLineFeed [] self with
    | (.error e, next) => (.error e, next)
    | (.ok line, next) =>
      if line = [] then (.ok none, next)
      else if containsMarker line then (.ok (some (headerBytes ++ line)), next)
      else readHeaderFrom (headerBytes ++ line) next
termination_by self => ahead file self
decreasing_by
  rename_i self hne _
  have hahead := readUntil_ahead _hread
  have hpos := List.length_pos_iff.mpr hne
  rw [List.length_nil] at hahead
  omega

/-- `read_header_bytes_from_file` behind its seek to the beginning; the error
`none` is a panic. -/
def readHeader : Action BufReader (Option VcdError) (List UInt8 × Nat) := do
  let found ← (readHeaderFrom file []).mapError fun e => some (.io e)
  match found with
  | none => Action.fail (some .missingEndDefinitions)
  | some headerBytes => do
    let bodyOffset ← (BufReader.streamPosition file).mapError (Option.map VcdError.io)
    let _ ← (BufReader.seek file bodyOffset).mapError fun e => some (.io e)
    return (headerBytes, bodyOffset)

/-- What is done with a new `BufReader` on a handle. -/
def withReader {ε α : Type} (x : Action BufReader ε α) : Action Handle ε α := fun s =>
  ((x ⟨[], s⟩).1, (x ⟨[], s⟩).2.handle)

/-- `read_header_bytes_from_file`. -/
def readHeaderBytesFromFile : Action Handle (Option VcdError) (List UInt8 × Nat) := do
  let _ ← (file.seek 0).mapError fun e => some (.io e)
  withReader (readHeader file)

/-- `read_identified_compact_header`, up to the identity. -/
def readIdentity (policy : FingerprintPolicy) :
    Action Handle (Option VcdError) (FileIdentity η) := do
  let metadataBeforeHeader ← file.stat.mapError fun e => some (.io e)
  let (headerBytes, bodyOffset) ← readHeaderBytesFromFile file
  let identity ← (fromOpenFile hash file headerBytes bodyOffset policy).mapError some
  Action.ensure (identity.matchesMetadata metadataBeforeHeader)
    (some (.io ⟨.other, "VCD changed while reading its header", false⟩))
  return identity

variable {hash file}

/-- What stands before a reader and the line that is read are what stands before
it then. -/
theorem line_prefix {headerBytes line : List UInt8} {self next : BufReader}
    (hat : At file headerBytes.length self) (hfirst : headerBytes <+: file.content)
    (hline : readUntil file bufferCapacity isLineFeed [] self = (.ok line, next)) (hne : line ≠ []) :
    splitInclusive isLineFeed (file.content.drop headerBytes.length) =
        line :: splitInclusive isLineFeed (file.content.drop (headerBytes ++ line).length) ∧
      headerBytes ++ line <+: file.content ∧ At file (headerBytes ++ line).length next := by
  obtain ⟨hbytes, hnext⟩ := hat.readUntil_ok bufferCapacity_pos hline
  rw [List.nil_append] at hbytes
  rw [← hbytes, ← List.length_append] at hnext
  have htext : file.content.drop headerBytes.length ≠ [] := by
    intro hnil
    rw [hnil] at hbytes
    exact hne hbytes
  obtain ⟨rest, hrest, hlines⟩ := splitInclusive_firstLine isLineFeed htext
  rw [← hbytes] at hrest hlines
  obtain ⟨tail, htail⟩ := hfirst
  have hdrop : file.content.drop (headerBytes ++ line).length = rest := by
    rw [List.length_append, ← List.drop_drop, hrest, List.drop_left]
  rw [hdrop]
  refine ⟨hlines, ⟨rest, ?_⟩, hnext⟩
  rw [List.append_assoc, ← hrest, ← htail, List.drop_left]

/-- **The loop reads the lines of the file** up to that of the marker. -/
theorem readHeaderFrom_ok {headerBytes : List UInt8} {found : Option (List UInt8)}
    {self self' : BufReader} (hat : At file headerBytes.length self)
    (hfirst : headerBytes <+: file.content)
    (hread : readHeaderFrom file headerBytes self = (.ok found, self')) :
    readHeaderLines headerBytes
        (splitInclusive isLineFeed (file.content.drop headerBytes.length)) = found ∧
      ∀ header ∈ found, header <+: file.content ∧ At file header.length self' := by
  fun_induction readHeaderFrom file headerBytes self with
  | case1 headerBytes self e next hline => cases hread
  | case2 headerBytes self next hline =>
    cases hread
    obtain ⟨hnil, -⟩ := hat.readUntil_ok bufferCapacity_pos hline
    rw [eq_nil_of_firstLine hnil.symm]
    exact ⟨rfl, fun header h => (by cases h)⟩
  | case3 headerBytes self line next hline hne hmarker =>
    cases hread
    obtain ⟨hlines, hheader, hnext⟩ := line_prefix hat hfirst hline hne
    rw [hlines, readHeaderLines, if_pos hmarker]
    exact ⟨rfl, fun header h => (by cases h; exact ⟨hheader, hnext⟩)⟩
  | case4 headerBytes self line next hline hne hmarker ih =>
    obtain ⟨hlines, hheader, hnext⟩ := line_prefix hat hfirst hline hne
    rw [hlines, readHeaderLines, if_neg hmarker]
    exact ih hnext hheader hread

/-- The loop comes to an end when no call fails. -/
theorem readHeaderFrom_total (hhealthy : file.Healthy) (headerBytes : List UInt8) (self : BufReader) :
    ∃ found next, readHeaderFrom file headerBytes self = (.ok found, next) := by
  fun_induction readHeaderFrom file headerBytes self with
  | case1 headerBytes self e next hline =>
    obtain ⟨bytes, r, hok⟩ := healthy_readUntil hhealthy isLineFeed [] self
    rw [hok] at hline
    cases hline
  | case2 headerBytes self next hline => exact ⟨_, _, rfl⟩
  | case3 headerBytes self line next hline hne hmarker => exact ⟨_, _, rfl⟩
  | case4 headerBytes self line next hline hne hmarker ih => exact ih

/-- **The header is what the file begins with**, split as its content is. -/
theorem readHeaderBytesFromFile_ok {headerBytes : List UInt8} {bodyOffset : Nat} {s s' : Handle}
    (h : readHeaderBytesFromFile file s = (.ok (headerBytes, bodyOffset), s')) :
    readHeaderBytes file.content = .ok (headerBytes, bodyOffset) ∧
      headerBytes = file.content.take bodyOffset := by
  obtain ⟨_, s₁, hseek, h⟩ := Action.bind_eq_ok.mp h
  obtain ⟨-, rfl⟩ := File.call_ok (Action.mapError_ok.mp hseek)
  have hstart : At file ([] : List UInt8).length ⟨[], ⟨0, s.calls + 1⟩⟩ := ⟨List.nil_prefix, rfl⟩
  have hread : withReader (readHeader file) ⟨0, s.calls + 1⟩ = (.ok (headerBytes, bodyOffset), s') := h
  rcases hreader : readHeader file ⟨[], ⟨0, s.calls + 1⟩⟩ with ⟨result, r⟩
  rw [withReader, hreader] at hread
  cases hread
  obtain ⟨found, r₁, hfound, hrest⟩ := Action.bind_eq_ok.mp hreader
  obtain ⟨hlines, hheader⟩ := readHeaderFrom_ok hstart List.nil_prefix (Action.mapError_ok.mp hfound)
  cases found with
  | none => cases hrest
  | some header =>
    obtain ⟨offset, r₂, hposition, hrest⟩ := Action.bind_eq_ok.mp hrest
    obtain ⟨_, r₃, _, hrest⟩ := Action.bind_eq_ok.mp hrest
    obtain ⟨hfirst, hat⟩ := hheader header rfl
    have hoffset : offset = header.length := by
      have hstream := Action.mapError_ok.mp hposition
      obtain ⟨e, r, herror, -⟩ | ⟨r, hok, -⟩ := hat.streamPosition
      · rw [herror] at hstream
        cases hstream
      · rw [hok] at hstream
        cases hstream
        rfl
    cases hrest
    rw [hoffset]
    refine ⟨?_, List.prefix_iff_eq_take.mp hfirst⟩
    rw [readHeaderBytes]
    rw [List.length_nil, List.drop_zero] at hlines
    rw [hlines]

/-- The header of a file is read when no call fails. -/
theorem readHeaderBytesFromFile_total (hhealthy : file.Healthy) {headerBytes : List UInt8}
    {bodyOffset : Nat} (hsplit : readHeaderBytes file.content = .ok (headerBytes, bodyOffset))
    (s : Handle) : ∃ s', readHeaderBytesFromFile file s = (.ok (headerBytes, bodyOffset), s') := by
  have hstart : At file ([] : List UInt8).length ⟨[], ⟨0, s.calls + 1⟩⟩ := ⟨List.nil_prefix, rfl⟩
  obtain ⟨found, r₁, hfound⟩ := readHeaderFrom_total hhealthy [] ⟨[], ⟨0, s.calls + 1⟩⟩
  obtain ⟨hlines, hheader⟩ := readHeaderFrom_ok hstart List.nil_prefix hfound
  rw [readHeaderBytes] at hsplit
  rw [List.length_nil, List.drop_zero] at hlines
  rw [hlines] at hsplit
  cases found with
  | none => cases hsplit
  | some header =>
    cases hsplit
    obtain ⟨r₂, hposition⟩ := (hheader headerBytes rfl).2.healthy_streamPosition hhealthy
    obtain ⟨r₃, hseek⟩ := healthy_seek hhealthy headerBytes.length r₂
    have hread : readHeader file ⟨[], ⟨0, s.calls + 1⟩⟩ =
        (.ok (headerBytes, headerBytes.length), r₃) := by
      rw [readHeader, Action.bind_ok (Action.mapError_ok.mpr hfound)]
      dsimp only
      rw [Action.bind_ok (Action.mapError_ok.mpr hposition),
        Action.bind_ok (Action.mapError_ok.mpr hseek)]
      rfl
    refine ⟨r₃.handle, ?_⟩
    rw [readHeaderBytesFromFile, Action.bind_ok (Action.mapError_ok.mpr (hhealthy.seek 0 s))]
    show withReader (readHeader file) ⟨0, s.calls + 1⟩ = _
    rw [withReader, hread]

/-! ## Recording and validating -/

variable {policy : FingerprintPolicy} {identity : FileIdentity η}

/-- **An identity that is recorded of a file records its content.** -/
theorem readIdentity_records (hsized : Sized file) {s s' : Handle}
    (h : readIdentity hash file policy s = (.ok identity, s')) :
    Records hash policy file.content identity := by
  obtain ⟨metadata, s₁, _, h⟩ := Action.bind_eq_ok.mp h
  obtain ⟨⟨headerBytes, bodyOffset⟩, s₂, hheader, h⟩ := Action.bind_eq_ok.mp h
  obtain ⟨identity', s₃, hidentity, h⟩ := Action.bind_eq_ok.mp h
  obtain ⟨_, s₄, _, h⟩ := Action.bind_eq_ok.mp h
  cases h
  exact fromOpenFile_records hsized (readHeaderBytesFromFile_ok hheader).2
    (Action.mapError_ok.mp hidentity)

/-- An identity is recorded of a file with a header that stays as it is. -/
theorem readIdentity_total (hhealthy : file.Healthy) {metadata : Metadata}
    (hmetadata : ∀ n, file.metadata n = metadata) (hlen : metadata.len = file.content.length)
    {headerBytes : List UInt8} {bodyOffset : Nat}
    (hsplit : readHeaderBytes file.content = .ok (headerBytes, bodyOffset)) (s : Handle) :
    ∃ identity s', readIdentity hash file policy s = (.ok identity, s') ∧
      identity.bodyOffset = bodyOffset ∧ identity.matchesMetadata metadata := by
  obtain ⟨s₂, hheader⟩ := readHeaderBytesFromFile_total hhealthy hsplit ⟨s.cursor, s.calls + 1⟩
  have hoffset : bodyOffset ≤ file.content.length := by
    have htake := (readHeaderBytesFromFile_ok hheader).2
    have hbytes : headerBytes.length = bodyOffset := by
      rw [readHeaderBytes] at hsplit
      split at hsplit
      · cases hsplit
        rfl
      · cases hsplit
    have hlength := congrArg List.length htake
    rw [List.length_take] at hlength
    omega
  have hanswers : (fromOpenFile hash file headerBytes bodyOffset policy).Answers _ :=
    fromOpenFile_answers hhealthy hmetadata hlen headerBytes hoffset policy
  obtain ⟨identity, s₃, hidentity⟩ := hanswers.total s₂
  have hmatches : identity.matchesMetadata metadata := by
    rw [hanswers.only _ _ _ hidentity]
    exact (FileIdentity.matchesMetadata_iff _).mpr ⟨rfl, rfl, rfl, rfl⟩
  refine ⟨identity, s₃, ?_, ?_, hmatches⟩
  · rw [readIdentity, Action.bind_ok (Action.mapError_ok.mpr (hhealthy.stat s)),
      Action.bind_ok hheader]
    dsimp only
    rw [Action.bind_ok (Action.mapError_ok.mpr hidentity), hmetadata,
      Action.bind_ok ((Action.ensure_ok (u := ())).mpr ⟨hmatches, rfl⟩)]
    rfl
  · rw [hanswers.only _ _ _ hidentity]

variable [DecidableEq η]

/-- **What a validation accepts.** A file that stays as it is while it is
validated, on a system that fails no call, is accepted exactly when its metadata
are the recorded ones and what the fingerprints cover is what was recorded; its
handle is at the body in either case. -/
theorem validate_open_file_iff {recorded : OpenFile} (hsized : Sized recorded) {s s' : Handle}
    (hrecorded : readIdentity hash recorded policy s = (.ok identity, s'))
    (hhealthy : file.Healthy) {metadata : Metadata} (hmetadata : ∀ n, file.metadata n = metadata)
    (hlen : metadata.len = file.content.length)
    (hcollision : CollisionFree hash policy identity.bodyOffset recorded.content file.content)
    (handle : Handle) :
    ((identity.validateOpenFile hash file policy handle).1 = .ok () ↔
        (metadata.len = identity.len ∧ metadata.modified = identity.modified ∧
          metadata.device = identity.device ∧ metadata.inode = identity.inode) ∧
        Unchanged policy identity.bodyOffset recorded.content file.content) ∧
      (identity.validateOpenFile hash file policy handle).2.cursor = identity.bodyOffset := by
  have hidentity := readIdentity_records hsized hrecorded
  obtain ⟨hvalidation, hcursor⟩ := validateOpenFile_healthy hhealthy identity policy handle
  refine ⟨?_, hcursor⟩
  rw [hvalidation, validation_ends hidentity hhealthy hmetadata hlen, ite_eq_left_iff,
    ← FileIdentity.matchesMetadata_iff]
  have hcontent : identity.matchesMetadata metadata → identity.len = file.content.length :=
    fun hmatches => ((FileIdentity.matchesMetadata_iff identity).mp hmatches).1.symm.trans hlen
  constructor
  · intro haccepted
    obtain ⟨hmatches, hagree⟩ := not_not.mp fun hnot => nomatch haccepted hnot
    exact ⟨hmatches, (fingerprints_iff hidentity hcollision (hcontent hmatches)).mp hagree⟩
  · intro ⟨hmatches, hunchanged⟩ hnot
    exact absurd ⟨hmatches, (fingerprints_iff hidentity hcollision (hcontent hmatches)).mpr hunchanged⟩
      hnot

/-- A file that stays as it is; each read gives one byte more than the call before. -/
def stillFile (content : List UInt8) : OpenFile where
  content := content
  fails _ := none
  counts n := n
  metadata _ := ⟨content.length, some 0, 0, 0⟩

/-- A header, and a body of one timestamp. -/
def stampedBytes (digit : String) : List UInt8 := ascii ("$enddefinitions $end\n#" ++ digit)

/-- An identity accepts its own file, and not one with another timestamp. -/
theorem validate_open_file_iff_stamped : ∃ identity s',
    readIdentity id (stillFile (stampedBytes "0")) .metadataAndSamples ⟨0, 0⟩ =
        (.ok identity, s') ∧
      (identity.validateOpenFile id (stillFile (stampedBytes "0")) .metadataAndSamples ⟨0, 0⟩).1 =
        .ok () ∧
      (identity.validateOpenFile id (stillFile (stampedBytes "1")) .metadataAndSamples ⟨0, 0⟩).1 ≠
        .ok () := by
  have hhealthy : ∀ content, (stillFile content).Healthy := fun _ _ => rfl
  have hsized : ∀ content, Sized (stillFile content) := fun _ _ => rfl
  have hsplit : readHeaderBytes (stampedBytes "0") = .ok (ascii "$enddefinitions $end\n", 21) := rfl
  obtain ⟨identity, s', hrecorded, -, hmatches⟩ : ∃ identity s',
      readIdentity id (stillFile (stampedBytes "0")) .metadataAndSamples ⟨0, 0⟩ =
        (.ok identity, s') ∧ _ ∧ _ :=
    readIdentity_total (hhealthy (stampedBytes "0")) (fun _ => rfl) rfl hsplit ⟨0, 0⟩
  have hmetadata := (FileIdentity.matchesMetadata_iff identity).mp hmatches
  have haccepts := fun digit => validate_open_file_iff (hsized _) hrecorded
    (hhealthy (stampedBytes digit)) (fun _ => rfl) rfl (fun _ _ _ _ h => h) ⟨0, 0⟩
  refine ⟨identity, s', hrecorded, ?_, fun haccepted => ?_⟩
  · exact (haccepts "0").1.mpr ⟨hmetadata, rfl, rfl, rfl⟩
  · have hsample := ((haccepts "1").1.mp haccepted).2.2.1
    revert hsample
    decide

end VcdTools.Opened
