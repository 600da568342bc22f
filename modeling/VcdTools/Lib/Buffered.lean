import VcdTools.Lib.Handle
import VcdTools.Lib.Words

/-! # Buffered reading

`std::io::BufReader` on a handle: the bytes that are read ahead, and the handle.
A reader is at a position when what it holds are the bytes of the file from there
up to the cursor; then it delivers the file from there on, however it is used. -/
namespace VcdTools.Lib

structure BufReader where
  buffer : List UInt8
  handle : Handle
  deriving DecidableEq, Repr

namespace BufReader
variable {ε μ α : Type} (file : File ε μ) (capacity : Nat)

/-- What is done through `get_mut`. -/
def onHandle (x : Action Handle ε α) : Action BufReader ε α :=
  x.zoom handle fun h self => { self with handle := h }

/-- `fill_buf`. -/
def fillBuf : Action BufReader ε (List UInt8) := fun self =>
  if self.buffer = [] then
    match file.read capacity self.handle with
    | (.ok bytes, h) => (.ok bytes, ⟨bytes, h⟩)
    | (.error e, h) => (.error e, ⟨[], h⟩)
  else (.ok self.buffer, self)

/-- `consume`. -/
def consume (self : BufReader) (amount : Nat) : BufReader := { self with buffer := self.buffer.drop amount }

/-- `read`; a large read into an empty buffer passes it by. -/
def read (requested : Nat) : Action BufReader ε (List UInt8) := fun self =>
  if self.buffer = [] ∧ capacity ≤ requested then
    ((file.read requested self.handle).1, ⟨[], (file.read requested self.handle).2⟩)
  else match fillBuf file capacity self with
    | (.ok available, self) => (.ok (available.take requested), self.consume requested)
    | (.error e, self) => (.error e, self)

/-- `seek(SeekFrom::Start(position))`: the buffer is given up once the handle is
there. -/
def seek (position : Nat) : Action BufReader ε Nat := fun self =>
  match file.seek position self.handle with
  | (.ok p, h) => (.ok p, ⟨[], h⟩)
  | (.error e, h) => (.error e, ⟨self.buffer, h⟩)

/-- `stream_position`; the error `none` is a panic. -/
def streamPosition : Action BufReader (Option ε) Nat := fun self =>
  match file.streamPosition self.handle with
  | (.ok p, h) =>
    if self.buffer.length ≤ p then (.ok (p - self.buffer.length), ⟨self.buffer, h⟩)
    else (.error none, ⟨self.buffer, h⟩)
  | (.error e, h) => (.error (some e), ⟨self.buffer, h⟩)

/-! ## The position of a reader -/

/-- **A reader is at a position** of the file. -/
structure At (file : File ε μ) (position : Nat) (reader : BufReader) : Prop where
  buffered : reader.buffer <+: file.content.drop position
  cursor : reader.handle.cursor = position + reader.buffer.length

variable {file capacity} {position : Nat} {self self' : BufReader}

theorem At.of_empty (h : self.buffer = []) : At file self.handle.cursor self where
  buffered := h ▸ List.nil_prefix
  cursor := by rw [h]; rfl

/-- What is read ahead is what the file has next. -/
theorem At.fillBuf_ok (h : At file position self) (hcapacity : 0 < capacity) {bytes : List UInt8}
    (hfill : fillBuf file capacity self = (.ok bytes, self')) :
    At file position self' ∧ self'.buffer = bytes ∧
      (bytes = [] → file.content.drop position = []) := by
  unfold fillBuf at hfill
  split at hfill
  · rename_i hempty
    have hcursor := h.cursor
    rw [hempty, List.length_nil, Nat.add_zero] at hcursor
    split at hfill
    · rename_i chunk h₁ hread
      cases hfill
      obtain ⟨hchunk, rfl⟩ := File.read_ok hread
      refine ⟨⟨?_, by dsimp only; rw [hcursor]⟩, rfl, fun hnil => ?_⟩
      · rw [hchunk, ← hcursor]
        exact List.take_prefix _ _
      · have hend := (File.chunk_eq_nil hcapacity).mp (hchunk.symm.trans hnil)
        exact List.drop_of_length_le (hcursor ▸ hend)
    · cases hfill
  · rename_i hne
    cases hfill
    exact ⟨h, rfl, fun hnil => absurd hnil hne⟩

theorem At.fillBuf_error (h : At file position self) {e : ε}
    (hfill : fillBuf file capacity self = (.error e, self')) : At file position self' := by
  unfold fillBuf at hfill
  split at hfill
  · rename_i hempty
    split at hfill
    · cases hfill
    · rename_i e h₁ hread
      cases hfill
      have hcursor := h.cursor
      rw [hempty] at hcursor
      exact ⟨List.nil_prefix, (File.call_error hread).trans hcursor⟩
  · cases hfill

/-- What is consumed moves the position. -/
theorem At.consume (h : At file position self) (amount : Nat) :
    At file (position + (self.buffer.take amount).length) (self.consume amount) := by
  obtain ⟨rest, hrest⟩ := h.buffered
  refine ⟨⟨rest, ?_⟩, ?_⟩
  · have htaken : self.buffer = self.buffer.take amount ++ self.buffer.drop amount :=
      (List.take_append_drop ..).symm
    rw [htaken, List.append_assoc] at hrest
    rw [← List.drop_drop, ← hrest, List.drop_left]
    rfl
  · rw [BufReader.consume, h.cursor, List.length_take, List.length_drop]
    omega

/-- **A read delivers what the file has at the position.** -/
theorem At.read_ok (h : At file position self) (hcapacity : 0 < capacity) {requested : Nat}
    {bytes : List UInt8} (hread : read file capacity requested self = (.ok bytes, self')) :
    bytes <+: file.content.drop position ∧ At file (position + bytes.length) self' ∧
      (0 < requested → bytes = [] → file.content.drop position = []) := by
  unfold read at hread
  split at hread
  · rename_i hlarge
    obtain ⟨hempty, -⟩ := hlarge
    have hcursor := h.cursor
    rw [hempty, List.length_nil, Nat.add_zero] at hcursor
    rcases hcall : file.read requested self.handle with ⟨result, s⟩
    rw [hcall] at hread
    cases hread
    obtain ⟨hchunk, rfl⟩ := File.read_ok hcall
    refine ⟨?_, ⟨List.nil_prefix, by dsimp only; rw [hcursor]; rfl⟩, fun hrequested hnil => ?_⟩
    · rw [hchunk, ← hcursor]
      exact List.take_prefix _ _
    · have hend := (File.chunk_eq_nil hrequested).mp (hchunk.symm.trans hnil)
      exact List.drop_of_length_le (hcursor ▸ hend)
  · split at hread
    · rename_i available filled hfill
      cases hread
      obtain ⟨hat, hbuffer, hend⟩ := h.fillBuf_ok hcapacity hfill
      have hmoved := hat.consume requested
      rw [hbuffer] at hmoved
      refine ⟨?_, hmoved, fun hrequested hnil => hend ?_⟩
      · exact (List.take_prefix _ _).trans (hbuffer ▸ hat.buffered)
      · obtain hzero | hnil := List.take_eq_nil_iff.mp hnil
        · omega
        · exact hnil
    · cases hread

theorem At.read_error (h : At file position self) {requested : Nat} {e : ε}
    (hread : read file capacity requested self = (.error e, self')) : At file position self' := by
  unfold read at hread
  split at hread
  · rename_i hlarge
    obtain ⟨hempty, -⟩ := hlarge
    have hcursor := h.cursor
    rw [hempty] at hcursor
    rcases hcall : file.read requested self.handle with ⟨result, s⟩
    rw [hcall] at hread
    cases hread
    exact ⟨List.nil_prefix, (File.call_error hcall).trans hcursor⟩
  · split at hread
    · cases hread
    · rename_i hfill
      cases hread
      exact h.fillBuf_error hfill

/-- A seek that succeeds puts the reader at its position, wherever it was. -/
theorem seek_ok {p : Nat} (hseek : seek file position self = (.ok p, self')) :
    At file position self' := by
  unfold seek at hseek
  split at hseek
  · rename_i p' h₁ hcall
    cases hseek
    obtain ⟨-, rfl⟩ := File.call_ok hcall
    exact ⟨List.nil_prefix, rfl⟩
  · cases hseek

/-- A seek that fails leaves the reader where it is. -/
theorem At.seek_error (h : At file position self) {p : Nat} {e : ε}
    (hseek : seek file p self = (.error e, self')) : At file position self' := by
  unfold seek at hseek
  split at hseek
  · cases hseek
  · rename_i hcall
    cases hseek
    exact ⟨h.buffered, (File.call_error hcall).trans h.cursor⟩

/-- `stream_position` of a reader tells its position, and does not panic. -/
theorem At.streamPosition (h : At file position self) :
    (∃ e self', streamPosition file self = (.error (some e), self') ∧ At file position self') ∨
      ∃ self', streamPosition file self = (.ok position, self') ∧ At file position self' := by
  have hmoved : ∀ s : Handle, s.cursor = self.handle.cursor →
      At file position ⟨self.buffer, s⟩ := fun s hs => ⟨h.buffered, hs.trans h.cursor⟩
  unfold BufReader.streamPosition
  rcases hcall : file.streamPosition self.handle with ⟨result, s⟩
  cases result with
  | error e => exact .inl ⟨e, _, rfl, hmoved s (File.call_error hcall)⟩
  | ok p =>
    obtain ⟨rfl, rfl⟩ := File.call_ok hcall
    have hcursor := h.cursor
    have hle : self.buffer.length ≤ self.handle.cursor := by omega
    have hposition : self.handle.cursor - self.buffer.length = position := by omega
    refine .inr ⟨⟨self.buffer, ⟨self.handle.cursor, self.handle.calls + 1⟩⟩, ?_, hmoved _ rfl⟩
    dsimp only
    rw [if_pos hle, hposition]

theorem streamPosition_buffer {p : Nat}
    (hposition : BufReader.streamPosition file self = (.ok p, self')) :
    self'.buffer = self.buffer := by
  unfold BufReader.streamPosition at hposition
  split at hposition
  · split at hposition
    · cases hposition
      rfl
    · cases hposition
  · cases hposition

/-! ## Runs of reads -/

/-- The ways a reader is read. -/
inductive Use
  | read (requested : Nat)
  | fillBuf
  | consume (amount : Nat)

/-- The bytes that a use delivers; one that fails delivers none. -/
def deliver (file : File ε μ) (capacity : Nat) (self : BufReader) : Use → List UInt8 × BufReader
  | .read requested =>
    match read file capacity requested self with
    | (.ok bytes, self) => (bytes, self)
    | (.error _, self) => ([], self)
  | .fillBuf => ([], (fillBuf file capacity self).2)
  | .consume amount => (self.buffer.take amount, self.consume amount)

/-- The bytes that uses deliver, one after the other. -/
def deliverAll (file : File ε μ) (capacity : Nat) (self : BufReader) :
    List Use → List UInt8 × BufReader
  | [] => ([], self)
  | use :: uses =>
    let (bytes, next) := deliver file capacity self use
    let (more, last) := deliverAll file capacity next uses
    (bytes ++ more, last)

/-- **A use delivers the next bytes** and moves the position past them. -/
theorem At.deliver (h : At file position self) (hcapacity : 0 < capacity) (use : Use) :
    (deliver file capacity self use).1 <+: file.content.drop position ∧
      At file (position + (deliver file capacity self use).1.length)
        (deliver file capacity self use).2 := by
  cases use with
  | read requested =>
    rcases hread : BufReader.read file capacity requested self with ⟨result, next⟩
    rw [BufReader.deliver, hread]
    cases result with
    | error e => exact ⟨List.nil_prefix, h.read_error hread⟩
    | ok bytes =>
      obtain ⟨hbytes, hat, -⟩ := h.read_ok hcapacity hread
      exact ⟨hbytes, hat⟩
  | fillBuf =>
    rcases hfill : BufReader.fillBuf file capacity self with ⟨result, next⟩
    rw [BufReader.deliver, hfill]
    cases result with
    | error e => exact ⟨List.nil_prefix, h.fillBuf_error hfill⟩
    | ok bytes => exact ⟨List.nil_prefix, (h.fillBuf_ok hcapacity hfill).1⟩
  | consume amount => exact ⟨(List.take_prefix _ _).trans h.buffered, h.consume amount⟩

/-- **Uses deliver the bytes of the file from the position on**, each once and in
their order. -/
theorem At.deliverAll (h : At file position self) (hcapacity : 0 < capacity) (uses : List Use) :
    (deliverAll file capacity self uses).1 <+: file.content.drop position ∧
      At file (position + (deliverAll file capacity self uses).1.length)
        (deliverAll file capacity self uses).2 := by
  induction uses generalizing position self with
  | nil => exact ⟨List.nil_prefix, h⟩
  | cons use uses ih =>
    obtain ⟨hfirst, hnext⟩ := h.deliver hcapacity use
    obtain ⟨hmore, hlast⟩ := ih hnext
    obtain ⟨rest, hrest⟩ := hfirst
    rw [← List.drop_drop, ← hrest, List.drop_left] at hmore
    rw [BufReader.deliverAll]
    dsimp only
    rw [List.length_append, ← Nat.add_assoc, ← hrest]
    exact ⟨(List.prefix_append_right_inj _).mpr hmore, hlast⟩

/-- **A reader delivers the file from a position on**, however it is used: what it
delivers and what it shows are the next bytes, and it shows or reads nothing only
when all were delivered. -/
structure Delivers (file : File ε μ) (capacity position : Nat) (reader : BufReader) : Prop where
  bytes : ∀ uses, (deliverAll file capacity reader uses).1 <+: file.content.drop position
  shown : ∀ uses available next,
    fillBuf file capacity (deliverAll file capacity reader uses).2 = (.ok available, next) →
      (deliverAll file capacity reader uses).1 ++ available <+: file.content.drop position ∧
        (available = [] → (deliverAll file capacity reader uses).1 = file.content.drop position)
  ends : ∀ uses requested next, 0 < requested →
    read file capacity requested (deliverAll file capacity reader uses).2 = (.ok [], next) →
      (deliverAll file capacity reader uses).1 = file.content.drop position

/-- **A reader at a position delivers the file from there on.** -/
theorem At.delivers (h : At file position self) (hcapacity : 0 < capacity) :
    Delivers file capacity position self := by
  have hrest : ∀ uses, (BufReader.deliverAll file capacity self uses).1 ++
      file.content.drop (position + (BufReader.deliverAll file capacity self uses).1.length) =
        file.content.drop position := by
    intro uses
    obtain ⟨rest, hrest⟩ := (h.deliverAll hcapacity uses).1
    rw [← List.drop_drop, ← hrest, List.drop_left]
  have hall : ∀ uses, file.content.drop
      (position + (BufReader.deliverAll file capacity self uses).1.length) = [] →
        (BufReader.deliverAll file capacity self uses).1 = file.content.drop position := by
    intro uses hnil
    rw [← hrest uses, hnil, List.append_nil]
  refine ⟨fun uses => (h.deliverAll hcapacity uses).1, fun uses available next hfill => ?_,
    fun uses requested next hrequested hread => ?_⟩
  · obtain ⟨hat, rfl, hend⟩ := (h.deliverAll hcapacity uses).2.fillBuf_ok hcapacity hfill
    rw [← hrest uses]
    refine ⟨(List.prefix_append_right_inj _).mpr hat.buffered, fun hnil => ?_⟩
    rw [hend hnil, List.append_nil]
  · exact hall uses (((h.deliverAll hcapacity uses).2.read_ok hcapacity hread).2.2 hrequested rfl)

/-! ## Readers that read alike -/

/-- Two readers that cannot be told apart by reading: one of the handles may be
further behind the end of the file than the other. -/
structure Alike (file : File ε μ) (a b : BufReader) : Prop where
  buffer : a.buffer = b.buffer
  calls : a.handle.calls = b.handle.calls
  rest : file.content.drop a.handle.cursor = file.content.drop b.handle.cursor

section Alike
variable (capacity) {a b : BufReader} (h : Alike file a b)
include h

/-- The calls that read give the same, and leave handles with the same bytes before them. -/
theorem Alike.call (requested : Nat) :
    (file.read requested a.handle).1 = (file.read requested b.handle).1 ∧
      (file.read requested a.handle).2.calls = (file.read requested b.handle).2.calls ∧
      file.content.drop (file.read requested a.handle).2.cursor =
        file.content.drop (file.read requested b.handle).2.cursor := by
  have hchunk : file.chunk requested a.handle = file.chunk requested b.handle := by
    rw [File.chunk, File.chunk, h.rest, h.calls]
  unfold File.read File.call
  rw [← h.calls]
  cases file.fails a.handle.calls with
  | some e => exact ⟨rfl, rfl, h.rest⟩
  | none =>
    refine ⟨congrArg Except.ok hchunk, rfl, ?_⟩
    dsimp only
    rw [hchunk, ← List.drop_drop, ← List.drop_drop, h.rest]

theorem Alike.fillBuf : (fillBuf file capacity a).1 = (fillBuf file capacity b).1 ∧
    Alike file (fillBuf file capacity a).2 (fillBuf file capacity b).2 := by
  obtain ⟨hresult, hcalls, hrest⟩ := h.call capacity
  unfold BufReader.fillBuf
  rw [← h.buffer]
  split
  · rcases hone : file.read capacity a.handle with ⟨result, s⟩
    rcases htwo : file.read capacity b.handle with ⟨result', s'⟩
    rw [hone, htwo] at hresult hcalls hrest
    cases hresult
    cases result with
    | error e => exact ⟨rfl, rfl, hcalls, hrest⟩
    | ok bytes => exact ⟨rfl, rfl, hcalls, hrest⟩
  · exact ⟨rfl, h⟩

theorem Alike.consume (amount : Nat) : Alike file (a.consume amount) (b.consume amount) :=
  ⟨congrArg (List.drop amount) h.buffer, h.calls, h.rest⟩

theorem Alike.read (requested : Nat) :
    (read file capacity requested a).1 = (read file capacity requested b).1 ∧
      Alike file (read file capacity requested a).2 (read file capacity requested b).2 := by
  unfold BufReader.read
  rw [← h.buffer]
  split
  · obtain ⟨hresult, hcalls, hrest⟩ := h.call requested
    exact ⟨hresult, rfl, hcalls, hrest⟩
  · obtain ⟨hresult, hlike⟩ := h.fillBuf capacity
    rcases hone : BufReader.fillBuf file capacity a with ⟨result, next⟩
    rcases htwo : BufReader.fillBuf file capacity b with ⟨result', next'⟩
    rw [hone, htwo] at hresult hlike
    cases hresult
    cases result with
    | error e => exact ⟨rfl, hlike⟩
    | ok bytes => exact ⟨rfl, hlike.consume requested⟩

theorem Alike.deliver (use : Use) :
    (deliver file capacity a use).1 = (deliver file capacity b use).1 ∧
      Alike file (deliver file capacity a use).2 (deliver file capacity b use).2 := by
  cases use with
  | read requested =>
    obtain ⟨hresult, hlike⟩ := h.read capacity requested
    simp only [BufReader.deliver]
    rcases hone : BufReader.read file capacity requested a with ⟨result, next⟩
    rcases htwo : BufReader.read file capacity requested b with ⟨result', next'⟩
    rw [hone, htwo] at hresult hlike
    cases hresult
    cases result with
    | error e => exact ⟨rfl, hlike⟩
    | ok bytes => exact ⟨rfl, hlike⟩
  | fillBuf => exact ⟨rfl, (h.fillBuf capacity).2⟩
  | consume amount => exact ⟨congrArg (List.take amount) h.buffer, h.consume amount⟩

theorem Alike.deliverAll (uses : List Use) :
    (deliverAll file capacity a uses).1 = (deliverAll file capacity b uses).1 ∧
      Alike file (deliverAll file capacity a uses).2 (deliverAll file capacity b uses).2 := by
  induction uses generalizing a b with
  | nil => exact ⟨rfl, h⟩
  | cons use uses ih =>
    obtain ⟨hfirst, hnext⟩ := h.deliver capacity use
    obtain ⟨hmore, hlast⟩ := ih hnext
    rw [BufReader.deliverAll, BufReader.deliverAll]
    exact ⟨congrArg₂ _ hfirst hmore, hlast⟩

/-- Readers that read alike deliver the same. -/
theorem Alike.delivers (hdelivers : Delivers file capacity position a) :
    Delivers file capacity position b := by
  refine ⟨fun uses => ?_, fun uses available next hfill => ?_,
    fun uses requested next hrequested hread => ?_⟩
  · rw [← (h.deliverAll capacity uses).1]
    exact hdelivers.bytes uses
  · obtain ⟨hbytes, hlike⟩ := h.deliverAll capacity uses
    obtain ⟨hresult, -⟩ := hlike.fillBuf capacity
    rw [← hbytes]
    refine hdelivers.shown uses available
      (BufReader.fillBuf file capacity (BufReader.deliverAll file capacity a uses).2).2 ?_
    exact Prod.ext (hresult.trans (by rw [hfill])) rfl
  · obtain ⟨hbytes, hlike⟩ := h.deliverAll capacity uses
    obtain ⟨hresult, -⟩ := hlike.read capacity requested
    rw [← hbytes]
    refine hdelivers.ends uses requested
      (BufReader.read file capacity requested (BufReader.deliverAll file capacity a uses).2).2
      hrequested ?_
    exact Prod.ext (hresult.trans (by rw [hread])) rfl

end Alike

/-- The reader delivers the file from a position on, whatever later calls do. -/
def Undisturbed (file : File ε μ) (capacity position : Nat) (reader : BufReader) : Prop :=
  ∀ file' : File ε μ, file'.content = file.content → Delivers file' capacity position reader

/-- The file with calls that all succeed and reads that give all they are asked for. -/
def generous (file : File ε μ) : File ε μ :=
  { file with fails := fun _ => none, counts := fun _ => file.content.length }

/-- A large read takes all there is before the handle of an empty reader. -/
theorem read_generous {requested : Nat} (hempty : self.buffer = [])
    (hlarge : capacity + file.content.length ≤ requested) :
    read (generous file) capacity requested self =
      (.ok (file.content.drop self.handle.cursor),
        ⟨[], ⟨self.handle.cursor + (file.content.drop self.handle.cursor).length,
          self.handle.calls + 1⟩⟩) := by
  have hhealthy : (generous file).Healthy := fun _ => rfl
  have hchunk : (generous file).chunk requested self.handle =
      file.content.drop self.handle.cursor := by
    unfold File.chunk generous
    refine List.take_of_length_le ?_
    rw [List.length_drop]
    dsimp only
    omega
  rw [BufReader.read, if_pos ⟨hempty, by omega⟩, hhealthy.read, hchunk]

/-- What a reader delivers by and by: what it holds, and what is before its handle. -/
theorem Delivers.all (h : Delivers (generous file) capacity position self) :
    self.buffer ++ file.content.drop self.handle.cursor = file.content.drop position := by
  let rest := file.content.drop self.handle.cursor
  let last : BufReader := ⟨[], ⟨self.handle.cursor + rest.length, self.handle.calls + 1⟩⟩
  have hlarge : capacity + file.content.length ≤ capacity + file.content.length + 1 := Nat.le_succ _
  have huses : deliverAll (generous file) capacity self
      [.consume self.buffer.length, .read (capacity + file.content.length + 1)] =
        (self.buffer ++ rest, last) := by
    have hread : read (generous file) capacity (capacity + file.content.length + 1)
        (self.consume self.buffer.length) = (.ok rest, last) :=
      read_generous List.drop_length hlarge
    simp only [BufReader.deliverAll, BufReader.deliver, List.take_length, hread, List.append_nil]
  have hend : file.content.drop last.handle.cursor = [] := by
    dsimp only [last, rest]
    rw [← List.drop_drop, List.drop_length]
  have hread : read (generous file) capacity (capacity + file.content.length + 1) last =
      (.ok [], ⟨[], ⟨last.handle.cursor + 0, last.handle.calls + 1⟩⟩) := by
    rw [read_generous rfl hlarge, hend]
    rfl
  have hall := h.ends _ _ _ (Nat.succ_pos _)
    ((congrArg (fun used => read (generous file) capacity _ used.2) huses).trans hread)
  rwa [huses] at hall

/-- **A reader delivers the file from a position on**, whatever later calls do,
exactly when it holds the next bytes and has the bytes behind them before it. -/
theorem undisturbed_iff (hcapacity : 0 < capacity) :
    Undisturbed file capacity position self ↔ self.buffer <+: file.content.drop position ∧
      file.content.drop self.handle.cursor =
        file.content.drop (position + self.buffer.length) := by
  constructor
  · intro h
    have hgenerous := h (generous file) rfl
    have hbuffered : self.buffer <+: file.content.drop position := by
      have hbytes := hgenerous.bytes [.consume self.buffer.length]
      simp only [BufReader.deliverAll, BufReader.deliver, List.take_length, List.append_nil]
        at hbytes
      exact hbytes
    refine ⟨hbuffered, List.append_cancel_left (hgenerous.all.trans ?_)⟩
    obtain ⟨rest, hrest⟩ := hbuffered
    rw [← List.drop_drop, ← hrest, List.drop_left]
  · rintro ⟨hbuffered, hrest⟩ file' hcontent
    have hat : At file' position
        ⟨self.buffer, ⟨position + self.buffer.length, self.handle.calls⟩⟩ :=
      ⟨by rw [hcontent]; exact hbuffered, rfl⟩
    have hlike : Alike file' ⟨self.buffer, ⟨position + self.buffer.length, self.handle.calls⟩⟩
        self := ⟨rfl, rfl, by rw [hcontent]; exact hrest.symm⟩
    exact hlike.delivers capacity (hat.delivers hcapacity)

/-! ## Lines -/

/-- How many bytes a reader can still deliver. -/
def ahead (file : File ε μ) (self : BufReader) : Nat :=
  (file.content.length - self.handle.cursor) + self.buffer.length

theorem fillBuf_ahead {available : List UInt8}
    (hfill : fillBuf file capacity self = (.ok available, self')) :
    self'.buffer = available ∧ ahead file self' = ahead file self := by
  unfold fillBuf at hfill
  split at hfill
  · rename_i hempty
    split at hfill
    · rename_i hread
      cases hfill
      obtain ⟨rfl, rfl⟩ := File.read_ok hread
      have hlength := (File.length_chunk_le file capacity self.handle).2
      refine ⟨rfl, ?_⟩
      unfold ahead
      rw [hempty, List.length_nil]
      dsimp only
      omega
    · cases hfill
  · cases hfill
    exact ⟨rfl, rfl⟩

theorem ahead_consume (file : File ε μ) (self : BufReader) {amount : Nat}
    (h : amount ≤ self.buffer.length) :
    ahead file (self.consume amount) + amount = ahead file self := by
  unfold ahead consume
  rw [List.length_drop]
  dsimp only
  omega

/-- `read_until`, with the terminators that `sep` accepts. A call that a signal
interrupts is made again and is not a call of its own here. -/
def readUntil (file : File ε μ) (capacity : Nat) (sep : UInt8 → Bool) (gathered : List UInt8) :
    Action BufReader ε (List UInt8) := fun self =>
  match _hfill : fillBuf file capacity self with
  | (.error e, next) => (.error e, next)
  | (.ok available, next) =>
    if available.any sep then
      (.ok (gathered ++ firstLine sep available), next.consume (firstLine sep available).length)
    else if available = [] then (.ok gathered, next)
    else readUntil file capacity sep (gathered ++ available) (next.consume available.length)
termination_by self => ahead file self
decreasing_by
  rename_i self _ hne
  obtain ⟨hbuffer, hahead⟩ := fillBuf_ahead _hfill
  have hconsumed := ahead_consume file next (Nat.le_of_eq (congrArg List.length hbuffer.symm))
  have hpos := List.length_pos_iff.mpr hne
  omega

/-- What `read_until` gives is no longer ahead. -/
theorem readUntil_ahead {sep : UInt8 → Bool} {gathered bytes : List UInt8}
    (hread : readUntil file capacity sep gathered self = (.ok bytes, self')) :
    bytes.length + ahead file self' = gathered.length + ahead file self := by
  fun_induction readUntil file capacity sep gathered self with
  | case1 gathered self e next hfill => cases hread
  | case2 gathered self available next hfill hany =>
    cases hread
    obtain ⟨hbuffer, hahead⟩ := fillBuf_ahead hfill
    have hconsumed := ahead_consume file next
      ((length_firstLine_le sep available).trans_eq (congrArg List.length hbuffer.symm))
    rw [List.length_append]
    omega
  | case3 gathered self next hfill =>
    cases hread
    obtain ⟨-, hahead⟩ := fillBuf_ahead hfill
    rw [hahead]
  | case4 gathered self available next hfill hany hne ih =>
    obtain ⟨hbuffer, hahead⟩ := fillBuf_ahead hfill
    have hconsumed := ahead_consume file next (Nat.le_of_eq (congrArg List.length hbuffer.symm))
    have hrest := ih hread
    rw [List.length_append] at hrest
    omega

/-- **`read_until` gives the line at the position**, however the reads are split. -/
theorem At.readUntil_ok (h : At file position self) (hcapacity : 0 < capacity) {sep : UInt8 → Bool}
    {gathered bytes : List UInt8}
    (hread : readUntil file capacity sep gathered self = (.ok bytes, self')) :
    bytes = gathered ++ firstLine sep (file.content.drop position) ∧
      At file (position + (firstLine sep (file.content.drop position)).length) self' := by
  fun_induction readUntil file capacity sep gathered self generalizing position with
  | case1 gathered self e next hfill => cases hread
  | case2 gathered self available next hfill hany =>
    cases hread
    obtain ⟨hat, hbuffer, -⟩ := h.fillBuf_ok hcapacity hfill
    obtain ⟨rest, hrest⟩ := hat.buffered
    rw [hbuffer] at hrest
    rw [← hrest, firstLine_of_any hany]
    refine ⟨rfl, ?_⟩
    have hmoved := hat.consume (firstLine sep available).length
    rwa [hbuffer, List.length_take, Nat.min_eq_left (length_firstLine_le sep available)] at hmoved
  | case3 gathered self next hfill =>
    cases hread
    obtain ⟨hat, -, hend⟩ := h.fillBuf_ok hcapacity hfill
    rw [hend rfl]
    exact ⟨(List.append_nil _).symm, hat⟩
  | case4 gathered self available next hfill hany hne ih =>
    obtain ⟨hat, hbuffer, -⟩ := h.fillBuf_ok hcapacity hfill
    obtain ⟨rest, hrest⟩ := hat.buffered
    rw [hbuffer] at hrest
    have hmoved := hat.consume available.length
    rw [hbuffer, List.take_length] at hmoved
    obtain ⟨hbytes, hlast⟩ := ih hmoved hread
    rw [← List.drop_drop, ← hrest, List.drop_left] at hbytes hlast
    have hopen : ∀ c ∈ available, sep c = false := by
      intro c hc
      exact Bool.eq_false_iff.mpr fun hsep => hany (List.any_eq_true.mpr ⟨c, hc, hsep⟩)
    rw [← hrest, firstLine_append hopen, hbytes, List.append_assoc, List.length_append,
      ← Nat.add_assoc]
    exact ⟨rfl, hlast⟩

theorem healthy_fillBuf (hhealthy : file.Healthy) (self : BufReader) :
    ∃ available next, fillBuf file capacity self = (.ok available, next) := by
  unfold fillBuf
  split
  · rw [hhealthy.read]
    exact ⟨_, _, rfl⟩
  · exact ⟨_, _, rfl⟩

theorem At.healthy_streamPosition (h : At file position self) (hhealthy : file.Healthy) :
    ∃ next, BufReader.streamPosition file self = (.ok position, next) := by
  obtain ⟨e, next, herror, -⟩ | ⟨next, hok, -⟩ := h.streamPosition
  · rw [BufReader.streamPosition, File.streamPosition, hhealthy.call] at herror
    dsimp only at herror
    split at herror
    · cases herror
    · cases herror
  · exact ⟨next, hok⟩

theorem healthy_seek (hhealthy : file.Healthy) (position : Nat) (self : BufReader) :
    ∃ next, seek file position self = (.ok position, next) := by
  rw [seek, File.seek, hhealthy.call]
  exact ⟨_, rfl⟩

/-- **A line is read** when no call fails, however the reads are split. -/
theorem healthy_readUntil (hhealthy : file.Healthy) (sep : UInt8 → Bool) (gathered : List UInt8)
    (self : BufReader) :
    ∃ bytes next, readUntil file capacity sep gathered self = (.ok bytes, next) := by
  fun_induction readUntil file capacity sep gathered self with
  | case1 gathered self e next hfill =>
    obtain ⟨available, filled, hok⟩ := healthy_fillBuf hhealthy self
    rw [hok] at hfill
    cases hfill
  | case2 gathered self available next hfill hany => exact ⟨_, _, rfl⟩
  | case3 gathered self next hfill => exact ⟨_, _, rfl⟩
  | case4 gathered self available next hfill hany hne ih => exact ih

end BufReader

end VcdTools.Lib
