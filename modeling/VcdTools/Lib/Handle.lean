import Mathlib.Data.List.Basic

/-! # Files behind a handle

Actions that change a state and may fail, and those of a handle on a file: the
system may fail any call, and may answer a read with fewer bytes than it asks
for, but with some while there are any. What a loop of reads gathers is a part
of the file, however its reads are split. -/
namespace VcdTools.Lib

variable {σ τ ε δ α β : Type}

/-- What changes a state, and answers a value or an error. -/
def Action (σ ε α : Type) := σ → Except ε α × σ

namespace Action

protected def bind (x : Action σ ε α) (f : α → Action σ ε β) : Action σ ε β := fun s =>
  match x s with
  | (.ok a, s') => f a s'
  | (.error e, s') => (.error e, s')

instance : Monad (Action σ ε) where
  pure a := fun s => (.ok a, s)
  bind := Action.bind

def fail (error : ε) : Action σ ε α := fun s => (.error error, s)

/-- Going on only under a condition. -/
def ensure (c : Prop) [Decidable c] (error : ε) : Action σ ε Unit :=
  if c then pure () else fail error

/-- The `?` on a result that is already there. -/
def lift (result : Except ε α) : Action σ ε α := fun s => (result, s)

/-- A result that is looked at later. -/
def attempt (x : Action σ ε α) : Action σ δ (Except ε α) := fun s => (.ok (x s).1, (x s).2)

def mapError (f : ε → δ) (x : Action σ ε α) : Action σ δ α := fun s => ((x s).1.mapError f, (x s).2)

/-- The action on a part of a larger state. -/
def zoom (get : τ → σ) (set : σ → τ → τ) (x : Action σ ε α) : Action τ ε α := fun t =>
  ((x (get t)).1, set (x (get t)).2 t)

/-- An action answers nothing but `a`. -/
def Only (x : Action σ ε α) (a : α) : Prop := ∀ s b s', x s = (.ok b, s') → b = a

/-- An action answers a value in every state. -/
def Total (x : Action σ ε α) : Prop := ∀ s, ∃ a s', x s = (.ok a, s')

/-- An action answers `a` in every state. -/
structure Answers (x : Action σ ε α) (a : α) : Prop where
  only : x.Only a
  total : x.Total

/-- How an action ends in every state. -/
def Ends (x : Action σ ε α) (result : Except ε α) : Prop := ∀ s, (x s).1 = result

variable {x : Action σ ε α} {f : α → Action σ ε β} {s : σ} {a : α} {b : β} {e : ε}

@[simp] theorem pure_apply : (pure a : Action σ ε α) s = (.ok a, s) := rfl

theorem bind_ok {s' : σ} (h : x s = (.ok a, s')) : (x >>= f) s = f a s' := by
  show (match x s with | (.ok a, s') => f a s' | (.error e, s') => (.error e, s')) = _
  rw [h]

theorem bind_error {s' : σ} (h : x s = (.error e, s')) : (x >>= f) s = (.error e, s') := by
  show (match x s with | (.ok a, s') => f a s' | (.error e, s') => (.error e, s')) = _
  rw [h]

theorem attempt_bind {g : Except ε α → Action σ δ β} :
    (x.attempt >>= g) s = g (x s).1 (x s).2 := rfl

/-- A block answers a value exactly when its parts do. -/
theorem bind_eq_ok {s'' : σ} :
    (x >>= f) s = (.ok b, s'') ↔ ∃ a s', x s = (.ok a, s') ∧ f a s' = (.ok b, s'') := by
  rcases h : x s with ⟨result, s'⟩
  cases result with
  | error e =>
    rw [bind_error h]
    exact ⟨fun h => (by cases h), fun ⟨_, _, h, _⟩ => (by cases h)⟩
  | ok a =>
    rw [bind_ok h]
    exact ⟨fun hf => ⟨a, s', rfl, hf⟩, fun ⟨_, _, h, hf⟩ => (by cases h; exact hf)⟩

theorem ensure_ok {c : Prop} [Decidable c] {u : Unit} {s' : σ} :
    (ensure c e : Action σ ε Unit) s = (.ok u, s') ↔ c ∧ s' = s := by
  unfold ensure
  by_cases h : c
  · rw [if_pos h]
    exact ⟨fun h' => (by cases h'; exact ⟨h, rfl⟩), fun h' => (by rw [h'.2]; rfl)⟩
  · rw [if_neg h]
    exact ⟨fun h' => (by cases h'), fun h' => absurd h'.1 h⟩

theorem Only.pure : Only (pure a : Action σ ε α) a := fun s b s' h => by
  cases h
  rfl

theorem Only.bind (hx : x.Only a) (hf : (f a).Only b) : (x >>= f).Only b := fun s b' s'' h => by
  obtain ⟨a', s', hx', hf'⟩ := bind_eq_ok.mp h
  rw [hx _ _ _ hx'] at hf'
  exact hf _ _ _ hf'

theorem Answers.pure : Answers (pure a : Action σ ε α) a := ⟨.pure, fun s => ⟨a, s, rfl⟩⟩

theorem Answers.bind (hx : x.Answers a) (hf : (f a).Answers b) : (x >>= f).Answers b where
  only := hx.only.bind hf.only
  total s := by
    obtain ⟨a', s', hx'⟩ := hx.total s
    obtain ⟨b', s'', hf'⟩ := hf.total s'
    rw [bind_ok hx', hx.only _ _ _ hx']
    exact ⟨b', s'', hf'⟩

theorem Answers.ensure {c : Prop} [Decidable c] (h : c) :
    Answers (ensure c e : Action σ ε Unit) () :=
  ⟨fun _ _ _ _ => rfl, fun s => ⟨(), s, ensure_ok.mpr ⟨h, rfl⟩⟩⟩

theorem Answers.ends (hx : x.Answers a) : x.Ends (.ok a) := by
  intro s
  obtain ⟨a', s', hx'⟩ := hx.total s
  rw [hx', hx.only _ _ _ hx']

theorem Ends.bind {result : Except ε β} (hx : x.Answers a) (hf : (f a).Ends result) :
    (x >>= f).Ends result := by
  intro s
  obtain ⟨a', s', hx'⟩ := hx.total s
  rw [bind_ok hx', hx.only _ _ _ hx']
  exact hf s'

theorem Ends.ensure {c : Prop} [Decidable c] {f : Unit → Action σ ε β} {result : Except ε β}
    (hc : c → (f ()).Ends result) (hnot : ¬ c → result = .error e) :
    (ensure c e >>= f).Ends result := by
  intro s
  by_cases h : c
  · rw [bind_ok (ensure_ok.mpr ⟨h, rfl⟩)]
    exact hc h s
  · have hfail : (Action.ensure c e : Action σ ε Unit) s = (.error e, s) := by
      rw [Action.ensure, if_neg h]
      rfl
    rw [hnot h, bind_error hfail]

theorem mapError_ok {g : ε → δ} {s' : σ} : x.mapError g s = (.ok a, s') ↔ x s = (.ok a, s') := by
  unfold mapError
  rcases x s with ⟨result, s''⟩
  cases result with
  | error e => exact ⟨fun h => (by cases h), fun h => (by cases h)⟩
  | ok a' => exact ⟨fun h => (by cases h; rfl), fun h => (by cases h; rfl)⟩

end Action

/-! ## Handles -/

/-- A file as the system shows it: its bytes, and for each call to come whether
it fails, the most that a read gives, and the metadata. -/
structure File (ε μ : Type) where
  content : List UInt8
  fails : Nat → Option ε
  counts : Nat → Nat
  metadata : Nat → μ

/-- A handle: its cursor, and the calls it made. -/
structure Handle where
  cursor : Nat
  calls : Nat
  deriving DecidableEq, Repr

namespace File
variable {μ : Type} (file : File ε μ)

/-- A call; one that fails leaves the cursor. -/
def call (answer : Handle → α × Nat) : Action Handle ε α := fun h =>
  match file.fails h.calls with
  | some e => (.error e, ⟨h.cursor, h.calls + 1⟩)
  | none => (.ok (answer h).1, ⟨(answer h).2, h.calls + 1⟩)

/-- `seek(SeekFrom::Start(position))`. -/
def seek (position : Nat) : Action Handle ε Nat := file.call fun _ => (position, position)

/-- `stream_position`. -/
def streamPosition : Action Handle ε Nat := file.call fun h => (h.cursor, h.cursor)

/-- `metadata`. -/
def stat : Action Handle ε μ := file.call fun h => (file.metadata h.calls, h.cursor)

/-- What a read of `requested` bytes gives. -/
def chunk (requested : Nat) (h : Handle) : List UInt8 :=
  (file.content.drop h.cursor).take (min (max 1 (file.counts h.calls)) requested)

/-- `read`. -/
def read (requested : Nat) : Action Handle ε (List UInt8) :=
  file.call fun h => (file.chunk requested h, h.cursor + (file.chunk requested h).length)

/-- No call fails. -/
def Healthy : Prop := ∀ n, file.fails n = none

variable {file}

theorem call_ok {answer : Handle → α × Nat} {h h' : Handle} {a : α}
    (hcall : file.call answer h = (.ok a, h')) :
    a = (answer h).1 ∧ h' = ⟨(answer h).2, h.calls + 1⟩ := by
  unfold call at hcall
  split at hcall
  · cases hcall
  · cases hcall
    exact ⟨rfl, rfl⟩

theorem call_error {answer : Handle → α × Nat} {h h' : Handle} {e : ε}
    (hcall : file.call answer h = (.error e, h')) : h'.cursor = h.cursor := by
  unfold call at hcall
  split at hcall
  · cases hcall
    rfl
  · cases hcall

theorem read_ok {requested : Nat} {bytes : List UInt8} {h h' : Handle}
    (hread : file.read requested h = (.ok bytes, h')) :
    bytes = file.chunk requested h ∧ h' = ⟨h.cursor + bytes.length, h.calls + 1⟩ := by
  obtain ⟨rfl, rfl⟩ := call_ok hread
  exact ⟨rfl, rfl⟩

theorem Healthy.call (h : file.Healthy) (answer : Handle → α × Nat) (s : Handle) :
    file.call answer s = (.ok (answer s).1, ⟨(answer s).2, s.calls + 1⟩) := by
  unfold File.call
  rw [h s.calls]

theorem chunk_eq_nil {requested : Nat} {h : Handle} (hrequested : 0 < requested) :
    file.chunk requested h = [] ↔ file.content.length ≤ h.cursor := by
  unfold chunk
  rw [List.take_eq_nil_iff, List.drop_eq_nil_iff]
  omega

theorem length_chunk_le (file : File ε μ) (requested : Nat) (h : Handle) :
    (file.chunk requested h).length ≤ requested ∧
      (file.chunk requested h).length ≤ file.content.length - h.cursor := by
  unfold chunk
  rw [List.length_take, List.length_drop]
  omega

/-- What is read is what stands at the cursor. -/
theorem chunk_append_drop (file : File ε μ) (requested : Nat) (h : Handle) :
    file.chunk requested h ++ file.content.drop (h.cursor + (file.chunk requested h).length) =
      file.content.drop h.cursor := by
  have hfirst : file.chunk requested h <+: file.content.drop h.cursor := List.take_prefix _ _
  obtain ⟨rest, hrest⟩ := hfirst
  rw [← List.drop_drop, ← hrest, List.drop_left]

/-! ## Loops of reads -/

variable (file)

/-- Reads of at most `block` bytes until `remaining` bytes are there. -/
def readRegion (block : Nat) (eof : ε) (remaining : Nat) (gathered : List UInt8) :
    Action Handle ε (List UInt8) :=
  if remaining = 0 then pure gathered
  else do
    let bytes ← file.read (min remaining block)
    if bytes = [] then .fail eof
    else readRegion block eof (remaining - bytes.length) (gathered ++ bytes)
termination_by remaining
decreasing_by
  rename_i hremaining hbytes
  have hpos := List.length_pos_iff.mpr hbytes
  omega

/-- Reads of at most `block` bytes until one gives nothing. -/
def readRest (block : Nat) (gathered : List UInt8) : Action Handle ε (List UInt8) := fun h =>
  match _hread : file.read block h with
  | (.error e, h') => (.error e, h')
  | (.ok bytes, h') =>
    if bytes = [] then (.ok gathered, h') else readRest block (gathered ++ bytes) h'
termination_by h => file.content.length - h.cursor
decreasing_by
  rename_i h hbytes
  obtain ⟨rfl, rfl⟩ := read_ok _hread
  have hpos := List.length_pos_iff.mpr hbytes
  have hlength := congrArg List.length (chunk_append_drop file block h)
  rw [List.length_append, List.length_drop, List.length_drop] at hlength
  dsimp only
  omega

variable {file}

/-- **A region that is read is that of the file**, from the cursor on. -/
theorem readRegion_ok {block remaining : Nat} {eof : ε} {gathered bytes : List UInt8} {h h' : Handle}
    (hread : file.readRegion block eof remaining gathered h = (.ok bytes, h')) :
    remaining ≤ file.content.length - h.cursor ∧
      bytes = gathered ++ (file.content.drop h.cursor).take remaining := by
  induction remaining using Nat.strongRecOn generalizing gathered h with
  | _ remaining ih =>
    rw [readRegion] at hread
    split at hread
    · rename_i hzero
      cases hread
      rw [hzero, List.take_zero, List.append_nil]
      exact ⟨Nat.zero_le _, rfl⟩
    · rename_i hpos
      obtain ⟨chunk, h₁, hchunk, hrest⟩ := Action.bind_eq_ok.mp hread
      obtain ⟨rfl, rfl⟩ := read_ok hchunk
      split at hrest
      · cases hrest
      · rename_i hne
        obtain ⟨hcount, havailable⟩ := length_chunk_le file (min remaining block) h
        have hchunk_pos := List.length_pos_iff.mpr hne
        obtain ⟨hlength, hbytes⟩ := ih _ (by omega) hrest
        refine ⟨by dsimp only at hlength; omega, ?_⟩
        rw [hbytes, ← chunk_append_drop file (min remaining block) h, List.append_assoc, List.take_append,
          List.take_of_length_le (by omega : (file.chunk (min remaining block) h).length ≤ remaining)]

/-- **The rest that is read is that of the file.** -/
theorem readRest_ok {block : Nat} (hblock : 0 < block) {gathered bytes : List UInt8} {h h' : Handle}
    (hread : file.readRest block gathered h = (.ok bytes, h')) :
    bytes = gathered ++ file.content.drop h.cursor := by
  fun_induction File.readRest file block gathered h with
  | case1 gathered h e h₁ hchunk => cases hread
  | case2 gathered h h₁ hchunk =>
    cases hread
    obtain ⟨hnil, -⟩ := read_ok hchunk
    rw [List.drop_of_length_le ((chunk_eq_nil hblock).mp hnil.symm), List.append_nil]
  | case3 gathered h bytes h₁ hchunk hne ih =>
    obtain ⟨rfl, rfl⟩ := read_ok hchunk
    rw [ih hread, ← chunk_append_drop file block h, List.append_assoc]

namespace Healthy
variable (hhealthy : file.Healthy)
include hhealthy

theorem seek (position : Nat) (h : Handle) :
    file.seek position h = (.ok position, ⟨position, h.calls + 1⟩) := hhealthy.call _ h

theorem stat (h : Handle) :
    file.stat h = (.ok (file.metadata h.calls), ⟨h.cursor, h.calls + 1⟩) := hhealthy.call _ h

theorem read (requested : Nat) (h : Handle) : file.read requested h =
    (.ok (file.chunk requested h), ⟨h.cursor + (file.chunk requested h).length, h.calls + 1⟩) :=
  hhealthy.call _ h

/-- **A region of the file is read**, however the reads are split. -/
theorem readRegion {block remaining : Nat} (hblock : 0 < block) (eof : ε) (gathered : List UInt8)
    {h : Handle} (hlength : remaining ≤ file.content.length - h.cursor) :
    ∃ bytes h', file.readRegion block eof remaining gathered h = (.ok bytes, h') := by
  induction remaining using Nat.strongRecOn generalizing gathered h with
  | _ remaining ih =>
    rw [File.readRegion]
    split
    · exact ⟨gathered, h, rfl⟩
    · rename_i hpos
      rw [Action.bind_ok (hhealthy.read _ h)]
      have hne : file.chunk (min remaining block) h ≠ [] := fun hnil => by
        have hend := (chunk_eq_nil (by omega)).mp hnil
        omega
      have hchunk_pos := List.length_pos_iff.mpr hne
      rw [if_neg hne]
      exact ih _ (by omega) _ (by dsimp only; omega)

/-- **The rest of the file is read**, however the reads are split. -/
theorem readRest (block : Nat) (gathered : List UInt8) (h : Handle) :
    ∃ bytes h', file.readRest block gathered h = (.ok bytes, h') := by
  fun_induction File.readRest file block gathered h with
  | case1 gathered h e h₁ hchunk =>
    rw [hhealthy.read] at hchunk
    cases hchunk
  | case2 gathered h h₁ hchunk => exact ⟨gathered, h₁, rfl⟩
  | case3 gathered h bytes h₁ hchunk hne ih => exact ih

end Healthy

end File

end VcdTools.Lib
