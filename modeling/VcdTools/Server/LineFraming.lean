import VcdTools.Lib.Chunked
import VcdTools.Server.Protocol

/-! # The JSON Lines accumulator

`JsonLineAccumulator::push` takes whatever one read returned and answers the
lines that ended in it. The lines of a stream are what lies between its
newlines; what follows the last newline is still open. Cut into chunks in any
way, a stream ends with the same verdict, but a push that fails drops the
lines it had already completed. -/
namespace VcdTools.Server
open VcdTools.Lib

def newline : UInt8 := 10

structure JsonLineAccumulator where
  buffer : List UInt8
  maxLineBytes : Nat
  poisoned : Bool
  /-- JSON line bound must include a newline. -/
  positive : 0 < maxLineBytes

namespace JsonLineAccumulator

def new (maxLineBytes : Nat) (positive : 0 < maxLineBytes) : JsonLineAccumulator where
  buffer := []
  maxLineBytes := maxLineBytes
  poisoned := false
  positive := positive

def bufferedBytes (self : JsonLineAccumulator) : Nat := self.buffer.length

end JsonLineAccumulator

/-- The error of `poison`, which names the bound and the first length beyond it. -/
def lineTooLong (maxLineBytes : Nat) : ProtocolError :=
  .new .limitExceeded "request line exceeds configured byte limit"
    (Json.object [("kind", .str "request_line_bytes"), ("limit", .str (toString maxLineBytes)),
      ("actual", .str (toString (maxLineBytes + 1)))]) false

def lineNotUtf8 : ProtocolError := .badRequest "request line is not valid UTF-8"

def accumulatorPoisoned : ProtocolError := .badRequest "JSON line accumulator is poisoned"

/-- `String::from_utf8`. -/
def fromUtf8 (bytes : List UInt8) : Option String := String.fromUTF8? ⟨bytes.toArray⟩

namespace JsonLineAccumulator

def poison (self : JsonLineAccumulator) :
    Except ProtocolError (List String) × JsonLineAccumulator :=
  (.error (lineTooLong self.maxLineBytes), { self with buffer := [], poisoned := true })

/-- The loop of `push` over the bytes of one read. -/
def pushLoop (self : JsonLineAccumulator) (frames : List String) :
    List UInt8 → Except ProtocolError (List String) × JsonLineAccumulator
  | [] => (.ok frames, self)
  | byte :: bytes =>
    if byte = newline then
      if self.buffer.length + 1 > self.maxLineBytes then self.poison
      else
        match fromUtf8 self.buffer with
        | some text => { self with buffer := [] }.pushLoop (frames ++ [text]) bytes
        | none => (.error lineNotUtf8, { self with buffer := [], poisoned := true })
    else
      -- Leave room for the mandatory terminating newline.
      if self.buffer.length ≥ self.maxLineBytes - 1 then self.poison
      else { self with buffer := self.buffer ++ [byte] }.pushLoop frames bytes

def push (self : JsonLineAccumulator) (bytes : List UInt8) :
    Except ProtocolError (List String) × JsonLineAccumulator :=
  if self.poisoned then (.error accumulatorPoisoned, self) else self.pushLoop [] bytes

/-- One push after another: the answer of each, and the accumulator they leave. -/
def pushAll (self : JsonLineAccumulator) :
    List (List UInt8) → List (Except ProtocolError (List String)) × JsonLineAccumulator
  | [] => ([], self)
  | chunk :: chunks =>
    ((self.push chunk).1 :: ((self.push chunk).2.pushAll chunks).1,
      ((self.push chunk).2.pushAll chunks).2)

end JsonLineAccumulator

/-- The frames that the pushes hand to their caller. -/
def framesOf : List (Except ProtocolError (List String)) → List String
  | [] => []
  | .ok frames :: answers => frames ++ framesOf answers
  | .error _ :: answers => framesOf answers

/-- The first error among the answers. -/
def errorOf : List (Except ProtocolError (List String)) → Option ProtocolError
  | [] => none
  | .ok _ :: answers => errorOf answers
  | .error e :: _ => some e

/-! ## The lines of a stream -/

/-- The lines of a stream, the open one last. -/
def linesOf (stream : List UInt8) : List (List UInt8) := stream.splitOn newline

/-- A line, counted with its newline, that fits and is valid UTF-8. -/
def lineText (max : Nat) (line : List UInt8) : Option String :=
  if line.length + 1 > max then none else fromUtf8 line

/-- The texts of the lines before the first that is too long or not UTF-8; the
last line is open. -/
def textsOf (max : Nat) : List (List UInt8) → List String
  | [] => []
  | [_] => []
  | line :: next :: lines =>
    match lineText max line with
    | some text => text :: textsOf max (next :: lines)
    | none => []

def goodLines (max : Nat) (stream : List UInt8) : List String := textsOf max (linesOf stream)

/-- Some line is too long, newline included, or some ended line is not UTF-8. -/
def BadLines (max : Nat) (lines : List (List UInt8)) : Prop :=
  (∃ line ∈ lines, max < line.length + 1) ∨ ∃ line ∈ lines.dropLast, fromUtf8 line = none

def Bad (max : Nat) (stream : List UInt8) : Prop := BadLines max (linesOf stream)

theorem linesOf_open {part : List UInt8} (hp : newline ∉ part) : linesOf part = [part] :=
  List.splitOn_eq_singleton hp

theorem linesOf_newline {part : List UInt8} (hp : newline ∉ part) (rest : List UInt8) :
    linesOf (part ++ newline :: rest) = part :: linesOf rest :=
  List.splitOn_append_cons_self_of_not_mem hp rest

theorem linesOf_ne_nil (stream : List UInt8) : linesOf stream ≠ [] := List.splitOn_ne_nil _ _

/-- What stands before the first newline opens the first line. -/
theorem linesOf_first {part : List UInt8} (hp : newline ∉ part) (rest : List UInt8) :
    ∃ line lines, linesOf (part ++ rest) = line :: lines ∧ part.length ≤ line.length := by
  induction rest generalizing part with
  | nil =>
    rw [List.append_nil, linesOf_open hp]
    exact ⟨part, [], rfl, Nat.le_refl _⟩
  | cons byte rest ih =>
    by_cases hb : byte = newline
    · subst hb
      rw [linesOf_newline hp]
      exact ⟨part, linesOf rest, rfl, Nat.le_refl _⟩
    · have hp' : newline ∉ part ++ [byte] := by
        simp only [List.mem_append, List.mem_singleton, not_or]
        exact ⟨hp, fun h => hb h.symm⟩
      obtain ⟨line, lines, heq, hlen⟩ := ih hp'
      rw [List.append_assoc, List.singleton_append] at heq
      refine ⟨line, lines, heq, ?_⟩
      rw [List.length_append, List.length_singleton] at hlen
      omega

theorem textsOf_cons {max : Nat} {line : List UInt8} {lines : List (List UInt8)}
    (h : lines ≠ []) :
    textsOf max (line :: lines) =
      match lineText max line with
      | some text => text :: textsOf max lines
      | none => [] := by
  cases lines with
  | nil => exact absurd rfl h
  | cons next lines => rfl

theorem badLines_cons {max : Nat} {line : List UInt8} {lines : List (List UInt8)}
    (h : lines ≠ []) :
    BadLines max (line :: lines) ↔ lineText max line = none ∨ BadLines max lines := by
  have htext : lineText max line = none ↔ max < line.length + 1 ∨ fromUtf8 line = none := by
    unfold lineText
    split <;> rename_i hlen
    · exact iff_of_true rfl (.inl hlen)
    · exact ⟨.inr, fun h => h.resolve_left hlen⟩
  unfold BadLines
  rw [htext, List.dropLast_cons_of_ne_nil h]
  simp only [List.mem_cons, exists_eq_or_imp]
  exact or_or_or_comm

/-- A first line that is too long ends everything. -/
theorem long_first {max : Nat} {line : List UInt8} {lines : List (List UInt8)}
    (h : max < line.length + 1) :
    textsOf max (line :: lines) = [] ∧ BadLines max (line :: lines) := by
  refine ⟨?_, .inl ⟨line, List.mem_cons_self, h⟩⟩
  cases lines with
  | nil => rfl
  | cons next lines =>
    rw [textsOf_cons (List.cons_ne_nil _ _), lineText, if_pos h]

/-! ## The accumulator as a transducer -/

/-- One byte of the loop: the open line grows, ends, or fails. -/
def scanByte (max : Nat) (part : List UInt8) (byte : UInt8) :
    Except ProtocolError (List String × List UInt8) :=
  if byte = newline then
    if part.length + 1 > max then .error (lineTooLong max)
    else
      match fromUtf8 part with
      | some text => .ok ([text], [])
      | none => .error lineNotUtf8
  else if part.length ≥ max - 1 then .error (lineTooLong max)
  else .ok ([], part ++ [byte])

/-- **What a run over bytes puts out and how it ends, in the words of the
stream**: `part` is the open line, the bytes are still to come. -/
theorem run_scanByte {max : Nat} (bytes : List UInt8) :
    ∀ {part : List UInt8}, newline ∉ part → part.length < max →
      (Chunked.run (scanByte max) part bytes).1 = goodLines max (part ++ bytes) ∧
      ((∃ e, (Chunked.run (scanByte max) part bytes).2 = .error e) ↔ Bad max (part ++ bytes)) := by
  induction bytes with
  | nil =>
    intro part hp hlen
    rw [List.append_nil, goodLines, Bad, linesOf_open hp]
    refine ⟨rfl, iff_of_false (fun ⟨_, h⟩ => (by cases h)) ?_⟩
    rintro (⟨line, hl, hlong⟩ | ⟨line, hl, _⟩)
    · cases List.mem_singleton.mp hl
      omega
    · cases hl
  | cons byte bytes ih =>
    intro part hp hlen
    by_cases hb : byte = newline
    · -- the line ends: a good one is put out, a bad one ends the run
      subst hb
      have hshort : ¬ part.length + 1 > max := by omega
      have hne := linesOf_ne_nil bytes
      rw [goodLines, Bad, linesOf_newline hp, textsOf_cons hne, badLines_cons hne, lineText,
        if_neg hshort]
      cases ht : fromUtf8 part with
      | some text =>
        have hstep : scanByte max part newline = .ok ([text], []) := by
          rw [scanByte, if_pos rfl, if_neg hshort, ht]
        obtain ⟨hout, hend⟩ := @ih [] List.not_mem_nil (Nat.zero_lt_of_lt hlen)
        rw [Chunked.run_cons_ok hstep]
        refine ⟨congrArg (text :: ·) hout, hend.trans ?_⟩
        exact ⟨.inr, fun h => h.resolve_left (Option.some_ne_none text)⟩
      | none =>
        have hstep : scanByte max part newline = .error lineNotUtf8 := by
          rw [scanByte, if_pos rfl, if_neg hshort, ht]
        rw [Chunked.run_cons_error hstep]
        exact ⟨rfl, iff_of_true ⟨_, rfl⟩ (.inl rfl)⟩
    · have hp' : newline ∉ part ++ [byte] := by
        simp only [List.mem_append, List.mem_singleton, not_or]
        exact ⟨hp, fun h => hb h.symm⟩
      rw [← List.singleton_append, ← List.append_assoc]
      by_cases hfull : part.length ≥ max - 1
      · have hstep : scanByte max part byte = .error (lineTooLong max) := by
          rw [scanByte, if_neg hb, if_pos hfull]
        obtain ⟨line, lines, heq, hline⟩ := linesOf_first hp' bytes
        rw [List.length_append, List.length_singleton] at hline
        have hlong : max < line.length + 1 := by omega
        obtain ⟨htexts, hbad⟩ := @long_first max line lines hlong
        rw [List.singleton_append, Chunked.run_cons_error hstep, goodLines, Bad, heq, htexts]
        exact ⟨rfl, iff_of_true ⟨_, rfl⟩ hbad⟩
      · have hstep : scanByte max part byte = .ok ([], part ++ [byte]) := by
          rw [scanByte, if_neg hb, if_neg hfull]
        obtain ⟨hout, hend⟩ := ih hp' (by rw [List.length_append, List.length_singleton]; omega)
        rw [List.singleton_append, Chunked.run_cons_ok hstep]
        exact ⟨hout, hend⟩

/-! ## Pushes

A push is a run over its chunk; an error leaves the buffer empty and the
accumulator poisoned. -/

namespace JsonLineAccumulator

variable {self : JsonLineAccumulator}

/-- The answer of a push whose run ended so, `frames` having been collected. -/
def answer (self : JsonLineAccumulator) (frames : List String) :
    List String × Except ProtocolError (List UInt8) →
      Except ProtocolError (List String) × JsonLineAccumulator
  | (out, .ok part) => (.ok (frames ++ out), { self with buffer := part })
  | (_, .error e) => (.error e, { self with buffer := [], poisoned := true })

/-- What the loop answers, by the run over its bytes. -/
theorem pushLoop_run (bytes : List UInt8) :
    ∀ (self : JsonLineAccumulator) (frames : List String),
      self.pushLoop frames bytes =
        self.answer frames (Chunked.run (scanByte self.maxLineBytes) self.buffer bytes) := by
  induction bytes with
  | nil =>
    intro self frames
    rw [Chunked.run_nil, pushLoop, answer, List.append_nil]
  | cons byte bytes ih =>
    intro self frames
    rw [pushLoop]
    by_cases hb : byte = newline
    · rw [if_pos hb]
      by_cases hlong : self.buffer.length + 1 > self.maxLineBytes
      · have hstep : scanByte self.maxLineBytes self.buffer byte =
            .error (lineTooLong self.maxLineBytes) := by
          rw [scanByte, if_pos hb, if_pos hlong]
        rw [if_pos hlong, Chunked.run_cons_error hstep, poison, answer]
      · rw [if_neg hlong]
        cases ht : fromUtf8 self.buffer with
        | some text =>
          have hstep : scanByte self.maxLineBytes self.buffer byte = .ok ([text], []) := by
            rw [scanByte, if_pos hb, if_neg hlong, ht]
          rw [Chunked.run_cons_ok hstep]
          refine (ih _ _).trans ?_
          show answer _ _ (Chunked.run (scanByte self.maxLineBytes) [] bytes) = _
          cases (Chunked.run (scanByte self.maxLineBytes) [] bytes) with
          | mk out r =>
            cases r with
            | ok part => rw [answer, answer, List.append_assoc]
            | error e => rfl
        | none =>
          have hstep : scanByte self.maxLineBytes self.buffer byte = .error lineNotUtf8 := by
            rw [scanByte, if_pos hb, if_neg hlong, ht]
          rw [Chunked.run_cons_error hstep, answer]
    · rw [if_neg hb]
      by_cases hfull : self.buffer.length ≥ self.maxLineBytes - 1
      · have hstep : scanByte self.maxLineBytes self.buffer byte =
            .error (lineTooLong self.maxLineBytes) := by
          rw [scanByte, if_neg hb, if_pos hfull]
        rw [if_pos hfull, Chunked.run_cons_error hstep, poison, answer]
      · have hstep : scanByte self.maxLineBytes self.buffer byte =
            .ok ([], self.buffer ++ [byte]) := by
          rw [scanByte, if_neg hb, if_neg hfull]
        rw [if_neg hfull, Chunked.run_cons_ok hstep]
        exact ih { self with buffer := self.buffer ++ [byte] } frames

theorem push_poisoned (h : self.poisoned = true) (bytes : List UInt8) :
    self.push bytes = (.error accumulatorPoisoned, self) := if_pos h

theorem push_ok {bytes : List UInt8} {part : List UInt8} (hp : self.poisoned = false)
    (h : (Chunked.run (scanByte self.maxLineBytes) self.buffer bytes).2 = .ok part) :
    self.push bytes =
      (.ok (Chunked.run (scanByte self.maxLineBytes) self.buffer bytes).1,
        { self with buffer := part }) := by
  rw [push, if_neg (by simp [hp]), pushLoop_run]
  rcases hr : Chunked.run (scanByte self.maxLineBytes) self.buffer bytes with ⟨out, r⟩
  rw [hr] at h
  cases h
  rfl

theorem push_error {bytes : List UInt8} {e : ProtocolError} (hp : self.poisoned = false)
    (h : (Chunked.run (scanByte self.maxLineBytes) self.buffer bytes).2 = .error e) :
    self.push bytes = (.error e, { self with buffer := [], poisoned := true }) := by
  rw [push, if_neg (by simp [hp]), pushLoop_run]
  rcases hr : Chunked.run (scanByte self.maxLineBytes) self.buffer bytes with ⟨out, r⟩
  rw [hr] at h
  cases h
  rfl

/-- Nothing comes out of a poisoned accumulator, and it stays as it is. -/
theorem pushAll_poisoned (h : self.poisoned = true) (chunks : List (List UInt8)) :
    self.pushAll chunks = (chunks.map fun _ => .error accumulatorPoisoned, self) := by
  induction chunks with
  | nil => rfl
  | cons chunk chunks ih =>
    rw [pushAll, push_poisoned h, ih]
    rfl

theorem framesOf_poisoned (chunks : List (List UInt8)) :
    framesOf (chunks.map fun _ => .error accumulatorPoisoned) = [] := by
  induction chunks with
  | nil => rfl
  | cons chunk chunks ih => exact ih

/-- **Pushes are the transducer fed in chunks.** -/
theorem pushAll_feed (chunks : List (List UInt8)) :
    ∀ (self : JsonLineAccumulator), self.poisoned = false →
      framesOf (self.pushAll chunks).1 =
        (Chunked.feed (scanByte self.maxLineBytes) self.buffer chunks).1 ∧
      errorOf (self.pushAll chunks).1 =
        match (Chunked.feed (scanByte self.maxLineBytes) self.buffer chunks).2 with
        | .ok _ => none
        | .error e => some e := by
  induction chunks with
  | nil =>
    intro self _
    exact ⟨rfl, rfl⟩
  | cons chunk chunks ih =>
    intro self hp
    cases h : (Chunked.run (scanByte self.maxLineBytes) self.buffer chunk).2 with
    | error e =>
      rw [pushAll, push_error hp h, pushAll_poisoned rfl, Chunked.feed_cons_error h]
      exact ⟨framesOf_poisoned chunks, rfl⟩
    | ok part =>
      obtain ⟨hframes, herror⟩ := ih { self with buffer := part } hp
      rw [pushAll, push_ok hp h, Chunked.feed_cons_ok h]
      exact ⟨congrArg (_ ++ ·) hframes, herror⟩

/-- A push leaves an open line that its newline still fits behind. -/
theorem push_fits (h : self.buffer.length < self.maxLineBytes) (bytes : List UInt8) :
    (self.push bytes).2.maxLineBytes = self.maxLineBytes ∧
      (self.push bytes).2.buffer.length < self.maxLineBytes := by
  cases hp : self.poisoned with
  | true =>
    rw [push_poisoned hp]
    exact ⟨rfl, h⟩
  | false =>
    cases hr : (Chunked.run (scanByte self.maxLineBytes) self.buffer bytes).2 with
    | error e =>
      rw [push_error hp hr]
      exact ⟨rfl, self.positive⟩
    | ok part =>
      rw [push_ok hp hr]
      refine ⟨rfl, Chunked.run_invariant (I := fun part => part.length < self.maxLineBytes)
        (fun part byte out next hlen hstep => ?_) h hr⟩
      unfold scanByte at hstep
      split at hstep
      · split at hstep
        · cases hstep
        · split at hstep
          · cases hstep
            exact self.positive
          · cases hstep
      · split at hstep
        · cases hstep
        · cases hstep
          rw [List.length_append, List.length_singleton]
          omega

theorem pushAll_fits (chunks : List (List UInt8)) :
    ∀ (self : JsonLineAccumulator), self.buffer.length < self.maxLineBytes →
      (self.pushAll chunks).2.buffer.length < self.maxLineBytes := by
  induction chunks with
  | nil =>
    intro self h
    exact h
  | cons chunk chunks ih =>
    intro self h
    obtain ⟨hmax, hlen⟩ := push_fits h chunk
    have hrest := ih (self.push chunk).2 (by rw [hmax]; exact hlen)
    rw [hmax] at hrest
    exact hrest

/-- A push that fails poisons, and poison stays. -/
theorem push_poisons {bytes : List UInt8} {e : ProtocolError}
    (h : (self.push bytes).1 = .error e) : (self.push bytes).2.poisoned = true := by
  cases hp : self.poisoned with
  | true =>
    rw [push_poisoned hp]
    exact hp
  | false =>
    cases hr : (Chunked.run (scanByte self.maxLineBytes) self.buffer bytes).2 with
    | error e' => rw [push_error hp hr]
    | ok part =>
      rw [push_ok hp hr] at h
      cases h

/-- After an answer that is an error every later answer is one. -/
theorem pushAll_after_error (chunks : List (List UInt8)) :
    ∀ (self : JsonLineAccumulator) {i j : Nat} {e : ProtocolError}
      {answer : Except ProtocolError (List String)}, i < j →
      (self.pushAll chunks).1[i]? = some (.error e) → (self.pushAll chunks).1[j]? = some answer →
      answer = .error accumulatorPoisoned := by
  induction chunks with
  | nil =>
    intro self i j e answer _ hi _
    cases hi
  | cons chunk chunks ih =>
    intro self i j e answer hij hi hj
    rw [pushAll] at hi hj
    cases j with
    | zero => omega
    | succ j =>
      rw [List.getElem?_cons_succ] at hj
      cases i with
      | zero =>
        have hp := push_poisons (Option.some.inj hi)
        rw [pushAll_poisoned hp, List.getElem?_map] at hj
        obtain ⟨_, _, rfl⟩ := Option.map_eq_some_iff.mp hj
        rfl
      | succ i =>
        rw [List.getElem?_cons_succ] at hi
        exact ih _ (Nat.lt_of_succ_lt_succ hij) hi hj

end JsonLineAccumulator

/-! ## Two ways of cutting one stream -/

open JsonLineAccumulator

/-- The answers of a new accumulator to the chunks of a stream. -/
def answersTo (max : Nat) (positive : 0 < max) (chunks : List (List UInt8)) :
    List (Except ProtocolError (List String)) :=
  ((JsonLineAccumulator.new max positive).pushAll chunks).1

/-- What framing promises of two ways of cutting one stream. -/
structure FragmentationFree (max : Nat) (positive : 0 < max) (cs ds : List (List UInt8)) :
    Prop where
  frames : framesOf (answersTo max positive cs) = framesOf (answersTo max positive ds)
  everyLine : framesOf (answersTo max positive cs) = goodLines max cs.flatten
  status : errorOf (answersTo max positive cs) = errorOf (answersTo max positive ds)
  error_iff : (errorOf (answersTo max positive cs)).isSome ↔ Bad max cs.flatten
  buffered : ∀ pushed, pushed <+: cs ∨ pushed <+: ds →
    ((JsonLineAccumulator.new max positive).pushAll pushed).2.bufferedBytes ≤ max - 1
  poisoned : ∀ chunks, chunks = cs ∨ chunks = ds →
    ∀ (i j : Nat) (e : ProtocolError) (answer : Except ProtocolError (List String)), i < j →
      (answersTo max positive chunks)[i]? = some (.error e) →
      (answersTo max positive chunks)[j]? = some answer → answer = .error accumulatorPoisoned

/-- The chunk in which the stream goes bad ends no good line before that. -/
def GoesBadAlone (max : Nat) (chunks : List (List UInt8)) : Prop :=
  ∀ before chunk after, chunks = before ++ chunk :: after →
    ¬ Bad max before.flatten → Bad max (before.flatten ++ chunk) →
    goodLines max (before.flatten ++ chunk) = goodLines max before.flatten

variable {max : Nat}

theorem errorOf_answersTo (positive : 0 < max) (chunks : List (List UInt8)) :
    errorOf (answersTo max positive chunks) =
      match (Chunked.run (scanByte max) [] chunks.flatten).2 with
      | .ok _ => none
      | .error e => some e := by
  rw [answersTo, (pushAll_feed chunks (.new max positive) rfl).2]
  exact congrArg (fun r : Except ProtocolError (List UInt8) =>
    match r with | .ok _ => none | .error e => some e) (Chunked.feed_end [] chunks)

/-- What the run over a stream says of the stream. -/
theorem run_stream (positive : 0 < max) (stream : List UInt8) :
    (Chunked.run (scanByte max) [] stream).1 = goodLines max stream ∧
      ((∃ e, (Chunked.run (scanByte max) [] stream).2 = .error e) ↔ Bad max stream) :=
  run_scanByte stream List.not_mem_nil positive

theorem failsEmpty_iff (positive : 0 < max) (chunks : List (List UInt8)) :
    Chunked.FailsEmpty (scanByte max) [] chunks ↔ GoesBadAlone max chunks := by
  constructor
  · intro h before chunk after heq hgood hbad
    obtain ⟨hout, hend⟩ := run_stream positive before.flatten
    obtain ⟨hout', hend'⟩ := run_stream positive (before.flatten ++ chunk)
    cases ht : (Chunked.run (scanByte max) [] before.flatten).2 with
    | error e => exact absurd (hend.mp ⟨e, ht⟩) hgood
    | ok part =>
      obtain ⟨e, he⟩ := hend'.mpr hbad
      rw [Chunked.run_append_ok ht] at hout' he
      rw [← hout', ← hout, h before chunk after part e heq ht he, List.append_nil]
  · intro h before chunk after part e heq ht he
    obtain ⟨hout, hend⟩ := run_stream positive before.flatten
    obtain ⟨hout', hend'⟩ := run_stream positive (before.flatten ++ chunk)
    rw [Chunked.run_append_ok ht] at hout' hend'
    have hgood : ¬ Bad max before.flatten := by
      intro hbad
      obtain ⟨e', he'⟩ := hend.mpr hbad
      rw [ht] at he'
      cases he'
    have hsame := h before chunk after heq hgood (hend'.mp ⟨e, he⟩)
    rw [← hout', ← hout] at hsame
    exact List.append_right_eq_self.mp hsame

/-- A cutting hands over every good line exactly when the stream goes bad in a
chunk that ends none. -/
theorem frames_eq_iff (positive : 0 < max) (chunks : List (List UInt8)) :
    framesOf (answersTo max positive chunks) = goodLines max chunks.flatten ↔
      GoesBadAlone max chunks := by
  rw [← failsEmpty_iff positive, ← Chunked.feed_eq_iff, (run_stream positive chunks.flatten).1,
    answersTo, (pushAll_feed chunks (.new max positive) rfl).1]
  exact Iff.rfl

/-- **Framing does not depend on fragmentation exactly when, in both cuttings,
no chunk both ends a good line and makes the stream bad.** -/
theorem framing_fragmentation_iff (positive : 0 < max) {cs ds : List (List UInt8)}
    (same : cs.flatten = ds.flatten) :
    FragmentationFree max positive cs ds ↔ GoesBadAlone max cs ∧ GoesBadAlone max ds := by
  constructor
  · intro h
    refine ⟨(frames_eq_iff positive cs).mp h.everyLine, (frames_eq_iff positive ds).mp ?_⟩
    rw [← h.frames, h.everyLine, same]
  · rintro ⟨hcs, hds⟩
    have hframes := (frames_eq_iff positive cs).mpr hcs
    refine ⟨?_, hframes, ?_, ?_, ?_, ?_⟩
    · rw [hframes, (frames_eq_iff positive ds).mpr hds, same]
    · rw [errorOf_answersTo, errorOf_answersTo, same]
    · rw [errorOf_answersTo, ← (run_stream positive cs.flatten).2]
      cases (Chunked.run (scanByte max) [] cs.flatten).2 with
      | ok part => exact iff_of_false Bool.false_ne_true (fun ⟨_, h⟩ => (by cases h))
      | error e => exact iff_of_true rfl ⟨e, rfl⟩
    · intro pushed _
      exact Nat.le_sub_one_of_lt (pushAll_fits pushed (.new max positive) positive)
    · intro chunks _ i j e answer hij hi hj
      exact pushAll_after_error chunks (.new max positive) hij hi hj

/-- The line `a`, then a line that is not UTF-8: in two chunks, and byte by byte. -/
theorem framing_fragmentation_iff_bytes :
    FragmentationFree 8 (by decide) [[97, 10], [255, 10]] [[97], [10], [255], [10]] ↔
      GoesBadAlone 8 [[97, 10], [255, 10]] ∧ GoesBadAlone 8 [[97], [10], [255], [10]] :=
  framing_fragmentation_iff (by decide) rfl

/-- In one chunk the line `a` is lost with the bad line behind it. -/
theorem framing_drops_completed_line :
    ¬ ∀ (max : Nat) (positive : 0 < max) (cs ds : List (List UInt8)),
      cs.flatten = ds.flatten → FragmentationFree max positive cs ds := by
  intro h
  have hframes := (h 8 (by decide) [[97, 10, 255, 10]] [[97, 10], [255, 10]] rfl).frames
  have hone : framesOf (answersTo 8 (by decide) [[97, 10, 255, 10]]) = [] := by decide
  have htwo : framesOf (answersTo 8 (by decide) [[97, 10], [255, 10]]) = ["a"] := by decide
  rw [hone, htwo] at hframes
  cases hframes

end VcdTools.Server
