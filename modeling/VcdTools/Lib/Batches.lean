import Mathlib.Data.List.Infix
import VcdTools.Lib.RunReports

/-! # Batches and cycles

A loop buffers the elements of a list while their key stays the same and hands
each maximal run of equal keys over as one batch. Some of the batches start a
cycle: a cycle ends where the next one starts, the last one with the list. -/
namespace VcdTools.Lib.Batches
open VcdTools.Lib.RunReports

universe u
variable {α κ τ : Type u} {β ε : Type*}

/-! ## The loop -/

/-- The state of the loop: the key of the buffered elements, what the batches
before them have made, and the buffer. -/
structure State (κ τ α : Type u) where
  current : Option κ
  acc : τ
  buffer : List α

variable [DecidableEq κ] (key : α → κ) (process : List α → τ → Except ε τ)

/-- A round of the loop. -/
def State.next (s : State κ τ α) (a : α) : Except ε (State κ τ α) :=
  if s.current = none ∨ s.current = some (key a) then
    .ok ⟨some (key a), s.acc, s.buffer ++ [a]⟩
  else (process s.buffer s.acc).map fun acc => ⟨some (key a), acc, [a]⟩

/-- The buffer is handed over at the end, unless it is empty. -/
def State.flush (s : State κ τ α) : Except ε τ :=
  if s.buffer = [] then .ok s.acc else process s.buffer s.acc

/-- Processing batches one by one. -/
def processAll (batches : List (List α)) (acc : τ) : Except ε τ :=
  batches.foldlM (fun acc batch => process batch acc) acc

@[simp] theorem processAll_nil (acc : τ) : processAll process [] acc = .ok acc := rfl

theorem processAll_append (batches batches' : List (List α)) (acc : τ) :
    processAll process (batches ++ batches') acc =
      processAll process batches acc >>= processAll process batches' := by
  rw [processAll, List.foldlM_append]
  rfl

@[simp] theorem processAll_singleton (batch : List α) (acc : τ) :
    processAll process [batch] acc = process batch acc := by
  rw [processAll, List.foldlM_cons]
  cases process batch acc <;> rfl

/-- A block of elements with one key is buffered whole. -/
theorem foldlM_block {k : κ} {block : List α} (hne : block ≠ []) (h : ∀ a ∈ block, key a = k)
    (s : State κ τ α) :
    block.foldlM (State.next key process) s =
      if s.current = none ∨ s.current = some k then .ok ⟨some k, s.acc, s.buffer ++ block⟩
      else (process s.buffer s.acc).map fun acc => ⟨some k, acc, block⟩ := by
  induction block using List.reverseRecOn with
  | nil => exact absurd rfl hne
  | append_singleton block a ih =>
    have hlast : key a = k := h a (by simp)
    have hround : ∀ acc buffer, State.next key process ⟨some k, acc, buffer⟩ a =
        .ok ⟨some k, acc, buffer ++ [a]⟩ := by
      intro acc buffer
      rw [State.next, hlast]
      exact if_pos (.inr rfl)
    rw [List.foldlM_append]
    rcases List.eq_nil_or_concat block with rfl | ⟨before, b, rfl⟩
    · simp only [List.foldlM_nil, List.foldlM_cons, List.nil_append, State.next, hlast, pure_bind,
        bind_pure]
    · rw [ih (by simp) fun c hc => h c (List.mem_append_left _ hc)]
      split
      · rw [← List.append_assoc]
        exact congrArg (· >>= pure) (hround _ _)
      · cases process s.buffer s.acc with
        | error e => rfl
        | ok acc => exact congrArg (· >>= pure) (hround _ _)

/-- **The buffer holds the last run**, and all runs before it were processed. -/
theorem foldlM_next (acc : τ) (l : List α) :
    l.foldlM (State.next key process) ⟨none, acc, []⟩ =
      (processAll process (runs key l).dropLast acc).map fun acc =>
        ⟨l.getLast?.map key, acc, (runs key l).getLast?.getD []⟩ := by
  induction l using List.reverseRecOn with
  | nil => rfl
  | append_singleton l a ih =>
    rw [List.foldlM_append, ih]
    rcases List.eq_nil_or_concat l with rfl | ⟨before, b, rfl⟩
    · rfl
    · obtain ⟨rs, r, hruns⟩ := runs_concat key before b
      rw [List.concat_eq_append]
      by_cases hkey : key b = key a
      · rw [runs_append_same hruns hkey, hruns, List.dropLast_concat, List.dropLast_concat]
        cases processAll process rs acc with
        | error e => rfl
        | ok acc' => simp [State.next, hkey, Except.map, bind, Except.bind, pure, Except.pure]
      · rw [runs_append_new hkey, hruns, List.dropLast_concat, List.dropLast_concat,
          processAll_append]
        cases processAll process rs acc with
        | error e => rfl
        | ok acc' =>
          simp only [Except.map, bind, Except.bind, pure, Except.pure, List.foldlM_cons,
            List.foldlM_nil, State.next, List.getLast?_concat, Option.map_some, Option.getD_some]
          rw [if_neg (by simp [hkey]), processAll_singleton]
          cases process (r ++ [b]) acc' <;> rfl

/-- **The loop processes the runs.** -/
theorem foldlM_flush (acc : τ) (l : List α) :
    (l.foldlM (State.next key process) ⟨none, acc, []⟩ >>= State.flush process) =
      processAll process (runs key l) acc := by
  rw [foldlM_next]
  rcases List.eq_nil_or_concat l with rfl | ⟨before, b, rfl⟩
  · rfl
  · obtain ⟨rs, r, hruns⟩ := runs_concat key before b
    rw [List.concat_eq_append, hruns, List.dropLast_concat, List.getLast?_concat, processAll_append]
    cases processAll process rs acc with
    | error e => rfl
    | ok acc' =>
      change State.flush process ⟨_, acc', (rs ++ [r ++ [b]]).getLast?.getD []⟩ =
        processAll process [r ++ [b]] acc'
      rw [processAll_singleton, State.flush, List.getLast?_concat, Option.getD_some, if_neg (by simp)]

/-! ## Cycles -/

section
variable (rises : List β → β → Bool)

/-- `starts`, after `seen`. -/
def startsFrom (seen : List β) : List β → List (List β)
  | [] => []
  | batch :: batches =>
    (if rises seen batch then [seen] else []) ++ startsFrom (seen ++ [batch]) batches

/-- What was read before each batch that starts a cycle. `rises` tells from what
was read before a batch whether the batch does. -/
def starts (batches : List β) : List (List β) := startsFrom rises [] batches

/-- What was read at the end of each cycle that another one follows. -/
def ended (batches : List β) : List (List β) := (starts rises batches).tail

/-- What was read at the end of each cycle. -/
def cycles (batches : List β) : List (List β) := (starts rises batches ++ [batches]).tail

end

variable {rises : List β → β → Bool}

theorem startsFrom_concat (seen batches : List β) (batch : β) :
    startsFrom rises seen (batches ++ [batch]) =
      startsFrom rises seen batches ++
        if rises (seen ++ batches) batch then [seen ++ batches] else [] := by
  induction batches generalizing seen with
  | nil => simp [startsFrom]
  | cons first batches ih => simp [startsFrom, ih]

@[simp] theorem starts_nil : starts rises [] = [] := rfl

theorem starts_concat (batches : List β) (batch : β) :
    starts rises (batches ++ [batch]) =
      starts rises batches ++ if rises batches batch then [batches] else [] :=
  startsFrom_concat [] batches batch

/-- With the last cycle, the cycles are the ended ones and the one that lasts. -/
theorem cycles_eq (batches : List β) :
    cycles rises batches =
      ended rises batches ++ if starts rises batches = [] then [] else [batches] := by
  rw [cycles, ended]
  cases starts rises batches <;> simp

/-- A batch that starts a cycle ends the one before. -/
theorem ended_concat (batches : List β) (batch : β) :
    ended rises (batches ++ [batch]) =
      if rises batches batch then cycles rises batches else ended rises batches := by
  rw [ended, starts_concat, cycles]
  split
  · rfl
  · rw [List.append_nil, ended]

/-- Cycles that have ended stay when more is read. -/
theorem ended_prefix (rises : List β → β → Bool) (batches more : List β) :
    ended rises batches <+: ended rises (batches ++ more) := by
  induction more using List.reverseRecOn with
  | nil => rw [List.append_nil]
  | append_singleton more batch ih =>
    rw [← List.append_assoc, ended_concat]
    split
    · rw [cycles_eq]
      exact ih.trans (List.prefix_append _ _)
    · exact ih

theorem ended_prefix_cycles (batches : List β) : ended rises batches <+: cycles rises batches := by
  rw [cycles_eq]
  exact List.prefix_append _ _

end VcdTools.Lib.Batches
