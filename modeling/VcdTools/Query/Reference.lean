import VcdTools.Query.Extract
import VcdTools.Lib.Iter
import VcdTools.Lib.Metered

/-! # What an extraction is

The abstract side of extraction, over nothing but the catalog, the requested
names, the window and the parse results: which parse results a run reads, the
rows they ask for, and what a budget leaves of that work. -/
namespace VcdTools.Query
open VcdTools.Lib VcdTools.Lib.Iter

/-! ## The reference -/

/-- `start <= time <= end`, where each end is given. -/
def Covers (window : TimeWindow) (time : Nat) : Prop :=
  (∀ start ∈ window.start, start ≤ time) ∧ ∀ end_ ∈ window.end_, time ≤ end_

instance (window : TimeWindow) (time : Nat) : Decidable (Covers window time) :=
  inferInstanceAs (Decidable (_ ∧ _))

theorem contains_iff (window : TimeWindow) (time : Nat) :
    window.contains time = true ↔ Covers window time := by
  obtain ⟨start, end_⟩ := window
  cases start <;> cases end_ <;> simp [TimeWindow.contains, Covers]

/-- A timestamp greater than the end of the window. -/
def isLate (window : TimeWindow) : ParseResult → Bool
  | .ok (.timestamp time) => window.end_.any fun end_ => time > end_
  | _ => false

/-- The time after a parse result. -/
def timeAfter (time : Nat) : ParseResult → Nat
  | .ok (.timestamp time) => time
  | _ => time

/-- The parse results, each with the time at which it is read. -/
def timed : Nat → List ParseResult → List (Nat × ParseResult)
  | _, [] => []
  | time, result :: rest => (time, result) :: timed (timeAfter time result) rest

variable (names : IdCode → List String) (window : TimeWindow)

/-- The rows a command asks for: one for each requested name of the identifier
it changes, when the window covers its time. -/
def rowsAt (time : Nat) (command : Command) : List TimeValue :=
  match commandToChangeValue command with
  | some (id, value) =>
    if Covers window time then (names id).map fun name => ⟨name, time, value⟩ else []
  | none => []

/-- What a parse result adds to the reference: its rows, or its error. -/
def expand : Nat × ParseResult → List (Except IoError TimeValue)
  | (time, .ok command) => (rowsAt names window time command).map .ok
  | (_, .error error) => [.error error]

/-- The parse results before the first late timestamp. -/
def scanned (commands : List ParseResult) : List ParseResult :=
  commands.takeWhile fun result => !isLate window result

/-- **The reference**: the parse results before the first late timestamp, up to
and including the first error, each expanded at its time. -/
def reference (commands : List ParseResult) : List (Except IoError TimeValue) :=
  (timed 0 (untilError (scanned window commands))).flatMap (expand names window)

/-! ## The work of a run -/

/-- A piece of an unlimited run: it reads a parse result, delivers a row, or
delivers a parse error. -/
inductive Work
  | command
  | row (event : TimeValue)
  | failure (error : IoError)
  deriving DecidableEq, Repr

/-- The work of an unlimited run from `time` on, in its order. -/
def extractWork : Nat → List ParseResult → List Work
  | _, [] => []
  | _, .error error :: _ => [.command, .failure error]
  | time, .ok command :: rest =>
    .command :: if isLate window (.ok command) then [] else
      (rowsAt names window time command).map .row ++ extractWork (timeAfter time (.ok command)) rest

/-- What a piece of work delivers. -/
def Work.item : Work → Option (Except QueryError TimeValue)
  | .command => none
  | .row event => some (.ok event)
  | .failure error => some (.error (.vcd (.io error)))

def Work.row? : Work → Option TimeValue
  | .row event => some event
  | _ => none

def Work.failure? : Work → Option QueryError
  | .failure error => some (.vcd (.io error))
  | _ => none

/-- The rows of some work. -/
def rowsOf (ws : List Work) : List TimeValue := ws.filterMap Work.row?

/-- The parse error that ends some work. -/
def failureOf (ws : List Work) : Option QueryError := ws.findSome? Work.failure?

/-! ## Budgets -/

/-- Commands read, rows delivered and their logical bytes. -/
structure Usage where
  commands : Nat := 0
  rows : Nat := 0
  bytes : Nat := 0
  deriving DecidableEq, Repr

/-- What a piece of work adds to the usage. -/
def Usage.add (used : Usage) : Work → Usage
  | .command => { used with commands := used.commands + 1 }
  | .row row =>
    { used with
      rows := used.rows + 1
      bytes := used.bytes + logicalEventBytes row.signal row.value }
  | .failure _ => used

/-- The usage of some work. -/
def cost (ws : List Work) : Usage := ws.foldl Usage.add {}

/-- A `u64` counter that has counted up to `total`. -/
def counter (total : Nat) : Nat := min total u64Max

/-- The counters of an iterator that has used so much. -/
def Usage.counters (used : Usage) : Usage :=
  ⟨counter used.commands, counter used.rows, counter used.bytes⟩

/-- No counter is over its limit. -/
structure Within (limits : QueryLimits) (used : Usage) : Prop where
  commands : ∀ limit ∈ limits.maxCommands, counter used.commands ≤ limit
  rows : ∀ limit ∈ limits.maxRows, counter used.rows ≤ limit
  bytes : ∀ limit ∈ limits.maxResultBytes, counter used.bytes ≤ limit

/-- The limit that the step from `used` to `used'` crosses, the rows before the
bytes, with the value that crosses it. -/
inductive Crosses (limits : QueryLimits) (used used' : Usage) : QueryError → Prop
  | commands (limit : Nat) : limits.maxCommands = some limit → counter used.commands ≤ limit →
      limit < counter used'.commands →
      Crosses limits used used' (.limitExceeded .commands limit (counter used'.commands))
  | rows (limit : Nat) : limits.maxRows = some limit → counter used.rows ≤ limit →
      limit < counter used'.rows →
      Crosses limits used used' (.limitExceeded .rows limit (counter used'.rows))
  | bytes (limit : Nat) : limits.maxResultBytes = some limit → counter used.bytes ≤ limit →
      limit < counter used'.bytes → (∀ limit ∈ limits.maxRows, counter used'.rows ≤ limit) →
      Crosses limits used used' (.limitExceeded .resultBytes limit (counter used'.bytes))

/-- Rows a run can deliver within the limits: those of some first part of its
work. -/
def Affordable (limits : QueryLimits) (all : List Work) (rows : List TimeValue) : Prop :=
  ∃ ps, ps <+: all ∧ rowsOf ps = rows ∧ Within limits (cost ps)

/-- The rows of `all` that fit the limits, and no more would. -/
def LongestAffordable (limits : QueryLimits) (all : List Work) (rows : List TimeValue) : Prop :=
  Affordable limits all rows ∧ ∀ rows', Affordable limits all rows' → rows' <+: rows

/-- The charge of a piece of work on the counters of an iterator. -/
def charge (limits : QueryLimits) (used : Usage) : Work → Except QueryError Usage
  | .command => do
    let commands := saturatingAdd used.commands 1
    OpenedTimeValueIter.checkLimit .commands limits.maxCommands commands
    return { used with commands := commands }
  | .row row => do
    let rows := saturatingAdd used.rows 1
    OpenedTimeValueIter.checkLimit .rows limits.maxRows rows
    let bytes := saturatingAdd used.bytes (logicalEventBytes row.signal row.value)
    OpenedTimeValueIter.checkLimit .resultBytes limits.maxResultBytes bytes
    return { used with rows := rows, bytes := bytes }
  | .failure _ => .ok used

/-- What an iterator with so much used answers when this work is ahead. -/
def answers (limits : QueryLimits) (used : Usage) (ws : List Work) :
    List (Except QueryError TimeValue) :=
  (Metered.afford (charge limits) used ws).1.filterMap Work.item ++
    ((Metered.afford (charge limits) used ws).2.map Except.error).toList

variable {limits : QueryLimits} {used used' : Usage} {w : Work} {ws : List Work}

@[simp] theorem answers_nil : answers limits used [] = [] := rfl

theorem answers_cons_ok (h : charge limits used w = .ok used') :
    answers limits used (w :: ws) = w.item.toList ++ answers limits used' ws := by
  rw [answers, Metered.afford_cons_ok h, answers, List.filterMap_cons]
  cases w.item <;> rfl

theorem answers_cons_error {e : QueryError} (h : charge limits used w = .error e) :
    answers limits used (w :: ws) = [.error e] := by
  rw [answers, Metered.afford_cons_error h]
  rfl

@[simp] theorem cost_nil : cost [] = {} := rfl

theorem cost_concat (ws : List Work) (w : Work) : cost (ws ++ [w]) = (cost ws).add w := by
  rw [cost, List.foldl_append]
  rfl

@[simp] theorem rowsOf_nil : rowsOf [] = [] := rfl

theorem rowsOf_append (ws ws' : List Work) : rowsOf (ws ++ ws') = rowsOf ws ++ rowsOf ws' :=
  List.filterMap_append

@[simp] theorem rowsOf_map_row (rows : List TimeValue) : rowsOf (rows.map .row) = rows := by
  induction rows with
  | nil => rfl
  | cons row rows ih =>
    rw [List.map_cons, rowsOf, List.filterMap_cons]
    exact congrArg (row :: ·) ih

/-! ## The charge and the budget -/

theorem counter_saturatingAdd (total n : Nat) :
    saturatingAdd (counter total) n = counter (total + n) := by
  unfold saturatingAdd counter
  omega

theorem counter_mono {a b : Nat} (h : a ≤ b) : counter a ≤ counter b := by
  unfold counter
  omega

/-- A counter against its limit. -/
theorem checkLimit_eq (kind : QueryLimitKind) (limit : Option Nat) (actual : Nat) :
    (OpenedTimeValueIter.checkLimit kind limit actual = .ok () ∧ ∀ l ∈ limit, actual ≤ l) ∨
      ∃ l, limit = some l ∧ l < actual ∧
        OpenedTimeValueIter.checkLimit kind limit actual =
          .error (.limitExceeded kind l actual) := by
  cases limit with
  | none => exact .inl ⟨rfl, by simp⟩
  | some l =>
    by_cases h : actual > l
    · exact .inr ⟨l, rfl, h, by simp [OpenedTimeValueIter.checkLimit, h]⟩
    · exact .inl ⟨by simp [OpenedTimeValueIter.checkLimit, h], by
        intro l' hl'
        cases hl'
        omega⟩

/-- **What the charge of a piece of work does** from counters within the
limits: it counts, or names the limit that the work crosses. -/
theorem charge_spec (hin : Within limits used) (w : Work) :
    (charge limits used.counters w = .ok (used.add w).counters ∧ Within limits (used.add w)) ∨
      ∃ e, charge limits used.counters w = .error e ∧ Crosses limits used (used.add w) e := by
  cases w with
  | command =>
    simp only [charge, Usage.counters, counter_saturatingAdd]
    rcases checkLimit_eq .commands limits.maxCommands (counter (used.commands + 1)) with
      ⟨hok, hle⟩ | ⟨l, hl, hlt, herr⟩
    · rw [hok]
      exact .inl ⟨rfl, hle, hin.rows, hin.bytes⟩
    · rw [herr]
      exact .inr ⟨_, rfl, .commands l hl (hin.commands l hl) hlt⟩
  | row row =>
    simp only [charge, Usage.counters, counter_saturatingAdd]
    rcases checkLimit_eq .rows limits.maxRows (counter (used.rows + 1)) with
      ⟨hok, hle⟩ | ⟨l, hl, hlt, herr⟩
    · rw [hok]
      rcases checkLimit_eq .resultBytes limits.maxResultBytes
        (counter (used.bytes + logicalEventBytes row.signal row.value)) with
        ⟨hok', hle'⟩ | ⟨l, hl, hlt, herr⟩
      · simp only [hok']
        exact .inl ⟨rfl, hin.commands, hle, hle'⟩
      · simp only [herr]
        exact .inr ⟨_, rfl, .bytes l hl (hin.bytes l hl) hlt hle⟩
    · rw [herr]
      exact .inr ⟨_, rfl, .rows l hl (hin.rows l hl) hlt⟩
  | failure error => exact .inl ⟨rfl, hin⟩

theorem Within.of_le (h : Within limits used') (hc : used.commands ≤ used'.commands)
    (hr : used.rows ≤ used'.rows) (hb : used.bytes ≤ used'.bytes) : Within limits used where
  commands l hl := (counter_mono hc).trans (h.commands l hl)
  rows l hl := (counter_mono hr).trans (h.rows l hl)
  bytes l hl := (counter_mono hb).trans (h.bytes l hl)

/-- A crossed limit is not kept. -/
theorem Crosses.not_within {e : QueryError} (h : Crosses limits used used' e) :
    ¬ Within limits used' := by
  intro hin
  cases h with
  | commands l hl _ hlt => exact absurd (hin.commands l hl) (by omega)
  | rows l hl _ hlt => exact absurd (hin.rows l hl) (by omega)
  | bytes l hl _ hlt _ => exact absurd (hin.bytes l hl) (by omega)

theorem Usage.le_add (used : Usage) (w : Work) :
    used.commands ≤ (used.add w).commands ∧ used.rows ≤ (used.add w).rows ∧
      used.bytes ≤ (used.add w).bytes := by
  cases w <;> simp [Usage.add]

theorem Within.of_add (h : Within limits (used.add w)) : Within limits used :=
  h.of_le (used.le_add w).1 (used.le_add w).2.1 (used.le_add w).2.2

/-- Work is accepted as a whole exactly when its cost is within the limits. -/
theorem foldlM_charge (hin : Within limits used) (ws : List Work) :
    (ws.foldlM (charge limits) used.counters = .ok (ws.foldl Usage.add used).counters ∧
        Within limits (ws.foldl Usage.add used)) ∨
      ((∀ u, ws.foldlM (charge limits) used.counters ≠ .ok u) ∧
        ¬ Within limits (ws.foldl Usage.add used)) := by
  induction ws generalizing used with
  | nil => exact .inl ⟨rfl, hin⟩
  | cons w ws ih =>
    rw [List.foldlM_cons, List.foldl_cons]
    rcases charge_spec hin w with ⟨hok, hin'⟩ | ⟨e, herr, hcross⟩
    · rw [hok]
      exact ih hin'
    · rw [herr]
      refine .inr ⟨fun u hu => (by cases hu), fun hall => hcross.not_within ?_⟩
      have hmono : ∀ (ws : List Work) (used : Usage), Within limits (ws.foldl Usage.add used) →
          Within limits used := by
        intro ws
        induction ws with
        | nil => exact fun _ h => h
        | cons w ws ih => exact fun used h => (ih _ h).of_add
      exact hmono ws _ hall

end VcdTools.Query
