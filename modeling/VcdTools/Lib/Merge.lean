import Mathlib.Order.MinMax
import Mathlib.Data.List.Basic
import Mathlib.Data.List.TakeWhile

/-! # Merging two timelines

A timeline is a list of timed values. A merge of two of them goes from one
head time to the next, takes everything that stands at that time on either
side, and looks at the last values seen. A round that reaches the time `stop`
is not taken, and `stop` also stands for the time of an empty side. -/
namespace VcdTools.Lib.Merge

variable {τ α β : Type*} [LinearOrder τ]

/-- One round of a merge: its time, and the last values of both sides. -/
structure Round (τ α β : Type*) where
  time : τ
  value1 : α
  value2 : β
  deriving DecidableEq, Repr

def Round.swap (round : Round τ α β) : Round τ β α := ⟨round.time, round.value2, round.value1⟩

/-- The time of the next entry. -/
def headTime (stop : τ) (entries : List (τ × α)) : τ := (entries.head?.map Prod.fst).getD stop

/-- What is left of a timeline after the entries at `time` in front of it. -/
def after (time : τ) (entries : List (τ × α)) : List (τ × α) :=
  entries.dropWhile fun entry => entry.1 = time

/-- The last value at `time` in front of a timeline, or the value before it. -/
def latest (time : τ) (current : α) : List (τ × α) → α
  | [] => current
  | (t, value) :: rest => if t = time then latest time value rest else current

theorem length_after_le (time : τ) (entries : List (τ × α)) :
    (after time entries).length ≤ entries.length :=
  (List.dropWhile_sublist _).length_le

theorem length_after_cons {entry : τ × α} {time : τ} (h : entry.1 = time)
    (rest : List (τ × α)) : (after time (entry :: rest)).length < (entry :: rest).length := by
  rw [after, List.dropWhile_cons_of_pos (by simpa using h)]
  exact Nat.lt_succ_of_le (length_after_le time rest)

/-- A round before `stop` takes an entry from one of the sides. -/
theorem length_after_lt (stop : τ) {first : List (τ × α)} {second : List (τ × β)} {time : τ}
    (htime : time = min (headTime stop first) (headTime stop second)) (hstop : time ≠ stop) :
    (after time first).length + (after time second).length < first.length + second.length := by
  have hfirst := length_after_le time first
  have hsecond := length_after_le time second
  rcases min_choice (headTime stop first) (headTime stop second) with hmin | hmin
  · cases first with
    | nil => exact absurd (htime.trans hmin) hstop
    | cons entry rest =>
      have hcons := length_after_cons (htime.trans hmin).symm rest
      omega
  · cases second with
    | nil => exact absurd (htime.trans hmin) hstop
    | cons entry rest =>
      have hcons := length_after_cons (htime.trans hmin).symm rest
      omega

/-- The rounds of a merge, from the values `current1` and `current2` on. -/
def rounds (stop : τ) (first : List (τ × α)) (second : List (τ × β)) (current1 : α)
    (current2 : β) : List (Round τ α β) :=
  let time := min (headTime stop first) (headTime stop second)
  if _ : time = stop then []
  else
    ⟨time, latest time current1 first, latest time current2 second⟩ ::
      rounds stop (after time first) (after time second) (latest time current1 first)
        (latest time current2 second)
termination_by first.length + second.length
decreasing_by exact length_after_lt stop rfl (by assumption)

variable {stop : τ} {first : List (τ × α)} {second : List (τ × β)} {current1 : α} {current2 : β}

theorem rounds_stop (h : min (headTime stop first) (headTime stop second) = stop) :
    rounds stop first second current1 current2 = [] := by
  rw [rounds]
  exact dif_pos h

theorem rounds_cons {time : τ} (htime : time = min (headTime stop first) (headTime stop second))
    (h : time ≠ stop) :
    rounds stop first second current1 current2 =
      ⟨time, latest time current1 first, latest time current2 second⟩ ::
        rounds stop (after time first) (after time second) (latest time current1 first)
          (latest time current2 second) := by
  subst htime
  rw [rounds]
  exact dif_neg h

@[simp] theorem rounds_nil : rounds stop ([] : List (τ × α)) ([] : List (τ × β)) current1 current2 = [] :=
  rounds_stop (min_self stop)

/-- **Swapping the sides** swaps the values of every round. -/
theorem rounds_swap (stop : τ) (first : List (τ × α)) (second : List (τ × β)) (current1 : α)
    (current2 : β) :
    rounds stop second first current2 current1 =
      (rounds stop first second current1 current2).map Round.swap := by
  induction first, second, current1, current2 using rounds.induct stop with
  | case1 first second current1 current2 time hstop =>
    rw [rounds_stop hstop, rounds_stop ((min_comm _ _).trans hstop)]
    rfl
  | case2 first second current1 current2 time hstop ih =>
    rw [rounds_cons rfl hstop, rounds_cons (min_comm _ _) hstop, ih]
    rfl

/-- **A timeline merged with itself** never shows two different values. -/
theorem rounds_self (stop : τ) (entries : List (τ × α)) (current : α) :
    ∀ round ∈ rounds stop entries entries current current, round.value1 = round.value2 := by
  have aux : ∀ (first second : List (τ × α)) (current1 current2 : α),
      first = second → current1 = current2 →
      ∀ round ∈ rounds stop first second current1 current2, round.value1 = round.value2 := by
    intro first second current1 current2
    induction first, second, current1, current2 using rounds.induct stop with
    | case1 first second current1 current2 time hstop =>
      intro _ _ round hround
      rw [rounds_stop hstop] at hround
      cases hround
    | case2 first second current1 current2 time hstop ih =>
      rintro rfl rfl round hround
      rw [rounds_cons rfl hstop] at hround
      rcases List.mem_cons.mp hround with rfl | hrest
      · rfl
      · exact ih rfl rfl round hrest
  exact aux entries entries current current rfl rfl

end VcdTools.Lib.Merge
