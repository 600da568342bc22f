import Mathlib.Data.List.Dedup
import Mathlib.Data.List.Sort
import VcdTools.Lib.Merge

/-! # Merging two sorted timelines

When the times of both sides never decrease and none is past `stop`, the rounds
of a merge are the distinct times before `stop`, in order, each with the last
values at or before it. -/
namespace VcdTools.Lib.Merge

variable {τ α β : Type*} [LinearOrder τ]

/-- The times never decrease. -/
def Ordered (entries : List (τ × α)) : Prop := entries.Pairwise fun a b => a.1 ≤ b.1

/-- The value of the last entry at or before `time`, or `current` before all of them. -/
def valueAt (time : τ) (current : α) (entries : List (τ × α)) : α :=
  ((entries.filter fun entry => entry.1 ≤ time).getLast?.map Prod.snd).getD current

/-- The distinct times of both sides, in order. -/
def times (first : List (τ × α)) (second : List (τ × β)) : List τ :=
  (first.map Prod.fst ++ second.map Prod.fst).dedup.mergeSort (· ≤ ·)

variable {stop time time' : τ} {current : α} {entry : τ × α} {entries rest : List (τ × α)}
  {first : List (τ × α)} {second : List (τ × β)} {current1 : α} {current2 : β}

/-! ## The times -/

theorem mem_times {t : τ} :
    t ∈ times first second ↔ t ∈ first.map Prod.fst ∨ t ∈ second.map Prod.fst := by
  rw [times, List.mem_mergeSort, List.mem_dedup, List.mem_append]

theorem times_sorted (first : List (τ × α)) (second : List (τ × β)) :
    (times first second).Pairwise (· < ·) := by
  have hnodup : (times first second).Nodup :=
    (List.mergeSort_perm _ _).nodup_iff.mpr (List.nodup_dedup _)
  exact (List.sortedLE_mergeSort.sortedLT_of_nodup hnodup).pairwise

/-! ## The last value at a time -/

@[simp] theorem valueAt_nil : valueAt time current ([] : List (τ × α)) = current := rfl

theorem valueAt_cons_le (h : entry.1 ≤ time) :
    valueAt time current (entry :: rest) = valueAt time entry.2 rest := by
  rw [valueAt, List.filter_cons_of_pos (by simpa using h), List.getLast?_cons, valueAt]
  cases (rest.filter fun entry => entry.1 ≤ time).getLast? with
  | none => rfl
  | some last => rfl

theorem valueAt_cons_gt (h : time < entry.1) :
    valueAt time current (entry :: rest) = valueAt time current rest := by
  rw [valueAt, List.filter_cons_of_neg (by simpa using h), valueAt]

/-- Nothing has happened yet. -/
theorem valueAt_of_gt (h : ∀ entry ∈ entries, time < entry.1) :
    valueAt time current entries = current := by
  induction entries with
  | nil => rfl
  | cons entry rest ih =>
    rw [valueAt_cons_gt (h entry List.mem_cons_self)]
    exact ih fun e he => h e (List.mem_cons_of_mem _ he)

/-! ## One round -/

theorem after_cons_self (h : entry.1 = time) : after time (entry :: rest) = after time rest := by
  rw [after, List.dropWhile_cons_of_pos (by simpa using h), after]

theorem after_cons_ne (h : entry.1 ≠ time) : after time (entry :: rest) = entry :: rest := by
  rw [after, List.dropWhile_cons_of_neg (by simpa using h)]

theorem Ordered.tail (h : Ordered (entry :: rest)) : Ordered rest := (List.pairwise_cons.mp h).2

theorem Ordered.after (h : Ordered entries) (time : τ) : Ordered (after time entries) :=
  List.Pairwise.sublist (List.dropWhile_sublist _) h

/-- Nothing is lost when the entries of a round are taken off. -/
theorem valueAt_after (hle : time ≤ time') (current : α) (entries : List (τ × α)) :
    valueAt time' (latest time current entries) (after time entries) =
      valueAt time' current entries := by
  induction entries generalizing current with
  | nil => rfl
  | cons entry rest ih =>
    by_cases h : entry.1 = time
    · rw [after_cons_self h, latest, if_pos h, ih, valueAt_cons_le (h.trans_le hle)]
    · rw [after_cons_ne h, latest, if_neg h]

/-- Behind a round the times are later. -/
theorem lt_of_mem_after (hordered : Ordered entries) (hge : ∀ entry ∈ entries, time ≤ entry.1) :
    ∀ entry ∈ after time entries, time < entry.1 := by
  induction entries with
  | nil => exact fun _ h => (by cases h)
  | cons entry rest ih =>
    by_cases h : entry.1 = time
    · rw [after_cons_self h]
      exact ih hordered.tail fun e he => hge e (List.mem_cons_of_mem _ he)
    · rw [after_cons_ne h]
      have hlt : time < entry.1 := lt_of_le_of_ne (hge entry List.mem_cons_self) (Ne.symm h)
      intro e he
      rcases List.mem_cons.mp he with rfl | he
      · exact hlt
      · exact hlt.trans_le ((List.pairwise_cons.mp hordered).1 e he)

theorem valueAt_head (hordered : Ordered entries) (hge : ∀ entry ∈ entries, time ≤ entry.1) :
    valueAt time current entries = latest time current entries := by
  rw [← valueAt_after (le_refl time), valueAt_of_gt (lt_of_mem_after hordered hge)]

/-- The times of a timeline are that of the round and those behind it. -/
theorem mem_fst_iff (hordered : Ordered entries) (hge : ∀ entry ∈ entries, time ≤ entry.1) {t : τ}
    (ht : t ≠ time) : t ∈ entries.map Prod.fst ↔ t ∈ (after time entries).map Prod.fst := by
  induction entries with
  | nil => exact Iff.rfl
  | cons entry rest ih =>
    by_cases h : entry.1 = time
    · rw [after_cons_self h, List.map_cons, List.mem_cons,
        ← ih hordered.tail fun e he => hge e (List.mem_cons_of_mem _ he)]
      exact or_iff_right fun heq => ht (heq.trans h)
    · rw [after_cons_ne h]

theorem headTime_le (hordered : Ordered entries) :
    ∀ entry ∈ entries, headTime stop entries ≤ entry.1 := by
  cases entries with
  | nil => exact fun _ h => (by cases h)
  | cons head rest =>
    intro entry hentry
    rcases List.mem_cons.mp hentry with rfl | hentry
    · exact le_refl _
    · exact (List.pairwise_cons.mp hordered).1 entry hentry

omit [LinearOrder τ] in
theorem headTime_mem (h : headTime stop entries ≠ stop) :
    headTime stop entries ∈ entries.map Prod.fst := by
  cases entries with
  | nil => exact absurd rfl h
  | cons head rest => exact List.mem_cons_self

/-! ## All rounds -/

/-- What the rounds of a merge are: every time before `stop`, in order, with the
values then. -/
structure Tells (stop : τ) (first : List (τ × α)) (second : List (τ × β)) (current1 : α)
    (current2 : β) (rounds : List (Round τ α β)) : Prop where
  sorted : (rounds.map Round.time).Pairwise (· < ·)
  mem : ∀ t, t ∈ rounds.map Round.time ↔
    (t ∈ first.map Prod.fst ∨ t ∈ second.map Prod.fst) ∧ t ≠ stop
  values : ∀ round ∈ rounds, round.value1 = valueAt round.time current1 first ∧
    round.value2 = valueAt round.time current2 second

/-- Where nothing stands before `stop`, only `stop` itself can occur. -/
theorem eq_stop (hordered : Ordered entries) (hstop : ∀ entry ∈ entries, entry.1 ≤ stop)
    (hhead : stop ≤ headTime stop entries) {t : τ} (ht : t ∈ entries.map Prod.fst) : t = stop := by
  obtain ⟨entry, hentry, rfl⟩ := List.mem_map.mp ht
  exact le_antisymm (hstop entry hentry) (hhead.trans (headTime_le hordered entry hentry))

theorem rounds_tells (hfirst : Ordered first) (hsecond : Ordered second)
    (hstop1 : ∀ entry ∈ first, entry.1 ≤ stop) (hstop2 : ∀ entry ∈ second, entry.1 ≤ stop) :
    Tells stop first second current1 current2 (rounds stop first second current1 current2) := by
  induction first, second, current1, current2 using rounds.induct stop with
  | case1 first second current1 current2 time hstop =>
    rw [rounds_stop hstop]
    have hle : stop ≤ min (headTime stop first) (headTime stop second) := hstop.ge
    refine ⟨.nil, fun t => iff_of_false List.not_mem_nil ?_, fun _ h => (by cases h)⟩
    rintro ⟨ht | ht, hne⟩
    · exact hne (eq_stop hfirst hstop1 (le_min_iff.mp hle).1 ht)
    · exact hne (eq_stop hsecond hstop2 (le_min_iff.mp hle).2 ht)
  | case2 first second current1 current2 time hstop ih =>
    rw [rounds_cons rfl hstop]
    have hge1 : ∀ entry ∈ first, time ≤ entry.1 := fun entry hentry =>
      (min_le_left _ _).trans (headTime_le hfirst entry hentry)
    have hge2 : ∀ entry ∈ second, time ≤ entry.1 := fun entry hentry =>
      (min_le_right _ _).trans (headTime_le hsecond entry hentry)
    have htells := ih (hfirst.after time) (hsecond.after time)
      (fun entry hentry => hstop1 entry ((List.dropWhile_sublist _).subset hentry))
      (fun entry hentry => hstop2 entry ((List.dropWhile_sublist _).subset hentry))
    have hlater : ∀ t ∈ (rounds stop (after time first) (after time second)
        (latest time current1 first) (latest time current2 second)).map Round.time, time < t := by
      intro t ht
      rcases ((htells.mem t).mp ht).1 with hmem | hmem
      · obtain ⟨entry, hentry, rfl⟩ := List.mem_map.mp hmem
        exact lt_of_mem_after hfirst hge1 entry hentry
      · obtain ⟨entry, hentry, rfl⟩ := List.mem_map.mp hmem
        exact lt_of_mem_after hsecond hge2 entry hentry
    constructor
    · exact List.pairwise_cons.mpr ⟨hlater, htells.sorted⟩
    · intro t
      rw [List.map_cons, List.mem_cons, htells.mem]
      by_cases ht : t = time
      · subst ht
        refine iff_of_true (.inl rfl) ⟨?_, hstop⟩
        rcases min_choice (headTime stop first) (headTime stop second) with hmin | hmin
        · have heq : time = headTime stop first := hmin
          exact .inl (heq ▸ headTime_mem (heq ▸ hstop))
        · have heq : time = headTime stop second := hmin
          exact .inr (heq ▸ headTime_mem (heq ▸ hstop))
      · rw [mem_fst_iff hfirst hge1 ht, mem_fst_iff hsecond hge2 ht]
        exact or_iff_right ht
    · intro round hround
      rcases List.mem_cons.mp hround with rfl | hround
      · exact ⟨(valueAt_head hfirst hge1).symm, (valueAt_head hsecond hge2).symm⟩
      · obtain ⟨hvalue1, hvalue2⟩ := htells.values round hround
        have hle := (hlater _ (List.mem_map_of_mem hround)).le
        rw [valueAt_after hle] at hvalue1 hvalue2
        exact ⟨hvalue1, hvalue2⟩

/-- **The rounds of a merge of sorted timelines** are the distinct times before
`stop`, each with the last values at or before it. -/
theorem rounds_eq_times (hfirst : Ordered first) (hsecond : Ordered second)
    (hstop1 : ∀ entry ∈ first, entry.1 ≤ stop) (hstop2 : ∀ entry ∈ second, entry.1 ≤ stop) :
    rounds stop first second current1 current2 =
      ((times first second).filter (· ≠ stop)).map fun t =>
        ⟨t, valueAt t current1 first, valueAt t current2 second⟩ := by
  have htells : Tells stop first second current1 current2
      (rounds stop first second current1 current2) :=
    rounds_tells hfirst hsecond hstop1 hstop2
  have htimes : (rounds stop first second current1 current2).map Round.time =
      (times first second).filter (· ≠ stop) := by
    refine htells.sorted.eq_of_mem_iff ((times_sorted first second).filter _) fun t => ?_
    rw [htells.mem, List.mem_filter, mem_times, decide_eq_true_eq]
  rw [← htimes, List.map_map]
  refine (List.map_id _).symm.trans (List.map_congr_left fun round hround => ?_)
  obtain ⟨hvalue1, hvalue2⟩ := htells.values round hround
  simp only [Function.comp_apply, ← hvalue1, ← hvalue2, id]

/-- A merge takes no more rounds than there are entries. -/
theorem length_rounds_le (stop : τ) (first : List (τ × α)) (second : List (τ × β)) (current1 : α)
    (current2 : β) :
    (rounds stop first second current1 current2).length ≤ first.length + second.length := by
  induction first, second, current1, current2 using rounds.induct stop with
  | case1 first second current1 current2 time hstop =>
    rw [rounds_stop hstop]
    exact Nat.zero_le _
  | case2 first second current1 current2 time hstop ih =>
    rw [rounds_cons rfl hstop, List.length_cons]
    exact Nat.lt_of_le_of_lt ih (length_after_lt stop rfl hstop)

end VcdTools.Lib.Merge
