import Mathlib.Init

/-! # Fallible computations

Peeling `do` blocks of `Except`: a block answers a value exactly when its parts
do. A loop that stops at an error is a total loop, cut where a check first
fails. -/
namespace VcdTools.Lib.Fallible

universe u
variable {ε ε' : Type*} {α β : Type u} {x : Except ε α} {f : α → Except ε β} {b : β}

theorem bind_ok_iff : x >>= f = .ok b ↔ ∃ a, x = .ok a ∧ f a = .ok b := by
  cases x with
  | error e => exact ⟨fun h => (by cases h), fun ⟨_, h, _⟩ => (by cases h)⟩
  | ok a => exact ⟨fun h => ⟨a, rfl, h⟩, fun ⟨_, h, hf⟩ => (by cases h; exact hf)⟩

theorem map_ok_iff {g : α → β} : x.map g = .ok b ↔ ∃ a, x = .ok a ∧ g a = b := by
  cases x with
  | error e => exact ⟨fun h => (by cases h), fun ⟨_, h, _⟩ => (by cases h)⟩
  | ok a => exact ⟨fun h => ⟨a, rfl, Except.ok.inj h⟩, fun ⟨_, h, hg⟩ => (by cases h; rw [← hg]; rfl)⟩

theorem mapError_ok_iff {g : ε → ε'} {a : α} : x.mapError g = .ok a ↔ x = .ok a := by
  cases x with
  | error e => exact ⟨fun h => (by cases h), fun h => (by cases h)⟩
  | ok a => exact ⟨fun h => congrArg _ (Except.ok.inj h), fun h => congrArg _ (Except.ok.inj h)⟩

/-- A refusal in front of an answer. -/
theorem refusal_ok_iff {c : Prop} [Decidable c] {e : ε} {y : Except ε β} :
    (if c then .error e else y) = .ok b ↔ ¬ c ∧ y = .ok b := by
  by_cases hc : c
  · simp [hc]
  · simp [hc]

/-- A check in front of the rest of a block. -/
theorem guard_ok_iff {c : Prop} [Decidable c] {e : ε} {y : Except ε β} :
    (if c then (throw e : Except ε α) >>= f else y) = .ok b ↔ ¬ c ∧ y = .ok b :=
  refusal_ok_iff

/-- A check at the end of a block. -/
theorem check_ok_iff {c : Prop} [Decidable c] {e : ε} {y : Except ε β} :
    (if c then (throw e : Except ε β) else y) = .ok b ↔ ¬ c ∧ y = .ok b :=
  refusal_ok_iff

/-! ## Loops with a check -/

section
variable {σ τ ι : Type*} (next : τ → ι → τ) (stop : τ → ι → Option ε)

/-- The first failure of a check along a total loop. -/
def firstStop : τ → List ι → Option ε
  | _, [] => none
  | t, i :: items =>
    match stop t i with
    | some e => some e
    | none => firstStop (next t i) items

variable {next stop}

theorem firstStop_append (t : τ) (before items : List ι) : firstStop next stop t (before ++ items) =
    (firstStop next stop t before).or (firstStop next stop (before.foldl next t) items) := by
  induction before generalizing t with
  | nil => rfl
  | cons i before ih =>
    rw [List.cons_append, firstStop, firstStop]
    cases stop t i with
    | some e => rfl
    | none => exact ih (next t i)

/-- **Where the check first fails.** -/
theorem firstStop_eq_some_iff {t : τ} {items : List ι} {e : ε} :
    firstStop next stop t items = some e ↔ ∃ before i after, items = before ++ i :: after ∧
      firstStop next stop t before = none ∧ stop (before.foldl next t) i = some e := by
  constructor
  · intro h
    induction items generalizing t with
    | nil => cases h
    | cons i items ih =>
      rw [firstStop] at h
      cases hstop : stop t i with
      | some e' =>
        rw [hstop] at h
        cases h
        exact ⟨[], i, items, rfl, rfl, hstop⟩
      | none =>
        rw [hstop] at h
        obtain ⟨before, j, after, rfl, hnone, hfail⟩ := ih h
        refine ⟨i :: before, j, after, rfl, ?_, hfail⟩
        rw [firstStop, hstop]
        exact hnone
  · intro ⟨before, i, after, hitems, hnone, hfail⟩
    rw [hitems, firstStop_append, hnone, Option.none_or, firstStop, hfail]

/-- **A loop that simulates a checked one** ends as it does. -/
theorem foldlM_checked {step : σ → ι → Except ε σ} (rep : τ → σ)
    (hstep : ∀ t i, step (rep t) i = (stop t i).elim (.ok (rep (next t i))) .error) (t : τ)
    (items : List ι) : items.foldlM step (rep t) =
      (firstStop next stop t items).elim (.ok (rep (items.foldl next t))) .error := by
  induction items generalizing t with
  | nil => rfl
  | cons i items ih =>
    rw [List.foldlM_cons, hstep, firstStop]
    cases stop t i with
    | some e => rfl
    | none => exact ih (next t i)

end

/-- A loop whose rounds all answer collects what they answer. -/
theorem mapM_map_eq_pure {m : Type u → Type*} [Monad m] [LawfulMonad m] {α' : Type*}
    {items : List α'} {g : α' → α} {f : α → m β} {answer : α' → β}
    (h : ∀ item ∈ items, f (g item) = pure (answer item)) :
    (items.map g).mapM f = pure (items.map answer) := by
  induction items with
  | nil => rfl
  | cons item items ih =>
    rw [List.map_cons, List.mapM_cons, h item List.mem_cons_self, pure_bind,
      ih fun i hi => h i (List.mem_cons_of_mem _ hi), pure_bind]
    rfl

theorem mapM_map_eq_some {α' : Type*} {items : List α'} {g : α' → α} {f : α → Option β}
    {answer : α' → β} (h : ∀ item ∈ items, f (g item) = some (answer item)) :
    (items.map g).mapM f = some (items.map answer) :=
  mapM_map_eq_pure h

theorem mapM_eq_ok {items : List α} {answer : α → β}
    (h : ∀ item ∈ items, f item = .ok (answer item)) :
    items.mapM f = .ok (items.map answer) := by
  have hall := mapM_map_eq_pure (g := id) h
  rwa [List.map_id] at hall

/-! ## Loops that some items stop -/

section
variable {P : ι → Prop} [DecidablePred P]

/-- A fold that goes on at the items of one kind. -/
theorem foldlM_option {next : τ → ι → Option τ} {f : τ → ι → τ}
    (h : ∀ t i, next t i = if P i then some (f t i) else none) (t : τ) (items : List ι) :
    items.foldlM next t = if ∀ i ∈ items, P i then some (items.foldl f t) else none := by
  induction items generalizing t with
  | nil => rfl
  | cons i items ih =>
    rw [List.foldlM_cons, h]
    by_cases hi : P i
    · rw [if_pos hi]
      refine (ih (f t i)).trans ?_
      by_cases hitems : ∀ i ∈ items, P i
      · rw [if_pos hitems, if_pos (List.forall_mem_cons.mpr ⟨hi, hitems⟩), List.foldl_cons]
      · rw [if_neg hitems, if_neg fun hall => hitems (List.forall_mem_cons.mp hall).2]
    · rw [if_neg hi]
      exact (if_neg fun hall => hi (hall i List.mem_cons_self)).symm

theorem mapM_option {β : Type*} {next : ι → Option β} {f : ι → β}
    (h : ∀ i, next i = if P i then some (f i) else none) (items : List ι) :
    items.mapM next = if ∀ i ∈ items, P i then some (items.map f) else none := by
  induction items with
  | nil => rfl
  | cons i items ih =>
    rw [List.mapM_cons, h, ih]
    by_cases hi : P i
    · by_cases hitems : ∀ i ∈ items, P i
      · rw [if_pos hi, if_pos hitems, if_pos (List.forall_mem_cons.mpr ⟨hi, hitems⟩)]
        rfl
      · rw [if_pos hi, if_neg hitems, if_neg fun hall => hitems (List.forall_mem_cons.mp hall).2]
        rfl
    · rw [if_neg hi]
      exact (if_neg fun hall => hi (hall i List.mem_cons_self)).symm

end

end VcdTools.Lib.Fallible
