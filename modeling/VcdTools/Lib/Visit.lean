import VcdTools.Lib.Iter

/-! # Visiting the items of an iterator

A visitor takes the values of a list of results one by one. It goes on, leaves,
or fails, and the first error of the list ends the visit. A loop over an
iterator with a visitor for its body visits what the iterator yields. -/
namespace VcdTools.Lib
open VcdTools.Lib.Iter

variable {σ τ β ε : Type*}

/-- A visit of `items`: whether the visitor went through all of them, and what
it has then. -/
def visit (visitor : τ → β → Except ε (Bool × τ)) : τ → List (Except ε β) → Except ε (Bool × τ)
  | visited, [] => .ok (true, visited)
  | _, .error e :: _ => .error e
  | visited, .ok b :: items =>
    match visitor visited b with
    | .error e => .error e
    | .ok (false, visited) => .ok (false, visited)
    | .ok (true, visited) => visit visitor visited items

variable {visitor : τ → β → Except ε (Bool × τ)} {visited visited' : τ}

@[simp] theorem visit_nil : visit visitor visited [] = .ok (true, visited) := rfl

@[simp] theorem visit_error (e : ε) (items : List (Except ε β)) :
    visit visitor visited (.error e :: items) = .error e := rfl

theorem visit_more {b : β} {items : List (Except ε β)}
    (h : visitor visited b = .ok (true, visited')) :
    visit visitor visited (.ok b :: items) = visit visitor visited' items := by
  simp [visit, h]

theorem visit_leave {b : β} {items : List (Except ε β)}
    (h : visitor visited b = .ok (false, visited')) :
    visit visitor visited (.ok b :: items) = .ok (false, visited') := by
  simp [visit, h]

theorem visit_fail {b : β} {items : List (Except ε β)} {e : ε}
    (h : visitor visited b = .error e) :
    visit visitor visited (.ok b :: items) = .error e := by
  simp [visit, h]

/-- A visitor that leaves does not see what comes after. -/
theorem visit_append_left {items : List (Except ε β)}
    (h : visit visitor visited items = .ok (false, visited')) (more : List (Except ε β)) :
    visit visitor visited (items ++ more) = .ok (false, visited') := by
  induction items generalizing visited with
  | nil => cases h
  | cons item items ih =>
    cases item with
    | error e => cases h
    | ok b =>
      rw [List.cons_append]
      cases hb : visitor visited b with
      | error e =>
        rw [visit_fail hb] at h
        cases h
      | ok step =>
        obtain ⟨_ | _, visited₁⟩ := step
        · rw [visit_leave hb] at h
          rw [visit_leave hb, h]
        · rw [visit_more hb] at h
          rw [visit_more hb]
          exact ih h

/-- **A visitor that always goes on** folds the values. -/
theorem visit_total (f : τ → β → τ) (visited : τ) (items : List (Except ε β)) :
    visit (fun visited b => .ok (true, f visited b)) visited items =
      (allOk items).map fun bs => (true, bs.foldl f visited) := by
  induction items generalizing visited with
  | nil => rfl
  | cons item items ih =>
    cases item with
    | error e => rfl
    | ok b =>
      rw [visit_more rfl, ih, allOk]
      cases allOk items <;> rfl

/-- A visitor that goes on or fails, on a list without errors. -/
theorem visit_map_ok (f : τ → β → Except ε τ) (visited : τ) (bs : List β) :
    visit (fun visited b => (f visited b).map (true, ·)) visited (bs.map .ok) =
      (bs.foldlM f visited).map (true, ·) := by
  induction bs generalizing visited with
  | nil => rfl
  | cons b bs ih =>
    rw [List.map_cons, List.foldlM_cons]
    cases hb : f visited b with
    | error e =>
      rw [visit_fail (by rw [hb]; rfl)]
      rfl
    | ok visited' =>
      rw [visit_more (by rw [hb]; rfl), ih]
      rfl

/-- A visitor that only goes on or fails goes through the values of a list without
errors, or does not end well. -/
theorem visit_ok_iff {f : τ → β → Except ε τ} {items : List (Except ε β)} {more : Bool} :
    visit (fun visited b => (f visited b).map (true, ·)) visited items = .ok (more, visited') ↔
      more = true ∧ ∃ bs : List β, items = bs.map .ok ∧ bs.foldlM f visited = .ok visited' := by
  constructor
  · intro h
    induction items generalizing visited with
    | nil =>
      cases h
      exact ⟨rfl, [], rfl, rfl⟩
    | cons item items ih =>
      cases item with
      | error e => cases h
      | ok b =>
        cases hb : f visited b with
        | error e =>
          rw [visit_fail (by rw [hb]; rfl)] at h
          cases h
        | ok visited₁ =>
          rw [visit_more (by rw [hb]; rfl)] at h
          obtain ⟨hmore, bs, rfl, hbs⟩ := ih h
          refine ⟨hmore, b :: bs, rfl, ?_⟩
          rw [List.foldlM_cons, hb]
          exact hbs
  · rintro ⟨rfl, bs, rfl, hbs⟩
    rw [visit_map_ok, hbs]
    rfl

/-! ## Visitors that may panic -/

/-- A visitor that leaves at once when it panics. -/
def unwinding (f : τ → β → Option (Except ε τ)) : Option τ → β → Except ε (Bool × Option τ)
  | none, _ => .ok (false, none)
  | some visited, b =>
    match f visited b with
    | none => .ok (false, none)
    | some result => result.map fun visited => (true, some visited)

/-- What a function comes to with a visitor that may panic. -/
def unwound {α : Type*} : Except ε (Option α) → Option (Except ε α)
  | .error e => some (.error e)
  | .ok visited => visited.map .ok

/-- A visitor behind a `catch_unwind`: a panic is an error. -/
def contained (caught : ε) (f : τ → β → Option (Except ε τ)) (visited : τ) (b : β) :
    Except ε (Bool × τ) :=
  ((f visited b).getD (.error caught)).map (true, ·)

section
variable {g : τ → β → Option τ} {bs : List β}

theorem unwound_eq_ok_iff {α : Type*} {result : Except ε (Option α)} {a : α} :
    unwound result = some (.ok a) ↔ result = .ok (some a) := by
  cases result with
  | error e => simp [unwound]
  | ok visited => cases visited <;> simp [unwound]

theorem unwinding_none {visited : τ} {b : β} (h : g visited b = none) :
    unwinding (fun visited b => (g visited b).map (Except.ok : τ → Except ε τ)) (some visited) b =
      .ok (false, none) := by
  simp [unwinding, h]

theorem unwinding_some {visited visited' : τ} {b : β} (h : g visited b = some visited') :
    unwinding (fun visited b => (g visited b).map (Except.ok : τ → Except ε τ)) (some visited) b =
      .ok (true, some visited') := by
  simp [unwinding, h, Except.map]

/-- A visit of values that a visitor may panic at. -/
theorem visit_unwinding (visited : τ) (bs : List β) :
    visit (unwinding fun visited b => (g visited b).map (Except.ok : τ → Except ε τ)) (some visited)
      (bs.map .ok) = .ok ((bs.foldlM g visited).isSome, bs.foldlM g visited) := by
  induction bs generalizing visited with
  | nil => rfl
  | cons b bs ih =>
    rw [List.map_cons, List.foldlM_cons]
    cases hb : g visited b with
    | none => exact visit_leave (unwinding_none hb)
    | some visited' =>
      rw [visit_more (unwinding_some hb)]
      exact ih visited'

/-- A visit that ends without a panic has gone through the values of a list without
errors. -/
theorem visit_unwinding_iff {items : List (Except ε β)} {more : Bool} :
    visit (unwinding fun visited b => (g visited b).map (Except.ok : τ → Except ε τ)) (some visited) items =
        .ok (more, some visited') ↔
      more = true ∧ ∃ bs : List β, items = bs.map .ok ∧ bs.foldlM g visited = some visited' := by
  constructor
  · intro h
    induction items generalizing visited with
    | nil =>
      cases h
      exact ⟨rfl, [], rfl, rfl⟩
    | cons item items ih =>
      cases item with
      | error e => cases h
      | ok b =>
        cases hb : g visited b with
        | none =>
          rw [visit_leave (unwinding_none hb)] at h
          cases h
        | some visited₁ =>
          rw [visit_more (unwinding_some hb)] at h
          obtain ⟨hmore, bs, rfl, hbs⟩ := ih h
          refine ⟨hmore, b :: bs, rfl, ?_⟩
          rw [List.foldlM_cons, hb]
          exact hbs
  · rintro ⟨rfl, bs, rfl, hbs⟩
    rw [visit_unwinding, hbs]
    rfl

/-- A visitor that neither panics nor fails folds the values. -/
theorem visit_unwinding_total (f : τ → β → τ) (visited : τ) (items : List (Except ε β)) :
    visit (unwinding fun visited b => some (.ok (f visited b))) (some visited) items =
      (allOk items).map fun bs => (true, some (bs.foldl f visited)) := by
  induction items generalizing visited with
  | nil => rfl
  | cons item items ih =>
    cases item with
    | error e => rfl
    | ok b =>
      rw [visit_more rfl, ih, allOk]
      cases allOk items <;> rfl

/-- Caught panics are errors of the visitor. -/
theorem foldlM_caught (caught : ε) (visited : τ) (bs : List β) :
    bs.foldlM (fun visited b => ((g visited b).map (Except.ok : τ → Except ε τ)).getD (.error caught))
      visited = ((bs.foldlM g visited).map .ok).getD (.error caught) := by
  induction bs generalizing visited with
  | nil => rfl
  | cons b bs ih =>
    rw [List.foldlM_cons, List.foldlM_cons]
    cases hb : g visited b with
    | none => rfl
    | some visited' => exact ih visited'

end

/-- **A list of results has a k-th match, ends before it, or breaks before it.** -/
theorem nth_cases (items : List (Except ε β)) (p : β → Bool) {k : Nat} (hk : 1 ≤ k) :
    (∃ (before : List β) (b : β) (after : List (Except ε β)),
        items = before.map .ok ++ .ok b :: after ∧ p b = true ∧
          (before.filter p).length + 1 = k) ∨
      (∃ bs : List β, items = bs.map .ok ∧ (bs.filter p).length < k) ∨
      ∃ (before : List β) (e : ε) (after : List (Except ε β)),
        items = before.map .ok ++ .error e :: after ∧ (before.filter p).length < k := by
  induction items generalizing k with
  | nil => exact .inr (.inl ⟨[], rfl, hk⟩)
  | cons item items ih =>
    cases item with
    | error error => exact .inr (.inr ⟨[], error, items, rfl, hk⟩)
    | ok row =>
      by_cases hrow : p row = true
      · by_cases hone : k = 1
        · exact .inl ⟨[], row, items, rfl, hrow, hone.symm⟩
        · obtain ⟨k, rfl⟩ : ∃ k', k = k' + 1 := ⟨k - 1, by omega⟩
          have hlength : ∀ rows, ((row :: rows).filter p).length = (rows.filter p).length + 1 := by
            intro rows
            rw [List.filter_cons_of_pos hrow, List.length_cons]
          rcases ih (k := k) (by omega) with ⟨before, hit, after, rfl, hhit, hcount⟩ |
            ⟨rows, rfl, hcount⟩ | ⟨before, error, after, rfl, hcount⟩
          · exact .inl ⟨row :: before, hit, after, rfl, hhit, by rw [hlength, hcount]⟩
          · exact .inr (.inl ⟨row :: rows, rfl, by rw [hlength]; omega⟩)
          · exact .inr (.inr ⟨row :: before, error, after, rfl, by rw [hlength]; omega⟩)
      · have hsame : ∀ rows, (row :: rows).filter p = rows.filter p :=
          fun rows => List.filter_cons_of_neg hrow
        rcases ih hk with ⟨before, hit, after, rfl, hhit, hcount⟩ |
          ⟨rows, rfl, hcount⟩ | ⟨before, error, after, rfl, hcount⟩
        · exact .inl ⟨row :: before, hit, after, rfl, hhit, by rw [hsame, hcount]⟩
        · exact .inr (.inl ⟨row :: rows, rfl, by rw [hsame]; exact hcount⟩)
        · exact .inr (.inr ⟨row :: before, error, after, rfl, by rw [hsame]; exact hcount⟩)

/-! ## Loops over an iterator -/

/-- `while let Some(item) = iter.next() { … item? … }`: the visitor is the body
of the loop. The iterator is left as it is when the loop ends. -/
def iterate (next : σ → Option (Except ε β) × σ) (size : σ → Nat × Nat)
    (shrinks : ∀ s b s', next s = (some (.ok b), s') →
      Prod.Lex (· < ·) (· < ·) (size s') (size s))
    (visitor : τ → β → Except ε (Bool × τ)) (visited : τ) (s : σ) : Except ε (Bool × τ × σ) :=
  match h : next s with
  | (none, s') => .ok (true, visited, s')
  | (some (.error e), _) => .error e
  | (some (.ok b), s') =>
    have := shrinks s b s' h
    match visitor visited b with
    | .error e => .error e
    | .ok (false, visited) => .ok (false, visited, s')
    | .ok (true, visited) => iterate next size shrinks visitor visited s'
termination_by size s
decreasing_by assumption

variable {next : σ → Option (Except ε β) × σ} {size : σ → Nat × Nat}

section
variable (shrinks : ∀ s b s', next s = (some (.ok b), s') →
  Prod.Lex (· < ·) (· < ·) (size s') (size s))

theorem iterate_none {s s' : σ} (h : next s = (none, s')) :
    iterate next size shrinks visitor visited s = .ok (true, visited, s') := by
  rw [iterate]
  split <;> rename_i heq <;> rw [h] at heq <;> cases heq
  rfl

theorem iterate_error {s s' : σ} {e : ε} (h : next s = (some (.error e), s')) :
    iterate next size shrinks visitor visited s = .error e := by
  rw [iterate]
  split <;> rename_i heq <;> rw [h] at heq <;> cases heq
  rfl

theorem iterate_ok {s s' : σ} {b : β} (h : next s = (some (.ok b), s')) :
    iterate next size shrinks visitor visited s =
      match visitor visited b with
      | .error e => .error e
      | .ok (false, visited) => .ok (false, visited, s')
      | .ok (true, visited) => iterate next size shrinks visitor visited s' := by
  rw [iterate]
  split <;> rename_i heq <;> rw [h] at heq <;> cases heq
  rfl

/-- **A loop visits what its iterator yields.** -/
theorem iterate_of_yields {s : σ} {items : List (Except ε β)} (h : Yields next s items) :
    (iterate next size shrinks visitor visited s).map (fun ended => (ended.1, ended.2.1)) =
      visit visitor visited items := by
  induction items generalizing s visited with
  | nil =>
    have hnone : next s = (none, (next s).2) := Prod.ext (h 0) rfl
    rw [iterate_none shrinks hnone]
    rfl
  | cons item items ih =>
    have hsome : next s = (some item, (next s).2) := Prod.ext h.head rfl
    cases item with
    | error e =>
      rw [iterate_error shrinks hsome]
      rfl
    | ok b =>
      rw [iterate_ok shrinks hsome]
      cases hb : visitor visited b with
      | error e =>
        rw [visit_fail hb]
        rfl
      | ok step =>
        obtain ⟨_ | _, visited'⟩ := step
        · rw [visit_leave hb]
          rfl
        · rw [visit_more hb]
          exact ih h.tail

/-- What every call keeps holds of the iterator that a loop leaves. -/
theorem iterate_keeps {P : σ → Prop} (hnext : ∀ s, P s → P (next s).2) {visited visited' : τ}
    {s s' : σ} {more : Bool} (hs : P s)
    (h : iterate next size shrinks visitor visited s = .ok (more, visited', s')) : P s' := by
  cases hcall : next s with
  | mk answer s₁ =>
    have hs₁ : P s₁ := by
      have hafter := hnext s hs
      rwa [hcall] at hafter
    cases answer with
    | none =>
      rw [iterate_none shrinks hcall] at h
      cases h
      exact hs₁
    | some item =>
      cases item with
      | error e =>
        rw [iterate_error shrinks hcall] at h
        cases h
      | ok b =>
        have hless := shrinks s b s₁ hcall
        rw [iterate_ok shrinks hcall] at h
        cases hb : visitor visited b with
        | error e =>
          rw [hb] at h
          cases h
        | ok step =>
          obtain ⟨_ | _, visited₁⟩ := step
          · rw [hb] at h
            cases h
            exact hs₁
          · rw [hb] at h
            change iterate next size shrinks visitor visited₁ s₁ = _ at h
            exact iterate_keeps hnext hs₁ h
termination_by size s
decreasing_by exact hless

/-- **A loop that leaves** leaves in the same way when its iterator is another
one that answers the same values for as long as this one answers values. -/
theorem iterate_leave {R : σ → σ → Prop}
    (hnext : ∀ s t b s', R s t → next s = (some (.ok b), s') →
      ∃ t', next t = (some (.ok b), t') ∧ R s' t')
    {visited visited' : τ} {s t s' : σ} (hR : R s t)
    (h : iterate next size shrinks visitor visited s = .ok (false, visited', s')) :
    ∃ t', iterate next size shrinks visitor visited t = .ok (false, visited', t') ∧ R s' t' := by
  cases hs : next s with
  | mk answer s₁ =>
    cases answer with
    | none =>
      rw [iterate_none shrinks hs] at h
      cases h
    | some item =>
      cases item with
      | error e =>
        rw [iterate_error shrinks hs] at h
        cases h
      | ok b =>
        have hless := shrinks s b s₁ hs
        obtain ⟨t₁, ht, hR₁⟩ := hnext s t b s₁ hR hs
        rw [iterate_ok shrinks hs] at h
        rw [iterate_ok shrinks ht]
        cases hb : visitor visited b with
        | error e =>
          rw [hb] at h
          cases h
        | ok step =>
          obtain ⟨_ | _, visited₁⟩ := step
          · rw [hb] at h
            cases h
            exact ⟨t₁, rfl, hR₁⟩
          · rw [hb] at h
            change iterate next size shrinks visitor visited₁ s₁ = _ at h
            exact iterate_leave hnext hR₁ h
termination_by size s
decreasing_by exact hless

end

/-- **Every iterator that is done once it does not answer a value** yields some
list. -/
theorem exists_yields (hshrinks : ∀ s b s', next s = (some (.ok b), s') →
      Prod.Lex (· < ·) (· < ·) (size s') (size s))
    {P : σ → Prop} (hstep : ∀ s, P s → P (next s).2)
    (hdone : ∀ s, P s → (∀ b, (next s).1 ≠ some (.ok b)) →
      ∀ n, answer next (next s).2 n = none) (s : σ) (hs : P s) :
    ∃ items, Yields next s items := by
  by_cases hok : ∃ b, (next s).1 = some (.ok b)
  · obtain ⟨b, hb⟩ := hok
    have hless := hshrinks s b (next s).2 (Prod.ext hb rfl)
    obtain ⟨items, hitems⟩ := exists_yields hshrinks hstep hdone (next s).2 (hstep s hs)
    refine ⟨.ok b :: items, fun n => ?_⟩
    cases n with
    | zero => exact hb
    | succ n => exact hitems n
  · have hrest := hdone s hs fun b hb => hok ⟨b, hb⟩
    refine ⟨(next s).1.toList, fun n => ?_⟩
    cases hnext : (next s).1 with
    | none =>
      cases n with
      | zero => exact hnext
      | succ n => exact hrest n
    | some item =>
      cases n with
      | zero => exact hnext
      | succ n => exact hrest n
termination_by size s
decreasing_by exact hless

end VcdTools.Lib
