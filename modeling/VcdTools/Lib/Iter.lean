import Mathlib.Data.List.Basic
import Mathlib.Data.Prod.Lex

/-! # Iterators by what their calls answer

An iterator is a state and a `next` that answers `some` item or `none` and
leaves a new state. What it yields is told by the answer of every single call,
so a list of items also says that each call past its end answers `none`. -/
namespace VcdTools.Lib.Iter

variable {σ β ε γ : Type*}

/-- The state after `n` calls. -/
def after (next : σ → Option β × σ) : Nat → σ → σ
  | 0, s => s
  | n + 1, s => after next n (next s).2

/-- What the call after `n` earlier ones answers. -/
def answer (next : σ → Option β × σ) (s : σ) (n : Nat) : Option β := (next (after next n s)).1

/-- The calls answer `items` one by one, and `none` from then on. -/
def Yields (next : σ → Option β × σ) (s : σ) (items : List β) : Prop :=
  ∀ n, answer next s n = items[n]?

variable {next : σ → Option β × σ} {s : σ} {items : List β}

/-- What an iterator yields is determined. -/
theorem Yields.unique {items' : List β} (h : Yields next s items) (h' : Yields next s items') :
    items = items' :=
  List.ext_getElem? fun n => (h n).symm.trans (h' n)

/-- A relation between what was answered, what is to come and the state holds
after every call when every call answers the first item to come and keeps the
relation. -/
theorem after_of_simulation {R : List β → List β → σ → Prop}
    (hstep : ∀ done todo s, R done todo s →
      (next s).1 = todo.head? ∧ R (done ++ todo.take 1) (todo.drop 1) (next s).2) :
    ∀ (n : Nat) (done todo : List β) (s : σ), R done todo s →
      R (done ++ todo.take n) (todo.drop n) (after next n s)
  | 0, done, todo, s, h => by
    simpa [after] using h
  | n + 1, done, todo, s, h => by
    have hrest := after_of_simulation hstep n _ _ _ (hstep done todo s h).2
    rw [List.append_assoc, List.drop_drop, Nat.add_comm 1 n] at hrest
    have htake : todo.take 1 ++ (todo.drop 1).take n = todo.take (n + 1) := by
      rw [Nat.add_comm n 1, List.take_add]
    rwa [htake] at hrest

/-- **The simulation rule**: an iterator related to a list of items to come
yields it. -/
theorem yields_of_simulation {R : List β → List β → σ → Prop}
    (hstep : ∀ done todo s, R done todo s →
      (next s).1 = todo.head? ∧ R (done ++ todo.take 1) (todo.drop 1) (next s).2)
    (h : R [] items s) : Yields next s items := by
  intro n
  have hafter := after_of_simulation hstep n [] items s h
  rw [answer, (hstep _ _ _ hafter).1, List.head?_drop]

theorem Yields.head {item : β} (h : Yields next s (item :: items)) : (next s).1 = some item := h 0

theorem Yields.tail {item : β} (h : Yields next s (item :: items)) : Yields next (next s).2 items :=
  fun n => h (n + 1)

/-- An iterator whose items are mapped yields the mapped items. -/
theorem Yields.map (h : Yields next s items) (f : β → γ) :
    Yields (fun s => ((next s).1.map f, (next s).2)) s (items.map f) := by
  have hafter : ∀ n s, after (fun s => ((next s).1.map f, (next s).2)) n s = after next n s := by
    intro n
    induction n with
    | zero => exact fun _ => rfl
    | succ n ih => exact fun s => ih (next s).2
  intro n
  rw [List.getElem?_map, ← h n, answer, answer, hafter]

/-! ## Running to the end -/

/-- A list of results as the result of its values. -/
def allOk : List (Except ε β) → Except ε (List β)
  | [] => .ok []
  | .ok b :: rest => (allOk rest).map (b :: ·)
  | .error e :: _ => .error e

/-- `for item in iter { items.push(item?) }`, over an iterator that gets smaller
with each value it answers. -/
def collect (next : σ → Option (Except ε β) × σ) (size : σ → Nat × Nat)
    (shrinks : ∀ s b s', next s = (some (.ok b), s') →
      Prod.Lex (· < ·) (· < ·) (size s') (size s)) (s : σ) : Except ε (List β) :=
  match h : next s with
  | (none, _) => .ok []
  | (some (.error e), _) => .error e
  | (some (.ok b), s') =>
    have := shrinks s b s' h
    (collect next size shrinks s').map (b :: ·)
termination_by size s
decreasing_by assumption

/-- **Collecting** an iterator gives the result of what it yields. -/
theorem collect_of_yields {next : σ → Option (Except ε β) × σ} {size : σ → Nat × Nat}
    (shrinks : ∀ s b s', next s = (some (.ok b), s') →
      Prod.Lex (· < ·) (· < ·) (size s') (size s))
    {s : σ} {items : List (Except ε β)} (h : Yields next s items) :
    collect next size shrinks s = allOk items := by
  induction items generalizing s with
  | nil =>
    have hnone : (next s).1 = none := h 0
    rw [collect]
    split
    · rfl
    · rename_i heq
      rw [heq] at hnone
      cases hnone
    · rename_i heq
      rw [heq] at hnone
      cases hnone
  | cons item items ih =>
    have hsome := h.head
    have hrest := ih h.tail
    rw [collect]
    split
    · rename_i heq
      rw [heq] at hsome
      cases hsome
    · rename_i heq
      rw [heq] at hsome
      cases hsome
      rfl
    · rename_i heq
      rw [heq] at hsome hrest
      cases hsome
      rw [hrest]
      rfl

@[simp] theorem allOk_map_ok (bs : List β) : allOk (bs.map (Except.ok : β → Except ε β)) = .ok bs := by
  induction bs with
  | nil => rfl
  | cons b bs ih =>
    rw [List.map_cons, allOk, ih]
    rfl

/-- The values of a list of results that has no error. -/
theorem allOk_eq_ok {items : List (Except ε β)} {bs : List β} :
    allOk items = .ok bs ↔ items = bs.map .ok := by
  constructor
  · intro h
    induction items generalizing bs with
    | nil =>
      cases h
      rfl
    | cons item items ih =>
      cases item with
      | error e => cases h
      | ok b =>
        rw [allOk] at h
        cases hrest : allOk items with
        | error e =>
          rw [hrest] at h
          cases h
        | ok rest =>
          rw [hrest] at h
          cases h
          rw [List.map_cons, ih hrest]
  · intro h
    rw [h, allOk_map_ok]

/-! ## Lists of results -/

/-- A list of results up to its first error, that error included. -/
def untilError : List (Except ε β) → List (Except ε β)
  | [] => []
  | .ok b :: rest => .ok b :: untilError rest
  | .error e :: _ => [.error e]

@[simp] theorem untilError_nil : untilError ([] : List (Except ε β)) = [] := rfl

@[simp] theorem untilError_ok (b : β) (rest : List (Except ε β)) :
    untilError (.ok b :: rest) = .ok b :: untilError rest := rfl

@[simp] theorem untilError_error (e : ε) (rest : List (Except ε β)) :
    untilError (.error e :: rest) = [.error e] := rfl

@[simp] theorem untilError_map_ok (bs : List β) (rest : List (Except ε β)) :
    untilError (bs.map .ok ++ rest) = bs.map .ok ++ untilError rest := by
  induction bs with
  | nil => rfl
  | cons b bs ih => simp [ih]

end VcdTools.Lib.Iter
