import Mathlib.Init

/-! # Programs that call a service

A `Proc` does finitely many calls, each chosen from the answers so far, and
then returns, fails or panics. `Meets` is its weakest precondition against a
service that may answer in several ways: `I` holds in every state on the way,
`C` of every call and `Q` of the result. -/
namespace VcdTools.Lib

inductive Proc (ι ο ε α : Type)
  | done (result : Except ε α)
  | panic
  | call (request : ι) (next : ο → Proc ι ο ε α)

namespace Proc
variable {ι ο ε ε' α β σ : Type}

def bind : Proc ι ο ε α → (α → Proc ι ο ε β) → Proc ι ο ε β
  | .done (.ok a), f => f a
  | .done (.error e), _ => .done (.error e)
  | .panic, _ => .panic
  | .call request next, f => .call request fun answer => (next answer).bind f

instance : Monad (Proc ι ο ε) where
  pure a := .done (.ok a)
  bind := bind

/-- The `?` on a value that is already there. -/
def lift (result : Except ε α) : Proc ι ο ε α := .done result

/-- The answer of a callee that panics where it has none. -/
def attempt : Option (Except ε α) → Proc ι ο ε α
  | none => .panic
  | some result => .lift result

def fail (error : ε) : Proc ι ο ε α := .done (.error error)

def mapError (f : ε → ε') : Proc ι ο ε α → Proc ι ο ε' α
  | .done (.ok a) => .done (.ok a)
  | .done (.error e) => .done (.error (f e))
  | .panic => .panic
  | .call request next => .call request fun answer => (next answer).mapError f

/-- A loop over a list; the first failure of its body ends it. -/
def fold {τ ρ : Type} (body : τ → ρ → Proc ι ο ε τ) : τ → List ρ → Proc ι ο ε τ
  | t, [] => .done (.ok t)
  | t, item :: items => (body t item).bind fun t' => fold body t' items

/-- A postcondition from its two cases. -/
def onResult (ok : α → σ → Prop) (error : ε → σ → Prop) : Except ε α → σ → Prop
  | .ok a => ok a
  | .error e => error e

/-- `serve s request answer s'`: the service may answer so and end up there. -/
inductive Meets (serve : σ → ι → ο → σ → Prop) (I : σ → Prop) (C : σ → ι → Prop)
    (Q : Except ε α → σ → Prop) (E : σ → Prop) : Proc ι ο ε α → σ → Prop
  | done {result s} : I s → Q result s → Meets serve I C Q E (.done result) s
  | panic {s} : I s → E s → Meets serve I C Q E .panic s
  | call {request next s} : I s → C s request →
      (∀ answer s', serve s request answer s' → Meets serve I C Q E (next answer) s') →
      Meets serve I C Q E (.call request next) s

variable {serve : σ → ι → ο → σ → Prop} {I : σ → Prop} {C : σ → ι → Prop}
  {Q R : Except ε α → σ → Prop} {E : σ → Prop} {s : σ}

@[simp] theorem pure_eq (a : α) : (pure a : Proc ι ο ε α) = .done (.ok a) := rfl

@[simp] theorem bind_eq (p : Proc ι ο ε α) (f : α → Proc ι ο ε β) : p >>= f = p.bind f := rfl

@[simp] theorem bind_ok (a : α) (f : α → Proc ι ο ε β) :
    (Proc.done (.ok a) : Proc ι ο ε α).bind f = f a := rfl

@[simp] theorem bind_error (e : ε) (f : α → Proc ι ο ε β) :
    (Proc.done (.error e) : Proc ι ο ε α).bind f = .done (.error e) := rfl

theorem meets_fail {error : ε} (hi : I s) (hq : Q (.error error) s) :
    (fail error : Proc ι ο ε α).Meets serve I C Q E s := .done hi hq

/-- The `?` on a value: its error ends the program. -/
theorem meets_lift_bind {result : Except ε α} {f : α → Proc ι ο ε β} {Q : Except ε β → σ → Prop}
    (hi : I s) (hok : ∀ a, result = .ok a → (f a).Meets serve I C Q E s)
    (herror : ∀ e, result = .error e → Q (.error e) s) :
    ((lift result).bind f).Meets serve I C Q E s := by
  cases result with
  | ok a => exact hok a rfl
  | error e => exact .done hi (herror e rfl)

theorem Meets.inv {p : Proc ι ο ε α} (h : p.Meets serve I C Q E s) : I s := by
  cases h with
  | done hi _ | panic hi _ | call hi _ _ => exact hi

theorem Meets.mono {p : Proc ι ο ε α} (h : p.Meets serve I C Q E s)
    (hqr : ∀ result s', I s' → Q result s' → R result s') : p.Meets serve I C R E s := by
  induction h with
  | done hi hq => exact .done hi (hqr _ _ hi hq)
  | panic hi he => exact .panic hi he
  | call hi hc _ ih => exact .call hi hc ih

/-- A program that never panics may be said to panic anywhere. -/
theorem Meets.loud {p : Proc ι ο ε α} (h : p.Meets serve I C Q (fun _ => False) s) :
    p.Meets serve I C Q E s := by
  induction h with
  | done hi hq => exact .done hi hq
  | panic _ he => exact he.elim
  | call hi hc _ ih => exact .call hi hc ih

/-- Sequencing: what the first part guarantees is what the second needs. -/
theorem meets_bind {p : Proc ι ο ε α} {f : α → Proc ι ο ε β} {Q : Except ε β → σ → Prop}
    (h : p.Meets serve I C (onResult (fun a => (f a).Meets serve I C Q E)
      fun e => Q (.error e)) E s) : (p.bind f).Meets serve I C Q E s := by
  induction h with
  | @done result _ hi hq =>
    cases result with
    | ok a => exact hq
    | error e => exact .done hi hq
  | panic hi he => exact .panic hi he
  | call hi hc _ ih => exact .call hi hc ih

theorem meets_mapError {p : Proc ι ο ε α} {g : ε → ε'} {Q : Except ε' α → σ → Prop}
    (h : p.Meets serve I C (fun result => Q (result.mapError g)) E s) :
    (p.mapError g).Meets serve I C Q E s := by
  induction h with
  | @done result _ hi hq => cases result <;> exact .done hi hq
  | panic hi he => exact .panic hi he
  | call hi hc _ ih => exact .call hi hc ih

/-- The loop rule: `R` relates what is left of the list to the loop's state. -/
theorem meets_fold {τ ρ : Type} {body : τ → ρ → Proc ι ο ε τ} {R : List ρ → τ → σ → Prop}
    {F : ε → σ → Prop}
    (hi : ∀ t s, R [] t s → I s)
    (hbody : ∀ item items t s, R (item :: items) t s →
      (body t item).Meets serve I C (onResult (R items) F) E s)
    (items : List ρ) : ∀ t s, R items t s →
      (fold body t items).Meets serve I C (onResult (R []) F) E s := by
  induction items with
  | nil => exact fun t s hr => .done (hi t s hr) hr
  | cons item items ih =>
    intro t s hr
    refine meets_bind ((hbody item items t s hr).mono fun result s' _ hq => ?_)
    cases result with
    | ok t' => exact ih t' s' hq
    | error e => exact hq

/-! ## Runs under given answers -/

/-- The program left once its calls got these answers. -/
def after : List ο → Proc ι ο ε α → Option (Proc ι ο ε α)
  | [], p => some p
  | answer :: answers, .call _ next => after answers (next answer)
  | _ :: _, .done _ | _ :: _, .panic => none

theorem after_append (as bs : List ο) (p : Proc ι ο ε α) :
    after (as ++ bs) p = (after as p).bind (after bs) := by
  induction as generalizing p with
  | nil => rfl
  | cons a as ih =>
    cases p with
    | call request next => exact ih (next a)
    | done _ | panic => rfl

theorem after_bind {as : List ο} {p q : Proc ι ο ε α} (h : after as p = some q)
    (f : α → Proc ι ο ε β) : after as (p.bind f) = some (q.bind f) := by
  induction as generalizing p with
  | nil => exact congrArg _ (congrArg (bind · f) (Option.some.inj h))
  | cons a as ih =>
    cases p with
    | call request next => exact ih h
    | done _ | panic => cases h

theorem after_mapError {as : List ο} {p q : Proc ι ο ε α} (h : after as p = some q)
    (g : ε → ε') : after as (p.mapError g) = some (q.mapError g) := by
  induction as generalizing p with
  | nil => exact congrArg _ (congrArg (mapError g) (Option.some.inj h))
  | cons a as ih =>
    cases p with
    | call request next => exact ih h
    | done _ | panic => cases h

/-- A first part that is through hands its value on. -/
theorem after_bind_ok {as bs : List ο} {p : Proc ι ο ε α} {a : α} {f : α → Proc ι ο ε β}
    (h : after as p = some (.done (.ok a))) : after (as ++ bs) (p.bind f) = after bs (f a) := by
  rw [after_append, after_bind h]
  rfl

theorem bind_pure (p : Proc ι ο ε α) : p.bind pure = p := by
  induction p with
  | done result => cases result <;> rfl
  | panic => rfl
  | call request next ih => exact congrArg (call request) (funext ih)

theorem bind_assoc {γ : Type} (p : Proc ι ο ε α) (f : α → Proc ι ο ε β)
    (g : β → Proc ι ο ε γ) : (p.bind f).bind g = p.bind fun a => (f a).bind g := by
  induction p with
  | done result => cases result <;> rfl
  | panic => rfl
  | call request next ih => exact congrArg (call request) (funext ih)

theorem fold_append {τ ρ : Type} (body : τ → ρ → Proc ι ο ε τ) (t : τ) (xs ys : List ρ) :
    fold body t (xs ++ ys) = (fold body t xs).bind fun t' => fold body t' ys := by
  induction xs generalizing t with
  | nil => rfl
  | cons x xs ih =>
    rw [List.cons_append, fold, fold, bind_assoc]
    exact congrArg _ (funext ih)

/-! ## What a program asks for -/

section Asks
variable {δ γ : Type}

/-- Every call of the program is one of `K`, and it fails at the first one that
is refused. -/
inductive Asks (K : ι → Prop) : Proc ι (Except δ γ) ε α → Prop
  | done {result} : Asks K (.done result)
  | panic : Asks K .panic
  | call {request next} : K request → (∀ e, ∃ e', next (.error e) = .done (.error e')) →
      (∀ c, Asks K (next (.ok c))) → Asks K (.call request next)

variable {K : ι → Prop}

theorem Asks.bind {p : Proc ι (Except δ γ) ε α} (h : p.Asks K) {f : α → Proc ι (Except δ γ) ε β}
    (hf : ∀ a, (f a).Asks K) : (p.bind f).Asks K := by
  induction h with
  | @done result =>
    cases result with
    | ok a => exact hf a
    | error e => exact .done
  | panic => exact .panic
  | call hk hrefused _ ih =>
    refine .call hk (fun e => ?_) ih
    obtain ⟨e', he⟩ := hrefused e
    exact ⟨e', by rw [he]; rfl⟩

theorem asks_lift_bind {result : Except ε α} {f : α → Proc ι (Except δ γ) ε β}
    (h : ∀ a, result = .ok a → (f a).Asks K) : ((lift result).bind f).Asks K := by
  cases result with
  | ok a => exact h a rfl
  | error e => exact .done

theorem Asks.mapError {p : Proc ι (Except δ γ) ε α} (h : p.Asks K) (g : ε → ε') :
    (p.mapError g).Asks K := by
  induction h with
  | @done result => cases result <;> exact .done
  | panic => exact .panic
  | call hk hrefused _ ih =>
    refine .call hk (fun e => ?_) ih
    obtain ⟨e', he⟩ := hrefused e
    exact ⟨g e', by rw [he]; rfl⟩

theorem asks_fold {τ ρ : Type} {body : τ → ρ → Proc ι (Except δ γ) ε τ}
    (h : ∀ t item, (body t item).Asks K) :
    ∀ (items : List ρ) (t : τ), (fold body t items).Asks K
  | [], _ => .done
  | item :: items, t => (h t item).bind fun t' => asks_fold h items t'

theorem Asks.mono {L : ι → Prop} {p : Proc ι (Except δ γ) ε α} (h : p.Asks K)
    (hkl : ∀ request, K request → L request) : p.Asks L := by
  induction h with
  | done => exact .done
  | panic => exact .panic
  | call hk hrefused _ ih => exact .call (hkl _ hk) hrefused ih

/-- What no call of `K` breaks holds on the way. -/
theorem Asks.meets {p : Proc ι (Except δ γ) ε α} (h : p.Asks K)
    {serve : σ → ι → Except δ γ → σ → Prop}
    (hserve : ∀ s request answer s', I s → K request → serve s request answer s' → I s')
    {s : σ} (hi : I s) : p.Meets serve I (fun _ => K) (fun _ _ => True) (fun _ => True) s := by
  induction h generalizing s with
  | done => exact .done hi trivial
  | panic => exact .panic hi trivial
  | call hk hrefused _ ih =>
    refine .call hi hk fun answer s' hs => ?_
    have hi' := hserve s _ answer s' hi hk hs
    cases answer with
    | ok c => exact ih c hi'
    | error e =>
      obtain ⟨e', he⟩ := hrefused e
      rw [he]
      exact .done hi' trivial

/-- What is left of the program asks for no more. -/
theorem Asks.after {answers : List (Except δ γ)} {p q : Proc ι (Except δ γ) ε α} (h : p.Asks K)
    (hq : after answers p = some q) : q.Asks K := by
  induction answers generalizing p with
  | nil =>
    cases hq
    exact h
  | cons answer answers ih =>
    cases h with
    | done | panic => cases hq
    | call _ hrefused hnext =>
      refine ih ?_ hq
      cases answer with
      | ok c => exact hnext c
      | error e =>
        obtain ⟨e', he⟩ := hrefused e
        rw [he]
        exact .done

end Asks

end Proc
end VcdTools.Lib
