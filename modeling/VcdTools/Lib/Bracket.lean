import VcdTools.Lib.Proc

/-! # Protected sections

A program that may enter a section and exits it on every way out: with a
value, with an error, or by a panic that passes through. `Bracketed` says that
a program enters and exits in turn and is outside at its end; a quiet one does
nothing else inside. `unbracket` is the program without its sections. -/
namespace VcdTools.Lib.Bracket

inductive Call (ι : Type)
  | enter
  | exit
  | other (request : ι)

variable {ι ε α β : Type}

/-- `enter` may be refused; the error then ends the program. -/
abbrev Program (ι ε α : Type) := Proc (Call ι) (Except ε Unit) ε α

/-- A program without sections. -/
def embed : Proc ι (Except ε Unit) ε α → Program ι ε α
  | .done result => .done result
  | .panic => .panic
  | .call request next => .call (.other request) fun answer => embed (next answer)

/-- Exits the section, whatever the work comes to. -/
def exiting : Program ι ε α → Program ι ε α
  | .done result => .call .exit fun _ => .done result
  | .panic => .call .exit fun _ => .panic
  | .call request next => .call request fun answer => exiting (next answer)

/-- The work in a section of its own. -/
def bracket (work : Program ι ε α) : Program ι ε α :=
  .call .enter fun
    | .ok () => exiting work
    | .error error => .done (.error error)

/-! ## In turn -/

/-- What a call does to whether the program is inside. -/
inductive Serves : Bool → Call ι → Except ε Unit → Bool → Prop
  | granted : Serves false .enter (.ok ()) true
  | refused {error} : Serves false .enter (.error error) false
  | exited : Serves true .exit (.ok ()) false
  | other {inside request answer} : Serves inside (.other request) answer inside

def Allowed (quiet : Bool) : Bool → Call ι → Prop
  | inside, .enter => inside = false
  | inside, .exit => inside = true
  | inside, .other _ => quiet = true → inside = false

def Bracketed (quiet : Bool) (p : Program ι ε α) (inside : Bool) : Prop :=
  p.Meets Serves (fun _ => True) (Allowed quiet) (fun _ inside => inside = false)
    (fun inside => inside = false) inside

variable {quiet inside : Bool} {p : Program ι ε α} {work : Proc ι (Except ε Unit) ε α}

theorem Bracketed.of_done {result : Except ε α}
    (h : Bracketed quiet (.done result : Program ι ε α) inside) : inside = false := by
  cases h with
  | done _ hq => exact hq

theorem Bracketed.of_panic (h : Bracketed quiet (.panic : Program ι ε α) inside) :
    inside = false := by
  cases h with
  | panic _ he => exact he

theorem Bracketed.of_call {request : Call ι} {next : Except ε Unit → Program ι ε α}
    (h : Bracketed quiet (.call request next) inside) : Allowed quiet inside request ∧
      ∀ answer inside', Serves inside request answer inside' →
        Bracketed quiet (next answer) inside' := by
  cases h with
  | call _ hc hnext => exact ⟨hc, hnext⟩

theorem bracketed_done (result : Except ε α) :
    Bracketed quiet (.done result : Program ι ε α) false := Proc.Meets.done trivial rfl

theorem bracketed_panic : Bracketed quiet (.panic : Program ι ε α) false :=
  Proc.Meets.panic trivial rfl

theorem bracketed_call {request : Call ι} {next : Except ε Unit → Program ι ε α}
    (hc : Allowed quiet inside request)
    (hnext : ∀ answer inside', Serves inside request answer inside' →
      Bracketed quiet (next answer) inside') : Bracketed quiet (.call request next) inside :=
  Proc.Meets.call trivial hc hnext

theorem bracketed_lift_bind {result : Except ε α} {f : α → Program ι ε β}
    (h : ∀ a, Bracketed quiet (f a) false) :
    Bracketed quiet ((Proc.lift result).bind f) false :=
  Proc.meets_lift_bind trivial (fun a _ => h a) fun _ _ => rfl

theorem bracketed_attempt_bind {answer : Option (Except ε α)} {f : α → Program ι ε β}
    (h : ∀ a, Bracketed quiet (f a) false) :
    Bracketed quiet ((Proc.attempt answer).bind f) false := by
  cases answer with
  | none => exact bracketed_panic
  | some result => exact bracketed_lift_bind h

/-- What a quiet program does, one that is not may do. -/
theorem Bracketed.loud (h : Bracketed quiet p inside) : Bracketed false p inside := by
  induction h with
  | done _ hq => exact Proc.Meets.done trivial hq
  | panic _ he => exact Proc.Meets.panic trivial he
  | @call request next inside _ hc _ ih =>
    refine bracketed_call ?_ ih
    cases request with
    | enter | exit => exact hc
    | other request => exact fun hquiet => (by cases hquiet)

/-- One program after another. -/
theorem Bracketed.bind (h : Bracketed quiet p inside) {f : α → Program ι ε β}
    (hf : ∀ a, Bracketed quiet (f a) false) : Bracketed quiet (p.bind f) inside := by
  refine Proc.meets_bind (h.mono fun result inside' _ hout => ?_)
  cases hout
  cases result with
  | ok a => exact hf a
  | error error => rfl

/-- Without a section the program is outside all the time. -/
theorem bracketed_embed (quiet : Bool) (work : Proc ι (Except ε Unit) ε α) :
    Bracketed quiet (embed work) false := by
  induction work with
  | done result => exact bracketed_done result
  | panic => exact bracketed_panic
  | call request next ih =>
    refine bracketed_call (fun _ => rfl) fun answer inside' hserves => ?_
    cases hserves
    exact ih answer

theorem bracketed_exiting_done (result : Except ε α) :
    Bracketed quiet (exiting (.done result) : Program ι ε α) true := by
  refine bracketed_call rfl fun answer inside' hserves => ?_
  cases hserves
  exact bracketed_done result

theorem bracketed_exiting_panic : Bracketed quiet (exiting .panic : Program ι ε α) true := by
  refine bracketed_call rfl fun answer inside' hserves => ?_
  cases hserves
  exact bracketed_panic

/-- Whatever the work does inside, it ends outside. -/
theorem bracketed_exiting (work : Proc ι (Except ε Unit) ε α) :
    Bracketed false (exiting (embed work)) true := by
  induction work with
  | done result => exact bracketed_exiting_done result
  | panic => exact bracketed_exiting_panic
  | call request next ih =>
    refine bracketed_call (fun h => (by cases h)) fun answer inside' hserves => ?_
    cases hserves
    exact ih answer

theorem bracketed_bracket (h : Bracketed quiet (exiting p) true) :
    Bracketed quiet (bracket p) false := by
  refine bracketed_call rfl fun answer inside' hserves => ?_
  cases hserves with
  | granted => exact h
  | refused => exact bracketed_done _

/-! ## Without the sections -/

/-- The program when `grant` is what every `enter` comes to. -/
def unbracket (grant : Except ε Unit) : Program ι ε α → Proc ι (Except ε Unit) ε α
  | .done result => .done result
  | .panic => .panic
  | .call .enter next => unbracket grant (next grant)
  | .call .exit next => unbracket grant (next (.ok ()))
  | .call (.other request) next => .call request fun answer => unbracket grant (next answer)

variable {grant : Except ε Unit}

theorem unbracket_bind (p : Program ι ε α) (f : α → Program ι ε β) :
    unbracket grant (p.bind f) = (unbracket grant p).bind fun a => unbracket grant (f a) := by
  induction p with
  | done result => cases result <;> rfl
  | panic => rfl
  | call request next ih =>
    cases request with
    | enter => exact ih grant
    | exit => exact ih (.ok ())
    | other request => exact congrArg (Proc.call request) (funext ih)

theorem unbracket_embed (work : Proc ι (Except ε Unit) ε α) :
    unbracket grant (embed work) = work := by
  induction work with
  | done result => rfl
  | panic => rfl
  | call request next ih => exact congrArg (Proc.call request) (funext ih)

theorem unbracket_exiting (p : Program ι ε α) : unbracket grant (exiting p) = unbracket grant p := by
  induction p with
  | done result => rfl
  | panic => rfl
  | call request next ih =>
    cases request with
    | enter => exact ih grant
    | exit => exact ih (.ok ())
    | other request => exact congrArg (Proc.call request) (funext ih)

theorem unbracket_bracket (p : Program ι ε α) :
    unbracket grant (bracket p) = (Proc.lift grant).bind fun _ => unbracket grant p := by
  cases grant with
  | ok u => exact unbracket_exiting p
  | error error => rfl

/-! ## What is asked for without the sections -/

variable {K : ι → Prop}

theorem asks_unbracket_bind {p : Program ι ε α} (h : (unbracket grant p).Asks K)
    {f : α → Program ι ε β} (hf : ∀ a, (unbracket grant (f a)).Asks K) :
    (unbracket grant (p.bind f)).Asks K := by
  rw [unbracket_bind]
  exact h.bind hf

theorem asks_unbracket_lift_bind {result : Except ε α} {f : α → Program ι ε β}
    (h : ∀ a, result = .ok a → (unbracket grant (f a)).Asks K) :
    (unbracket grant ((Proc.lift result).bind f)).Asks K := by
  cases result with
  | ok a => exact h a rfl
  | error error => exact .done

theorem asks_unbracket_attempt_bind {answer : Option (Except ε α)} {f : α → Program ι ε β}
    (h : ∀ a, (unbracket grant (f a)).Asks K) :
    (unbracket grant ((Proc.attempt answer).bind f)).Asks K := by
  cases answer with
  | none => exact .panic
  | some result => exact asks_unbracket_lift_bind fun a _ => h a

theorem asks_unbracket_embed (h : work.Asks K) : (unbracket grant (embed work)).Asks K := by
  rw [unbracket_embed]
  exact h

theorem asks_unbracket_bracket (h : (unbracket grant p).Asks K) :
    (unbracket grant (bracket p)).Asks K := by
  rw [unbracket_bracket]
  exact Proc.asks_lift_bind fun _ _ => h

end VcdTools.Lib.Bracket
