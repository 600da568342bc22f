import VcdTools.Server.ConnectionSteps

/-! # What a connection has answered

A connection with its history: every frame that came into its output channel,
and the requests that had their id registered and were then turned away. Such a
request gets its error, and nothing else, unless the connection is closed. -/
namespace VcdTools.Server
open VcdTools.Lib Requests

/-- `log` is what came into the channel, `dismissed` the lines that were turned
away after their id was registered, each with its answer. -/
structure Ledger where
  connection : Connection
  log : List OutputFrame
  dismissed : List (Nat × ResponseFrame)

/-- The line that the reader has in its hands. -/
def ReaderPc.line : ReaderPc → Option Nat
  | .cancelling i _ _ | .registering i _ | .preparing i _ | .submitting i _
  | .releasing i _ _ | .replying i _ => some i
  | .reading | .rejecting _ | .forcing | .closing | .joining | .stopped => none

theorem ConnectionState.disconnected_cancel (self : ConnectionState) (id : String) :
    (self.cancel id).2.disconnected = self.disconnected := by
  rw [cancel]
  split
  · rfl
  · rfl

namespace Ledger
variable {env : ConnectionEnv} {l l' : Ledger} {s s' : Connection} {i : Nat}

def init (env : ConnectionEnv) : Ledger := ⟨.init env, [], []⟩

/-- The frames of the log that answer a line. -/
def answersIn (log : List OutputFrame) (i : Nat) : List OutputFrame :=
  log.filter fun frame => frame.owner == some i

def answers (l : Ledger) (i : Nat) : List OutputFrame := answersIn l.log i

/-- The line that a step of the reader turns away, with its answer. -/
def dismisses (s : Connection) : ConnectionAction → List (Nat × ResponseFrame)
  | .turn _ =>
    match s.reader with
    | .releasing i id error => [(i, .ofError (some id) 0 error)]
    | _ => []
  | _ => []

def step (env : ConnectionEnv) (l : Ledger) (a : ConnectionAction) : Option Ledger :=
  (l.connection.step env a).map fun next =>
    { connection := next
      log := l.log ++ next.output.drop l.connection.output.length
      dismissed := l.dismissed ++ dismisses l.connection a }

/-- The line has its answer, or the reader is about to give it, or there is
nobody to answer any more. -/
def Settles (l : Ledger) (i : Nat) (frame : ResponseFrame) : Prop :=
  l.answers i = [⟨frame, some i⟩] ∨
    l.answers i = [] ∧ (l.connection.reader = .replying i frame ∨
      l.connection.reader = .forcing ∨ l.connection.flag = true)

structure Inv (env : ConnectionEnv) (l : Ledger) : Prop where
  connection : l.connection.Inv env
  silent : ∀ i, (l.connection.places i).settled = false → l.answers i = []
  handling : ∀ i, l.connection.reader.line = some i → l.answers i = []
  held : ∀ i frame, l.connection.reader.line = some i → (i, frame) ∈ l.dismissed →
    l.connection.reader = .replying i frame
  gone : ∀ i frame, (i, frame) ∈ l.dismissed → l.connection.places i = .gone
  settles : ∀ i frame, (i, frame) ∈ l.dismissed → l.Settles i frame

theorem inv_init (env : ConnectionEnv) : Inv env (.init env) where
  connection := Connection.inv_init env
  silent := fun _ _ => rfl
  handling := fun _ _ => rfl
  held := fun _ _ _ h => (by cases h)
  gone := fun _ _ h => (by cases h)
  settles := fun _ _ h => (by cases h)

theorem answersIn_append (log frames : List OutputFrame) (i : Nat) :
    answersIn (log ++ frames) i = answersIn log i ++ answersIn frames i := List.filter_append ..

theorem answersIn_of_ne {frames : List OutputFrame}
    (h : ∀ frame ∈ frames, frame.owner ≠ some i) : answersIn frames i = [] := by
  rw [answersIn, List.filter_eq_nil_iff]
  intro frame hmem howner
  exact h frame hmem (eq_of_beq howner)

theorem answersIn_self (frame : ResponseFrame) (i : Nat) :
    answersIn [⟨frame, some i⟩] i = [⟨frame, some i⟩] :=
  List.filter_cons_of_pos (beq_self_eq_true (some i))

/-- The reader's line is not with the scheduler. -/
theorem reader_not_scheduled (hi : s.Inv env) (h : s.reader.line = some i) :
    (s.places i).scheduled = false := by
  have hok := hi.reader
  unfold Connection.ReaderOk at hok
  cases hreader : s.reader with
  | registering j request =>
    simp only [hreader] at hok h
    cases h
    rw [hok.1]
    rfl
  | cancelling j _ _ | preparing j _ | submitting j _ | releasing j _ _ | replying j _ =>
    simp only [hreader] at hok h
    cases h
    rw [hok]
    rfl
  | reading | rejecting _ | forcing | closing | joining | stopped =>
    rw [hreader] at h
    cases h

/-- Somebody other than the reader moves: frames come from scheduled lines, and
only those change their places. -/
theorem Inv.others (hi : Inv env l) (hconnection : s'.Inv env)
    (hreader : s'.reader = l.connection.reader)
    (hflag : l.connection.flag = true → s'.flag = true)
    (hplaces : ∀ i, s'.places i = l.connection.places i ∨
      (l.connection.places i).scheduled = true ∧ (s'.places i).settled = true)
    {frames : List OutputFrame} (hframes : ∀ frame ∈ frames, ∀ i, frame.owner = some i →
      (l.connection.places i).scheduled = true ∧ (s'.places i).settled = true) :
    Inv env ⟨s', l.log ++ frames, l.dismissed⟩ := by
  have hsame : ∀ {i}, (l.connection.places i).scheduled = false →
      s'.places i = l.connection.places i := by
    intro i hnot
    rcases hplaces i with h | ⟨h, _⟩
    · exact h
    · exact absurd (hnot.symm.trans h) Bool.false_ne_true
  have hanswers : ∀ {i}, (l.connection.places i).scheduled = false ∨
      (s'.places i).settled = false → answersIn (l.log ++ frames) i = l.answers i := by
    intro i hnot
    have hothers : answersIn frames i = [] := by
      refine answersIn_of_ne fun frame hmem howner => ?_
      obtain ⟨hscheduled, hsettled⟩ := hframes frame hmem i howner
      rcases hnot with hnot | hnot
      · exact Bool.false_ne_true (hnot.symm.trans hscheduled)
      · exact Bool.false_ne_true (hnot.symm.trans hsettled)
    rw [answersIn_append, hothers, List.append_nil]
    rfl
  have hgone : ∀ {i frame}, (i, frame) ∈ l.dismissed →
      (l.connection.places i).scheduled = false := by
    intro i frame hmem
    rw [hi.gone i frame hmem]
    rfl
  constructor
  · exact hconnection
  · intro i hnot
    refine (hanswers (.inr hnot)).trans (hi.silent i ?_)
    rcases hplaces i with h | ⟨_, h⟩
    · rw [← h]
      exact hnot
    · exact absurd (hnot.symm.trans h) Bool.false_ne_true
  · intro i hline
    have hline' : l.connection.reader.line = some i := hreader ▸ hline
    exact (hanswers (.inl (reader_not_scheduled hi.connection hline'))).trans
      (hi.handling i hline')
  · intro i frame hline hmem
    exact hreader.trans (hi.held i frame (hreader ▸ hline) hmem)
  · intro i frame hmem
    exact (hsame (hgone hmem)).trans (hi.gone i frame hmem)
  · intro i frame hmem
    have heq := hanswers (.inl (hgone hmem))
    rcases hi.settles i frame hmem with h | ⟨h, hwhy⟩
    · exact .inl (heq.trans h)
    · refine .inr ⟨heq.trans h, ?_⟩
      rcases hwhy with hwhy | hwhy | hwhy
      · exact .inl (hreader.trans hwhy)
      · exact .inr (.inl (hreader.trans hwhy))
      · exact .inr (.inr (hflag hwhy))

/-- The reader moves on with one line that has no answer, and sends nothing. -/
theorem Inv.turned (hi : Inv env l) (hconnection : s'.Inv env) (i : Nat)
    (hanswers : l.answers i = [])
    (hfree : ∀ frame, (i, frame) ∈ l.dismissed → s'.places i = .gone ∧ s'.reader.line = none)
    (hplaces : ∀ j, j ≠ i → s'.places j = l.connection.places j)
    (hline : ∀ j, s'.reader.line = some j → j = i)
    (hwhy : ∀ j frame, l.connection.reader = .replying j frame ∨
      l.connection.reader = .forcing ∨ l.connection.flag = true →
      s'.reader = .replying j frame ∨ s'.reader = .forcing ∨ s'.flag = true) :
    Inv env ⟨s', l.log, l.dismissed⟩ := by
  constructor
  · exact hconnection
  · intro j hnot
    by_cases hji : j = i
    · rw [hji]
      exact hanswers
    · refine hi.silent j ?_
      rw [← hplaces j hji]
      exact hnot
  · intro j hj
    rw [hline j hj]
    exact hanswers
  · intro j frame hj hmem
    cases hline j hj
    cases hj.symm.trans (hfree frame hmem).2
  · intro j frame hmem
    by_cases hji : j = i
    · subst hji
      exact (hfree frame hmem).1
    · exact (hplaces j hji).trans (hi.gone j frame hmem)
  · intro j frame hmem
    rcases hi.settles j frame hmem with h | ⟨h, hreason⟩
    · exact .inl h
    · exact .inr ⟨h, hwhy j frame hreason⟩

/-- A line that the reader has not come to is not among the dismissed. -/
theorem Inv.next_free (hi : Inv env l) {i : Nat} (h : l.connection.places i = .unread)
    {frame : ResponseFrame} : (i, frame) ∉ l.dismissed := by
  intro hmem
  cases h.symm.trans (hi.gone i frame hmem)

theorem Inv.next_silent (hi : Inv env l) : l.answers l.connection.next = [] := by
  refine hi.silent _ ?_
  rw [hi.connection.unread (Nat.le_refl _)]
  rfl

/-- The reader goes on without a line of its own. -/
theorem Inv.aside (hi : Inv env l) (hconnection : s'.Inv env)
    (hplaces : s'.places = l.connection.places) (hline : s'.reader.line = none)
    (hwhy : ∀ j frame, l.connection.reader = .replying j frame ∨
      l.connection.reader = .forcing ∨ l.connection.flag = true →
      s'.reader = .replying j frame ∨ s'.reader = .forcing ∨ s'.flag = true) :
    Inv env ⟨s', l.log, l.dismissed⟩ := by
  refine hi.turned hconnection l.connection.next hi.next_silent
    (fun frame hmem => absurd hmem (hi.next_free (hi.connection.unread (Nat.le_refl _))))
    (fun j _ => congrFun hplaces j) (fun j hj => ?_) hwhy
  cases hline.symm.trans hj

/-- A reader without a line in hand owes nobody. -/
theorem Inv.leaving {reader : ReaderPc} (hi : Inv env l)
    (hconnection : ({ l.connection with reader } : Connection).Inv env)
    (hreader : l.connection.reader = .reading) (hline : reader.line = none) :
    Inv env ⟨{ l.connection with reader }, l.log, l.dismissed⟩ := by
  refine hi.aside hconnection rfl hline fun j frame hreason => ?_
  rcases hreason with h | h | h
  · cases hreader.symm.trans h
  · cases hreader.symm.trans h
  · exact .inr (.inr h)

/-- Lines that nobody asked about come into the channel. -/
theorem Inv.uncorrelated (hi : Inv env l) (hconnection : s'.Inv env)
    (hplaces : s'.places = l.connection.places) (hline : s'.reader.line = none)
    (hwhy : ∀ j frame, l.connection.reader = .replying j frame ∨
      l.connection.reader = .forcing ∨ l.connection.flag = true →
      s'.reader = .replying j frame ∨ s'.reader = .forcing ∨ s'.flag = true)
    (frame : ResponseFrame) : Inv env ⟨s', l.log ++ [⟨frame, none⟩], l.dismissed⟩ := by
  have hi' := hi.aside hconnection hplaces hline hwhy
  have hsame : ∀ i, answersIn (l.log ++ [⟨frame, none⟩]) i = l.answers i := by
    intro i
    rw [answersIn_append]
    exact List.append_nil _
  exact {
    connection := hconnection
    silent := fun i h => (hsame i).trans (hi'.silent i h)
    handling := fun i h => (hsame i).trans (hi'.handling i h)
    held := hi'.held
    gone := hi'.gone
    settles := fun i frame hmem => (hi'.settles i frame hmem).imp (hsame i).trans
      fun h => ⟨(hsame i).trans h.1, h.2⟩ }

/-- The line of the reader is turned away. -/
theorem Inv.dismiss (hi : Inv env l) (hconnection : s'.Inv env) {frame : ResponseFrame}
    (hline : l.connection.reader.line = some i)
    (hnot : ∀ j frame, l.connection.reader ≠ .replying j frame)
    (hforcing : l.connection.reader ≠ .forcing)
    (hreader : s'.reader = .replying i frame) (hgone : s'.places i = .gone)
    (hplaces : ∀ j, j ≠ i → s'.places j = l.connection.places j)
    (hflag : l.connection.flag = true → s'.flag = true) :
    Inv env ⟨s', l.log, l.dismissed ++ [(i, frame)]⟩ := by
  have hfree : ∀ frame, (i, frame) ∉ l.dismissed := fun frame hmem =>
    hnot i frame (hi.held i frame hline hmem)
  have hi' : Inv env ⟨s', l.log, l.dismissed⟩ := by
    refine hi.turned hconnection i (hi.handling i hline)
      (fun frame hmem => absurd hmem (hfree frame)) hplaces (fun j hj => ?_)
      fun j frame hreason => ?_
    · rw [hreader] at hj
      exact (Option.some.inj hj).symm
    · rcases hreason with h | h | h
      · exact absurd h (hnot j frame)
      · exact absurd h hforcing
      · exact .inr (.inr (hflag h))
  constructor
  · exact hconnection
  · exact hi'.silent
  · exact hi'.handling
  · intro j frame' hj hmem
    rcases List.mem_append.mp hmem with hmem | hmem
    · exact hi'.held j frame' hj hmem
    · cases List.mem_singleton.mp hmem
      exact hreader
  · intro j frame' hmem
    rcases List.mem_append.mp hmem with hmem | hmem
    · exact hi'.gone j frame' hmem
    · cases List.mem_singleton.mp hmem
      exact hgone
  · intro j frame' hmem
    rcases List.mem_append.mp hmem with hmem | hmem
    · exact hi'.settles j frame' hmem
    · cases List.mem_singleton.mp hmem
      exact .inr ⟨hi.handling i hline, .inl hreader⟩

/-- The line of the reader gets its answer. -/
theorem Inv.reply (hi : Inv env l) (hconnection : s'.Inv env) {frame : ResponseFrame}
    (hreader : l.connection.reader = .replying i frame) (hreading : s'.reader = .reading)
    (hplaces : s'.places = l.connection.places)
    (hflag : l.connection.flag = true → s'.flag = true)
    (hgone : (l.connection.places i).settled = true) :
    Inv env ⟨s', l.log ++ [⟨frame, some i⟩], l.dismissed⟩ := by
  have hline : l.connection.reader.line = some i := by
    rw [hreader]
    rfl
  have hself : answersIn (l.log ++ [⟨frame, some i⟩]) i = [⟨frame, some i⟩] := by
    rw [answersIn_append, answersIn_self]
    exact congrArg (· ++ _) (hi.handling i hline)
  have hother : ∀ j, j ≠ i → answersIn (l.log ++ [⟨frame, some i⟩]) j = l.answers j := by
    intro j hji
    have hnone : answersIn [⟨frame, some i⟩] j = [] := by
      refine answersIn_of_ne fun frame' hmem howner => ?_
      cases List.mem_singleton.mp hmem
      exact hji (Option.some.inj howner).symm
    rw [answersIn_append, hnone]
    exact List.append_nil _
  constructor
  · exact hconnection
  · intro j hnot
    rw [hplaces] at hnot
    have hji : j ≠ i := by
      rintro rfl
      exact Bool.false_ne_true (hnot.symm.trans hgone)
    exact (hother j hji).trans (hi.silent j hnot)
  · intro j hj
    rw [hreading] at hj
    cases hj
  · intro j frame' hj
    rw [hreading] at hj
    cases hj
  · intro j frame' hmem
    rw [hplaces]
    exact hi.gone j frame' hmem
  · intro j frame' hmem
    by_cases hji : j = i
    · subst hji
      cases hreader.symm.trans (hi.held j frame' hline hmem)
      exact .inl hself
    · rcases hi.settles j frame' hmem with h | ⟨h, hreason⟩
      · exact .inl ((hother j hji).trans h)
      · refine .inr ⟨(hother j hji).trans h, ?_⟩
        rcases hreason with hreason | hreason | hreason
        · cases hreader.symm.trans hreason
          exact absurd rfl hji
        · cases hreader.symm.trans hreason
        · exact .inr (.inr (hflag hreason))

/-! ## Every step -/

/-- What the log gains when frames are appended to the channel. -/
theorem logged (log output frames : List OutputFrame) :
    log ++ (output ++ frames).drop output.length = log ++ frames := by
  rw [List.drop_left]

/-- The log gains nothing when the channel does not. -/
theorem Inv.unlogged {dismissed : List (Nat × ResponseFrame)}
    (houtput : s'.output.length ≤ l.connection.output.length)
    (h : Inv env ⟨s', l.log, dismissed⟩) :
    Inv env ⟨s', l.log ++ s'.output.drop l.connection.output.length, dismissed⟩ := by
  rw [List.drop_eq_nil_of_le houtput, List.append_nil]
  exact h

theorem Inv.keeping {log : List OutputFrame} (h : Inv env ⟨s', log, l.dismissed⟩) :
    Inv env ⟨s', log, l.dismissed ++ []⟩ := by
  rw [List.append_nil]
  exact h

theorem Inv.read (hi : Inv env l) (h : l.connection.read env = some s') :
    Inv env ⟨s', l.log, l.dismissed⟩ := by
  have hconnection := hi.connection.readStep h
  obtain ⟨line, hreader, _, rfl⟩ := Connection.read_cases h
  have hunread := hi.connection.unread (Nat.le_refl l.connection.next)
  have hread : ∀ (p : Place) (pc : ReaderPc) (w : Bool), (∀ j, pc.line = some j → j = l.connection.next) →
      ({ ({ l.connection with next := l.connection.next + 1 } : Connection).place
        l.connection.next p with reader := pc, wronged := w } : Connection).Inv env →
      Inv env ⟨{ ({ l.connection with next := l.connection.next + 1 } : Connection).place
        l.connection.next p with reader := pc, wronged := w }, l.log, l.dismissed⟩ := by
    intro p pc w hline hconnection
    refine hi.turned hconnection l.connection.next hi.next_silent
      (fun frame hmem => absurd hmem (hi.next_free hunread))
      (fun j hji => Function.update_of_ne hji ..) hline fun j frame hreason => ?_
    rcases hreason with h | h | h
    · cases hreader.symm.trans h
    · cases hreader.symm.trans h
    · exact .inr (.inr h)
  rcases Connection.accept_cases env { l.connection with next := l.connection.next + 1 }
    l.connection.next line with ⟨error, _, heq⟩ | ⟨id, target, heq⟩ | ⟨frame, heq⟩ | ⟨request, _, _, heq⟩
  · rw [heq] at hconnection ⊢
    exact hread .gone _ _ (fun j hj => by cases hj) hconnection
  · rw [heq] at hconnection ⊢
    exact hread .gone _ _ (fun j hj => (Option.some.inj hj).symm) hconnection
  · rw [heq] at hconnection ⊢
    exact hread .gone _ _ (fun j hj => (Option.some.inj hj).symm) hconnection
  · rw [heq] at hconnection ⊢
    exact hread .atReader _ _ (fun j hj => (Option.some.inj hj).symm) hconnection

/-- The reader stays with its line. -/
theorem Inv.onward (hi : Inv env l) (hconnection : s'.Inv env)
    (hline : l.connection.reader.line = some i)
    (hnot : ∀ j frame, l.connection.reader ≠ .replying j frame)
    (hplaces : ∀ j, j ≠ i → s'.places j = l.connection.places j)
    (hline' : ∀ j, s'.reader.line = some j → j = i)
    (hflag : l.connection.flag = true → s'.flag = true) :
    Inv env ⟨s', l.log, l.dismissed⟩ := by
  refine hi.turned hconnection i (hi.handling i hline)
    (fun frame hmem => absurd (hi.held i frame hline hmem) (hnot i frame)) hplaces hline'
    fun j frame hreason => ?_
  rcases hreason with h | h | h
  · exact absurd h (hnot j frame)
  · rw [h] at hline
    cases hline
  · exact .inr (.inr (hflag h))

theorem Inv.turn (hi : Inv env l) {look : ReaderLook} (h : l.connection.turn env look = some s') :
    Inv env ⟨s', l.log ++ s'.output.drop l.connection.output.length,
      l.dismissed ++ dismisses l.connection (.turn look)⟩ := by
  have hconnection := hi.connection.turnStep h
  have hok := hi.connection.reader
  unfold Connection.ReaderOk at hok
  unfold Connection.turn at h
  unfold dismisses
  cases hreader : l.connection.reader with
  | reading | stopped =>
    rw [hreader] at h
    cases h
  | cancelling i id target =>
    simp only [hreader] at h ⊢
    cases h
    refine .keeping (.unlogged (Nat.le_refl _) ?_)
    refine hi.onward hconnection (by rw [hreader]; rfl) (by simp [hreader]) (fun _ _ => rfl)
      (fun j hj => (Option.some.inj hj).symm) fun hflag => ?_
    exact (ConnectionState.disconnected_cancel ..).trans hflag
  | registering i request =>
    simp only [hreader] at h ⊢
    obtain ⟨line, _, rfl⟩ := Option.map_eq_some_iff.mp h
    unfold Connection.register at hconnection ⊢
    split at hconnection
    · refine .keeping (.unlogged (Nat.le_refl _) ?_)
      exact hi.onward hconnection (by rw [hreader]; rfl) (by simp [hreader])
        (fun j hji => Function.update_of_ne hji ..) (fun j hj => by cases hj) id
    · rename_i state hstate
      refine .keeping (.unlogged (Nat.le_refl _) ?_)
      refine hi.onward hconnection (by rw [hreader]; rfl) (by simp [hreader])
        (fun j hji => Function.update_of_ne hji ..) (fun j hj => (Option.some.inj hj).symm) ?_
      obtain ⟨_, _, rfl⟩ := ConnectionState.register_ok_iff.mp hstate
      exact id
  | preparing i request =>
    simp only [hreader] at h ⊢
    split at h <;> cases h
    · refine .keeping (.unlogged (Nat.le_refl _) ?_)
      exact hi.onward hconnection (by rw [hreader]; rfl) (by simp [hreader]) (fun _ _ => rfl)
        (fun j hj => (Option.some.inj hj).symm) id
    · refine .keeping (.unlogged (Nat.le_refl _) ?_)
      exact hi.onward hconnection (by rw [hreader]; rfl) (by simp [hreader]) (fun _ _ => rfl)
        (fun j hj => (Option.some.inj hj).symm) id
  | submitting i request =>
    simp only [hreader] at h ⊢
    split at h <;> cases h
    · refine .keeping (.unlogged (Nat.le_refl _) ?_)
      exact hi.onward hconnection (by rw [hreader]; rfl) (by simp [hreader]) (fun _ _ => rfl)
        (fun j hj => (Option.some.inj hj).symm) id
    · refine .keeping (.unlogged (Nat.le_refl _) ?_)
      exact hi.onward hconnection (by rw [hreader]; rfl) (by simp [hreader])
        (fun j hji => Function.update_of_ne hji ..) (fun j hj => by cases hj) id
  | releasing i id error =>
    simp only [hreader] at h ⊢
    cases h
    refine .unlogged (Nat.le_refl _) ?_
    exact hi.dismiss hconnection (by rw [hreader]; rfl) (by simp [hreader]) (by simp [hreader])
      rfl (Connection.place_self ..) (fun j hji => Function.update_of_ne hji ..) fun h => h
  | replying i frame =>
    simp only [hreader] at h hok ⊢
    split at h
    · cases h
      refine .keeping ?_
      rw [Connection.push, logged]
      refine hi.reply hconnection hreader rfl rfl (fun h => h) ?_
      rw [hok]
      rfl
    · split at h <;> cases h
      · refine .keeping (.unlogged (Nat.le_refl _) ?_)
        exact hi.aside hconnection rfl rfl fun _ _ _ => .inr (.inl rfl)
      · refine .keeping (.unlogged (Nat.le_refl _) ?_)
        exact hi
  | rejecting error =>
    have haside : ∀ (t : Connection), t.reader = .forcing → ∀ j (frame : ResponseFrame),
        l.connection.reader = .replying j frame ∨ l.connection.reader = .forcing ∨
          l.connection.flag = true →
        t.reader = .replying j frame ∨ t.reader = .forcing ∨ t.flag = true :=
      fun _ ht _ _ _ => .inr (.inl ht)
    simp only [hreader] at h ⊢
    split at h
    · cases h
      refine .keeping ?_
      rw [Connection.push, logged]
      exact hi.uncorrelated hconnection rfl rfl (haside _ rfl) _
    · split at h <;> cases h
      · refine .keeping (.unlogged (Nat.le_refl _) ?_)
        exact hi.aside hconnection rfl rfl (haside _ rfl)
      · refine .keeping (.unlogged (Nat.le_refl _) ?_)
        exact hi
  | forcing | closing | joining =>
    simp only [hreader] at h ⊢
    cases h
    refine .keeping (.unlogged (Nat.le_refl _) ?_)
    exact hi.aside hconnection rfl rfl fun _ _ _ => .inr (.inr rfl)

/-- The connection's own threads that are not the reader. -/
theorem Inv.shared (hi : Inv env l) (hconnection : s'.Inv env)
    (hreader : s'.reader = l.connection.reader)
    (hflag : l.connection.flag = true → s'.flag = true)
    (hplaces : s'.places = l.connection.places)
    (houtput : s'.output.length ≤ l.connection.output.length) :
    Inv env ⟨s', l.log ++ s'.output.drop l.connection.output.length, l.dismissed ++ []⟩ := by
  rw [List.drop_eq_nil_of_le houtput]
  refine .keeping ?_
  exact hi.others hconnection hreader hflag (fun i => .inl (congrFun hplaces i))
    fun frame hmem => (by cases hmem)

/-- A scheduled line goes to a place where it may be answered. -/
theorem Inv.placed (hi : Inv env l) (hconnection : s'.Inv env) {p : Place}
    (hscheduled : (l.connection.places i).scheduled = true) (hsettled : p.settled = true)
    (hplaces : s'.places = (l.connection.place i p).places)
    (hreader : s'.reader = l.connection.reader) (hflag : s'.flag = l.connection.flag)
    (houtput : s'.output = l.connection.output) :
    Inv env ⟨s', l.log ++ s'.output.drop l.connection.output.length, l.dismissed ++ []⟩ := by
  refine .keeping (.unlogged (Nat.le_of_eq (congrArg List.length houtput)) ?_)
  have hmoves : ∀ j, s'.places j = l.connection.places j ∨
      (l.connection.places j).scheduled = true ∧ (s'.places j).settled = true := by
    intro j
    by_cases hji : j = i
    · subst hji
      refine .inr ⟨hscheduled, ?_⟩
      rw [hplaces, Connection.place_self]
      exact hsettled
    · exact .inl (by rw [hplaces, Connection.place_of_ne _ _ hji])
  have hothers := hi.others hconnection hreader (fun h => hflag.trans h) hmoves
    (fun frame (hmem : frame ∈ []) => (by cases hmem))
  rwa [List.append_nil] at hothers

theorem Inv.workStep (hi : Inv env l) {look : Look} (h : l.connection.work env i look = some s') :
    Inv env ⟨s', l.log ++ s'.output.drop l.connection.output.length, l.dismissed ++ []⟩ := by
  have hconnection := hi.connection.workStep h
  obtain ⟨job, next, look', hplace, _, hs'⟩ := Connection.work_cases h
  have hscheduled : (l.connection.places i).scheduled = true := by
    rw [hplace]
    rfl
  have hmoved : ∀ {t : Connection}, t.Inv env → t.reader = l.connection.reader →
      (l.connection.flag = true → t.flag = true) →
      t.places = (l.connection.place i (.running next)).places →
      t.output = l.connection.output ++ Connection.pushed i job next →
      Inv env ⟨t, l.log ++ t.output.drop l.connection.output.length, l.dismissed ++ []⟩ := by
    intro t hconnection hreader hflag hplaces houtput
    have hself : (t.places i).settled = true := by
      rw [hplaces, Connection.place_self]
      rfl
    rw [houtput, logged]
    refine .keeping ?_
    refine hi.others hconnection hreader hflag (fun j => ?_) fun frame hmem j howner => ?_
    · by_cases hji : j = i
      · subst hji
        exact .inr ⟨hscheduled, hself⟩
      · exact .inl (by rw [hplaces, Connection.place_of_ne _ _ hji])
    · obtain ⟨_, _, rfl⟩ := List.mem_map.mp hmem
      cases howner
      exact ⟨hscheduled, hself⟩
  rcases hs' with rfl | rfl
  · exact hmoved hconnection rfl id rfl rfl
  · exact hmoved hconnection rfl (fun _ => rfl) rfl rfl

theorem deliver_same (s : Connection) (frame : OutputFrame) :
    (s.deliver frame).reader = s.reader ∧ (s.deliver frame).places = s.places ∧
      (s.deliver frame).output = s.output ∧ (s.deliver frame).flag = s.flag := by
  unfold Connection.deliver
  split
  · split
    · exact ⟨rfl, rfl, rfl, rfl⟩
    · exact ⟨rfl, rfl, rfl, rfl⟩
  · exact ⟨rfl, rfl, rfl, rfl⟩

/-- **Whoever moves, what was turned away gets its answer and nothing else.** -/
theorem Inv.step (hi : Inv env l) {a : ConnectionAction} (hl : l.step env a = some l') :
    Inv env l' := by
  obtain ⟨s', h, rfl⟩ := Option.map_eq_some_iff.mp hl
  have hconnection := hi.connection.step h
  cases a with
  | send text =>
    cases h
    exact hi.shared hconnection rfl id rfl (Nat.le_refl _)
  | read =>
    have houtput : s'.output = l.connection.output := by
      obtain ⟨line, _, _, rfl⟩ := Connection.read_cases h
      rcases Connection.accept_cases env { l.connection with next := l.connection.next + 1 }
        l.connection.next line with ⟨_, _, heq⟩ | ⟨_, _, heq⟩ | ⟨_, heq⟩ | ⟨_, _, _, heq⟩ <;>
        rw [heq] <;> rfl
    exact .keeping (.unlogged (Nat.le_of_eq (congrArg List.length houtput)) (hi.read h))
  | turn look => exact hi.turn h
  | badFrame error =>
    simp only [Connection.step] at h
    split at h
    · rename_i hreader
      cases h
      exact .keeping (.unlogged (Nat.le_refl _) (hi.leaving hconnection hreader rfl))
    · cases h
  | close =>
    simp only [Connection.step] at h
    split at h
    · rename_i hreader
      cases h
      exact .keeping (.unlogged (Nat.le_refl _) (hi.leaving hconnection hreader rfl))
    · cases h
  | pick i program =>
    simp only [Connection.step, Connection.pick] at h
    split at h
    · rename_i request hplace
      cases h
      exact hi.placed hconnection (by rw [hplace]; rfl) rfl rfl rfl rfl rfl
    · cases h
  | work i look => exact hi.workStep h
  | release i =>
    obtain ⟨job, hplace, _, rfl⟩ := Connection.release_cases h
    exact hi.placed hconnection (by rw [hplace]; rfl) rfl rfl rfl rfl rfl
  | recv =>
    simp only [Connection.step, Connection.recv] at h
    split at h
    · rename_i frame output _ houtput
      cases h
      refine hi.shared hconnection rfl id rfl ?_
      rw [houtput]
      exact Nat.le_succ _
    · cases h
  | check =>
    simp only [Connection.step, Connection.check] at h
    split at h
    · cases h
      exact hi.shared hconnection rfl id rfl (Nat.le_refl _)
    · cases h
  | wrote whole =>
    simp only [Connection.step, Connection.wrote] at h
    split at h
    · rename_i frame _
      obtain ⟨hreader, hplaces, houtput, hflag⟩ := deliver_same l.connection frame
      split at h <;> cases h
      · exact hi.shared hconnection hreader (fun h => hflag.trans h) hplaces
          (Nat.le_of_eq (congrArg List.length houtput))
      · exact hi.shared hconnection rfl id rfl (Nat.le_refl _)
    · cases h
  | writeFails =>
    simp only [Connection.step, Connection.writeFails] at h
    split at h
    · cases h
      exact hi.shared hconnection rfl (fun _ => rfl) rfl (Nat.le_refl _)
    · cases h
  | sweep =>
    obtain ⟨registry, hsweep, rfl⟩ := Option.map_eq_some_iff.mp h
    rw [Registry.step] at hsweep
    split at hsweep <;> cases hsweep
    exact hi.shared hconnection rfl id rfl (Nat.le_refl _)

end Ledger
end VcdTools.Server
