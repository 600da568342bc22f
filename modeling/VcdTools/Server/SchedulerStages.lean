import VcdTools.Lib.JobQueue
import VcdTools.Server.Scheduler

/-! # How far a job has come

A job is admitted, queued, run and done with, in this order. Only the steps of
the scheduler take it into the queue, onto a worker and off it again; whatever
else a connection does leaves the queued and running jobs where they are. -/
namespace VcdTools.Server
open VcdTools.Lib Requests JobQueue

def Place.stage : Place → Stage
  | .unread | .atReader | .admitting _ => .before
  | .queued _ => .queued
  | .running _ => .running
  | .gone => .after

namespace Connection
variable {env : ConnectionEnv} {s s' : Connection} {i j : Nat} {p : Place}

theorem aside_place (h : (s.places i).stage.Aside p.stage) (j : Nat) :
    (s.places j).stage.Aside ((s.place i p).places j).stage := by
  by_cases hji : j = i
  · subst hji
    rw [place_self]
    exact h
  · rw [place_of_ne s p hji]
    exact .inl rfl

theorem aside_read (hi : s.Inv env) (h : s.read env = some s') (j : Nat) :
    (s.places j).stage.Aside (s'.places j).stage := by
  obtain ⟨line, _, _, rfl⟩ := read_cases h
  have hunread := hi.unread (Nat.le_refl s.next)
  have hplace : ∀ p : Place, Place.unread.stage.Aside p.stage →
      (s.places j).stage.Aside ((({ s with next := s.next + 1 } : Connection).place
        s.next p).places j).stage := fun p hp =>
    aside_place (s := { s with next := s.next + 1 }) (by rw [hunread]; exact hp) j
  rcases accept_cases env { s with next := s.next + 1 } s.next line with
    ⟨_, _, heq⟩ | ⟨_, _, heq⟩ | ⟨_, heq⟩ | ⟨_, _, _, heq⟩
  · rw [heq]
    exact hplace .gone (.inr ⟨rfl, rfl⟩)
  · rw [heq]
    exact hplace .gone (.inr ⟨rfl, rfl⟩)
  · rw [heq]
    exact hplace .gone (.inr ⟨rfl, rfl⟩)
  · rw [heq]
    exact hplace .atReader (.inl rfl)

theorem aside_turn (hi : s.Inv env) {look : ReaderLook} (h : s.turn env look = some s')
    (hnot : ∀ i request, s.reader ≠ .submitting i request) (j : Nat) :
    (s.places j).stage.Aside (s'.places j).stage := by
  have hok := hi.reader
  unfold ReaderOk at hok
  unfold turn at h
  cases hreader : s.reader with
  | reading | stopped =>
    rw [hreader] at h
    cases h
  | cancelling i id target =>
    simp only [hreader] at h
    cases h
    exact .inl rfl
  | registering i request =>
    simp only [hreader] at h hok
    obtain ⟨line, _, rfl⟩ := Option.map_eq_some_iff.mp h
    unfold register
    split
    · exact aside_place (p := .gone) (by rw [hok.1]; exact .inr ⟨rfl, rfl⟩) j
    · exact aside_place (p := .admitting request.id) (by rw [hok.1]; exact .inl rfl) j
  | preparing i request =>
    simp only [hreader] at h
    split at h <;> cases h
    · exact .inl rfl
    · exact .inl rfl
  | submitting i request => exact absurd hreader (hnot i request)
  | releasing i id error =>
    simp only [hreader] at h hok
    cases h
    exact aside_place (p := .gone) (by rw [hok]; exact .inr ⟨rfl, rfl⟩) j
  | replying i frame | rejecting error =>
    simp only [hreader] at h
    split at h
    · cases h
      exact .inl rfl
    · split at h <;> cases h
      · exact .inl rfl
      · exact .inl rfl
  | forcing | closing | joining =>
    simp only [hreader] at h
    cases h
    exact .inl rfl

theorem aside_work {look : Look} (h : s.work env i look = some s') (j : Nat) :
    (s.places j).stage.Aside (s'.places j).stage := by
  obtain ⟨job, next, _, hplace, _, hs'⟩ := work_cases h
  have hmoved := aside_place (s := s) (p := .running next) (by rw [hplace]; exact .inl rfl) j
  rcases hs' with rfl | rfl
  · exact hmoved
  · exact hmoved

theorem aside_own (hi : s.Inv env) {a : ConnectionAction} (hown : a.own s.reader = true)
    (h : s.step env a = some s') (j : Nat) : (s.places j).stage.Aside (s'.places j).stage := by
  cases a with
  | read => exact aside_read hi h j
  | turn look =>
    refine aside_turn hi h (fun i request hreader => ?_) j
    rw [hreader] at hown
    cases hown
  | work i look => exact aside_work h j
  | pick | release => cases hown
  | send =>
    cases h
    exact .inl rfl
  | badFrame | close | recv | check | writeFails =>
    simp only [Connection.step, recv, check, writeFails] at h
    split at h
    · cases h
      exact .inl rfl
    · cases h
  | wrote whole =>
    simp only [Connection.step, wrote] at h
    split at h
    · rename_i frame _
      split at h <;> cases h
      · show (s.places j).stage.Aside ((s.deliver frame).places j).stage
        rw [(Ledger.deliver_same s frame).2.1]
        exact .inl rfl
      · exact .inl rfl
    · cases h
  | sweep =>
    obtain ⟨registry, _, rfl⟩ := Option.map_eq_some_iff.mp h
    exact .inl rfl

/-- Nobody else moves a reader that is submitting or has stopped. -/
theorem reader_own {a : ConnectionAction} (hown : a.own s.reader = true)
    (hbusy : (∃ i request, s.reader = .submitting i request) ∨ s.reader = .stopped)
    (h : s.step env a = some s') : s'.reader = s.reader := by
  have hreading : s.reader ≠ .reading := by
    intro hreading
    rcases hbusy with ⟨i, request, hreader⟩ | hreader
    · cases hreading.symm.trans hreader
    · cases hreading.symm.trans hreader
  cases a with
  | read =>
    obtain ⟨_, hreader, _⟩ := read_cases h
    exact absurd hreader hreading
  | turn look =>
    rcases hbusy with ⟨i, request, hreader⟩ | hreader
    · rw [hreader] at hown
      cases hown
    · simp only [Connection.step, turn, hreader] at h
      cases h
  | badFrame | close =>
    simp only [Connection.step] at h
    cases h
  | work i look =>
    obtain ⟨_, _, _, _, _, hs'⟩ := work_cases h
    rcases hs' with rfl | rfl
    · rfl
    · rfl
  | pick | release => cases hown
  | send =>
    cases h
    rfl
  | recv | check | writeFails =>
    simp only [Connection.step, recv, check, writeFails] at h
    split at h
    · cases h
      rfl
    · cases h
  | wrote whole =>
    simp only [Connection.step, wrote] at h
    split at h
    · rename_i frame _
      split at h <;> cases h
      · exact (Ledger.deliver_same s frame).1
      · rfl
    · cases h
  | sweep =>
    obtain ⟨registry, _, rfl⟩ := Option.map_eq_some_iff.mp h
    rfl

end Connection

namespace Ledger
variable {env : ConnectionEnv} {l l' : Ledger} {i : Nat}

theorem of_step {a : ConnectionAction} (h : l.step env a = some l') :
    l.connection.step env a = some l'.connection ∧
      l'.dismissed = l.dismissed ++ dismisses l.connection a := by
  obtain ⟨next, hnext, rfl⟩ := Option.map_eq_some_iff.mp h
  exact ⟨hnext, rfl⟩

/-- What is turned away had not come to the scheduler. -/
theorem dismisses_before (hi : l.Inv env) {a : ConnectionAction} {frame : ResponseFrame}
    (h : (i, frame) ∈ dismisses l.connection a) :
    (l.connection.places i).stage = .before := by
  have hok := hi.connection.reader
  unfold Connection.ReaderOk at hok
  unfold dismisses at h
  split at h
  · split at h
    · rename_i j id error hreader
      cases List.mem_singleton.mp h
      simp only [hreader] at hok
      rw [hok]
      rfl
    · cases h
  · cases h

/-- One job goes to another stage. -/
structure Moves (l l' : Ledger) (i : Nat) (stage : Stage) : Prop where
  self : (l'.connection.places i).stage = stage
  others : ∀ j, j ≠ i → (l'.connection.places j).stage = (l.connection.places j).stage
  dismissed : l'.dismissed = l.dismissed

theorem moves_of_place {p : Place}
    (hplaces : l'.connection.places = (l.connection.place i p).places)
    (hdismissed : l'.dismissed = l.dismissed) : Moves l l' i p.stage where
  self := by rw [hplaces, Connection.place_self]
  others := fun j hji => by rw [hplaces, Connection.place_of_ne _ _ hji]
  dismissed := hdismissed

theorem submit_moves (hi : l.Inv env) {request : Request}
    (hreader : l.connection.reader = .submitting i request)
    (h : l.step env (.turn {}) = some l') :
    (l.connection.places i).stage = .before ∧ Moves l l' i .queued ∧
      l'.connection.reader = .reading := by
  have hok := hi.connection.reader
  simp only [Connection.ReaderOk, hreader] at hok
  obtain ⟨s', hs, rfl⟩ := Option.map_eq_some_iff.mp h
  simp only [Connection.step, Connection.turn, hreader, Bool.false_eq_true, if_false] at hs
  cases hs
  refine ⟨by rw [hok]; rfl, moves_of_place (p := .queued request) rfl ?_, rfl⟩
  rw [dismisses, hreader]
  exact List.append_nil _

theorem refuse_moves (hi : l.Inv env) {request : Request}
    (hreader : l.connection.reader = .submitting i request)
    (h : l.step env (.turn { queueFull := true }) = some l') :
    Moves l l' i .before ∧ ∃ error, l'.connection.reader = .releasing i request.id error := by
  have hok := hi.connection.reader
  simp only [Connection.ReaderOk, hreader] at hok
  obtain ⟨s', hs, rfl⟩ := Option.map_eq_some_iff.mp h
  simp only [Connection.step, Connection.turn, hreader, if_true] at hs
  cases hs
  refine ⟨⟨by rw [hok]; rfl, fun _ _ => rfl, ?_⟩, _, rfl⟩
  rw [dismisses, hreader]
  exact List.append_nil _

theorem pick_moves {program : Dispatch Unit} (h : l.step env (.pick i program) = some l') :
    (l.connection.places i).stage = .queued ∧ Moves l l' i .running ∧
      l'.connection.reader = l.connection.reader := by
  obtain ⟨s', hs, rfl⟩ := Option.map_eq_some_iff.mp h
  simp only [Connection.step, Connection.pick] at hs
  split at hs
  · rename_i request hplace
    cases hs
    exact ⟨by rw [hplace]; rfl, moves_of_place (p := .running _) rfl (List.append_nil _), rfl⟩
  · cases hs

theorem release_moves (h : l.step env (.release i) = some l') :
    (l.connection.places i).stage = .running ∧ Moves l l' i .after ∧
      l'.connection.reader = l.connection.reader := by
  obtain ⟨s', hs, rfl⟩ := Option.map_eq_some_iff.mp h
  obtain ⟨job, hplace, _, rfl⟩ := Connection.release_cases hs
  exact ⟨by rw [hplace]; rfl, moves_of_place (p := .gone) rfl (List.append_nil _), rfl⟩

end Ledger
end VcdTools.Server
