import VcdTools.Server.GenerationSlot

/-! # What the slot keeps

Whoever calls and whatever is put in the place of the path: a generation that is
handed out was seen at the path during the call, ids never go back, and a panic
of the opening under the lock is the last thing that the slot does. -/
namespace VcdTools.Server
open VcdTools.Lib VcdTools.Detection

variable {φ ω : Type} {backends : Backends φ ω}

/-- The waveform passes for the file, or was made from it. -/
def Shows (backends : Backends φ ω) (waveform : ω) (file : φ) : Prop :=
  backends.validateSource waveform file = true ∨ backends.readVcd file = some (.ok waveform) ∨
    backends.openFst file = .ok waveform

/-- `g` was handed out no later than `g'`, as far as the ids tell. -/
def Before (g g' : Generation ω) : Prop := g.id ≤ g'.id ∧ (g.id = g'.id → g = g')

theorem Before.refl (g : Generation ω) : Before g g := ⟨Nat.le_refl _, fun _ => rfl⟩

theorem Before.trans {g g' g'' : Generation ω} (h : Before g g') (h' : Before g' g'') :
    Before g g'' := by
  refine ⟨h.1.trans h'.1, fun heq => ?_⟩
  have hmid : g.id = g'.id := Nat.le_antisymm h.1 (heq ▸ h'.1)
  exact (h.2 hmid).trans (h'.2 (hmid ▸ heq))

namespace GenerationSlot
variable {s s' : GenerationSlot φ ω} {i : Nat} {call : CurrentCall ω}

/-- What the path has named since the call began. -/
def named (s : GenerationSlot φ ω) (call : CurrentCall ω) : List φ :=
  (s.past ++ [s.path]).drop call.since

/-! ## The invariant -/

structure Inv (backends : Backends φ ω) (s : GenerationSlot φ ω) : Prop where
  lock : ∀ i call, s.calls[i]? = some call → (call.pc.holdsLock = true ↔ s.locked = some i)
  locked : ∀ i, s.locked = some i → i < s.calls.length
  poisoned : s.poisoned = true → s.locked = none
  since : ∀ call ∈ s.calls, call.since ≤ s.past.length ∧ call.behind ≤ s.answers.length
  opening : ∀ call ∈ s.calls, ∀ waveform, call.pc = .openingTarget waveform →
    ∃ file ∈ s.named call, backends.readVcd file = some (.ok waveform)
  returned : ∀ call ∈ s.calls, ∀ g, call.pc = .returned (.ok g) →
    g ∈ s.answers.drop call.behind ∧ ∃ file ∈ s.named call, Shows backends g.waveform file
  ids : s.next ≤ u64Max → s.current.id < s.next ∧ (s.answers ++ [s.current]).Pairwise Before

theorem inv_init (path : φ) (waveform : ω) (id : Nat) :
    Inv backends (.init path waveform id) where
  lock := nofun
  locked := nofun
  poisoned := nofun
  since := nofun
  opening := nofun
  returned := nofun
  ids := fun _ => ⟨Nat.lt_succ_self id, List.pairwise_singleton _ _⟩

theorem mem_named_path (hsince : call.since ≤ s.past.length) : s.path ∈ s.named call := by
  rw [named, List.drop_append_of_le_length hsince]
  simp

/-- The step of a call that has the lock, and keeps it. -/
theorem Inv.setCall (hi : Inv backends s) (hcall : s.calls[i]? = some call)
    (hlock : call.pc.holdsLock = true) (pc : CurrentPc ω) (hkeeps : pc.holdsLock = true)
    (hopening : ∀ waveform, pc = .openingTarget waveform →
      ∃ file ∈ s.named call, backends.readVcd file = some (.ok waveform)) {next : Nat}
    (hnext : s.next ≤ next) :
    Inv backends ({ s with next }.setCall i call pc) where
  lock := by
    intro j call' hj
    rcases Pool.get_set hj with ⟨rfl, rfl⟩ | ⟨hne, hj⟩
    · exact iff_of_true hkeeps ((hi.lock i call hcall).mp hlock)
    · exact hi.lock j call' hj
  locked := fun j hj => by
    rw [GenerationSlot.setCall, List.length_set]
    exact hi.locked j hj
  poisoned := hi.poisoned
  since := fun call' hmem => by
    rcases List.mem_or_eq_of_mem_set hmem with hmem | rfl
    · exact hi.since call' hmem
    · exact hi.since call (List.mem_of_getElem? hcall)
  opening := fun call' hmem => by
    rcases List.mem_or_eq_of_mem_set hmem with hmem | rfl
    · exact hi.opening call' hmem
    · exact hopening
  returned := fun call' hmem g hg => by
    rcases List.mem_or_eq_of_mem_set hmem with hmem | rfl
    · exact hi.returned call' hmem g hg
    · have hpc : pc = .returned (.ok g) := hg
      rw [hpc] at hkeeps
      cases hkeeps
  ids := fun hle => by
    obtain ⟨hlt, hpairs⟩ := hi.ids (hnext.trans hle)
    exact ⟨hlt.trans_le hnext, hpairs⟩

/-- The step of a call that has the lock, and gives it back. -/
theorem Inv.leave (hi : Inv backends s) (hcall : s.calls[i]? = some call)
    (hlock : call.pc.holdsLock = true) (pc : CurrentPc ω) (hleaves : pc.holdsLock = false)
    {next : Nat} {current : Generation ω} {poisoned : Bool} (more : List (Generation ω))
    (hreturned : ∀ g, pc = .returned (.ok g) →
      g ∈ more ∧ ∃ file ∈ s.named call, Shows backends g.waveform file)
    (hids : next ≤ u64Max → s.next ≤ u64Max ∧ (s.current.id < s.next →
      current.id < next ∧ ((s.answers ++ [s.current]).Pairwise Before →
        (s.answers ++ more ++ [current]).Pairwise Before))) :
    Inv backends { s.setCall i call pc with
      next, current, locked := none, poisoned, answers := s.answers ++ more } where
  lock := by
    intro j call' hj
    refine iff_of_false ?_ nofun
    rcases Pool.get_set hj with ⟨rfl, rfl⟩ | ⟨hne, hj⟩
    · rw [hleaves]
      nofun
    · rw [hi.lock j call' hj, (hi.lock i call hcall).mp hlock]
      intro heq
      exact hne (Option.some.inj heq)
  locked := nofun
  poisoned := fun _ => rfl
  since := fun call' hmem => by
    have hsince : call'.since ≤ s.past.length ∧ call'.behind ≤ s.answers.length := by
      rcases List.mem_or_eq_of_mem_set hmem with hmem | rfl
      · exact hi.since call' hmem
      · exact hi.since call (List.mem_of_getElem? hcall)
    exact ⟨hsince.1, hsince.2.trans (by simp)⟩
  opening := fun call' hmem waveform hpc => by
    rcases List.mem_or_eq_of_mem_set hmem with hmem | rfl
    · exact hi.opening call' hmem waveform hpc
    · have hpc : pc = .openingTarget waveform := hpc
      rw [hpc] at hleaves
      cases hleaves
  returned := fun call' hmem g hg => by
    rcases List.mem_or_eq_of_mem_set hmem with hmem | rfl
    · obtain ⟨hin, hshown⟩ := hi.returned call' hmem g hg
      rw [List.drop_append_of_le_length (hi.since call' hmem).2]
      exact ⟨List.mem_append_left _ hin, hshown⟩
    · obtain ⟨hin, hshown⟩ := hreturned g hg
      rw [List.drop_append_of_le_length (hi.since call (List.mem_of_getElem? hcall)).2]
      exact ⟨List.mem_append_right _ hin, hshown⟩
  ids := fun hle => by
    obtain ⟨hnext, hids⟩ := hids hle
    obtain ⟨hlt, hpairs⟩ := hi.ids hnext
    exact ⟨(hids hlt).1, (hids hlt).2 hpairs⟩

theorem Inv.fail (hi : Inv backends s) (hcall : s.calls[i]? = some call)
    (hlock : call.pc.holdsLock = true) (error : ProtocolError) :
    Inv backends (s.finish i call (.error error)) :=
  hi.leave hcall hlock (.returned (.error error)) rfl [] nofun fun hle =>
    ⟨hle, fun hlt => ⟨hlt, fun hpairs => by rwa [List.append_nil]⟩⟩

theorem Inv.panic (hi : Inv backends s) (hcall : s.calls[i]? = some call)
    (hlock : call.pc.holdsLock = true) {next : Nat} (hnext : s.next ≤ next) :
    Inv backends ({ s with next }.panic i call) := by
  have hids : next ≤ u64Max → s.next ≤ u64Max ∧ (s.current.id < s.next →
      s.current.id < next ∧ ((s.answers ++ [s.current]).Pairwise Before →
        (s.answers ++ [] ++ [s.current]).Pairwise Before)) := fun hle =>
    ⟨hnext.trans hle, fun hlt => ⟨hlt.trans_le hnext, fun hpairs => by rwa [List.append_nil]⟩⟩
  have hleft : Inv backends { s.setCall i call .panicked with
      next, locked := none, poisoned := true, answers := s.answers ++ [] } :=
    hi.leave hcall hlock .panicked rfl [] nofun hids
  rw [List.append_nil] at hleft
  exact hleft

theorem freshId_eq (hle : s.next < u64Max) : s.freshId = some s.next := by
  have hmod : s.next % 2 ^ 64 = s.next := Nat.mod_eq_of_lt (by unfold u64Max at hle; omega)
  rw [freshId, hmod, if_neg (Nat.ne_of_lt hle)]

theorem Inv.publish (hi : Inv backends s) (hcall : s.calls[i]? = some call)
    (hlock : call.pc.holdsLock = true) {waveform : ω}
    (hshown : ∃ file ∈ s.named call, Shows backends waveform file) :
    Inv backends (s.publish i call waveform) := by
  unfold GenerationSlot.publish
  split
  · exact hi.panic hcall hlock (Nat.le_succ _)
  · rename_i id hid
    refine hi.leave hcall hlock (.returned (.ok ⟨id, waveform⟩)) rfl [⟨id, waveform⟩] ?_ ?_
    · intro g hg
      cases hg
      exact ⟨List.mem_singleton_self _, hshown⟩
    · intro hle
      have hlt : s.next < u64Max := hle
      rw [freshId_eq hlt] at hid
      cases hid
      refine ⟨Nat.le_of_lt hlt, fun hcurrent => ⟨Nat.lt_succ_self _, fun hpairs => ?_⟩⟩
      have hlater : ∀ g ∈ s.answers, Before g ⟨s.next, waveform⟩ := by
        intro g hg
        have hbefore := (List.pairwise_append.mp hpairs).2.2 g hg s.current (by simp)
        exact ⟨hbefore.1.trans (Nat.le_of_lt hcurrent),
          fun heq => absurd heq (Nat.ne_of_lt (hbefore.1.trans_lt hcurrent))⟩
      simp only [List.pairwise_append, List.mem_append, List.mem_singleton,
        List.pairwise_singleton, true_and] at hpairs ⊢
      refine ⟨⟨hpairs.1, ?_⟩, ?_⟩
      · rintro g hg _ rfl
        exact hlater g hg
      · rintro g (hg | rfl) _ rfl
        · exact hlater g hg
        · exact Before.refl _

/-! ## The steps -/

theorem Inv.advance (hi : Inv backends s) (hcall : s.calls[i]? = some call)
    (h : s.advance backends i call = some s') : Inv backends s' := by
  have hmem := List.mem_of_getElem? hcall
  have hpath := mem_named_path (hi.since call hmem).1
  unfold GenerationSlot.advance at h
  split at h
  case h_1 hpc =>
    have hlock : call.pc.holdsLock = true := by rw [hpc]; rfl
    split at h
    · rename_i hvalid
      cases h
      refine hi.leave hcall hlock (.returned (.ok s.current)) rfl [s.current] ?_ fun hle =>
        ⟨hle, fun hlt => ⟨hlt, fun hpairs => ?_⟩⟩
      · intro g hg
        cases hg
        exact ⟨List.mem_singleton_self _, s.path, hpath, .inl hvalid⟩
      · refine List.pairwise_append.mpr ⟨hpairs, List.pairwise_singleton _ _, ?_⟩
        intro g hg g' hg'
        cases List.mem_singleton.mp hg'
        rcases List.mem_append.mp hg with hg | hg
        · exact (List.pairwise_append.mp hpairs).2.2 g hg s.current (List.mem_singleton_self _)
        · cases List.mem_singleton.mp hg
          exact Before.refl _
    · cases h
      exact hi.setCall hcall hlock .probing rfl nofun (Nat.le_refl _)
  case h_2 hpc =>
    have hlock : call.pc.holdsLock = true := by rw [hpc]; rfl
    split at h
    · cases h; exact hi.fail hcall hlock _
    · cases h; exact hi.setCall hcall hlock .openingFst rfl nofun (Nat.le_refl _)
    · cases h; exact hi.setCall hcall hlock .checking rfl nofun (Nat.le_refl _)
  case h_3 hpc =>
    have hlock : call.pc.holdsLock = true := by rw [hpc]; rfl
    split at h
    · cases h; exact hi.panic hcall hlock (Nat.le_refl _)
    · cases h; exact hi.fail hcall hlock _
    · cases h; exact hi.setCall hcall hlock .checkingTarget rfl nofun (Nat.le_refl _)
  case h_4 hpc =>
    have hlock : call.pc.holdsLock = true := by rw [hpc]; rfl
    split at h
    · cases h; exact hi.fail hcall hlock _
    · split at h
      · cases h; exact hi.panic hcall hlock (Nat.le_succ _)
      · cases h; exact hi.setCall hcall hlock .openingVcd rfl nofun (Nat.le_succ _)
  case h_5 hpc =>
    have hlock : call.pc.holdsLock = true := by rw [hpc]; rfl
    split at h
    · cases h; exact hi.panic hcall hlock (Nat.le_refl _)
    · cases h; exact hi.fail hcall hlock _
    · rename_i waveform hread
      cases h
      refine hi.setCall hcall hlock (.openingTarget waveform) rfl ?_ (Nat.le_refl _)
      rintro waveform' ⟨⟩
      exact ⟨s.path, hpath, hread⟩
  case h_6 waveform hpc =>
    have hlock : call.pc.holdsLock = true := by rw [hpc]; rfl
    split at h
    · cases h; exact hi.fail hcall hlock _
    · cases h
      obtain ⟨file, hnamed, hread⟩ := hi.opening call hmem waveform hpc
      exact hi.publish hcall hlock ⟨file, hnamed, .inr (.inl hread)⟩
  case h_7 hpc =>
    have hlock : call.pc.holdsLock = true := by rw [hpc]; rfl
    split at h
    · cases h; exact hi.fail hcall hlock _
    · rename_i waveform hopen
      cases h
      exact hi.publish hcall hlock ⟨s.path, hpath, .inr (.inr hopen)⟩
  case h_8 => cases h
  case h_9 => cases h
  case h_10 => cases h

/-- A step of a call at the lock. -/
theorem Inv.enter (hi : Inv backends s) (hcall : s.calls[i]? = some call) {pc : CurrentPc ω}
    {locked : Option Nat} (hopening : ∀ waveform, pc ≠ .openingTarget waveform)
    (hreturned : ∀ g, pc ≠ .returned (.ok g)) (hlock : pc.holdsLock = true ↔ locked = some i)
    (hothers : ∀ j, i ≠ j → (s.locked = some j ↔ locked = some j))
    (hpoisoned : s.poisoned = true → locked = none) :
    Inv backends { s.setCall i call pc with locked } where
  lock := fun j call' hj => by
    rcases Pool.get_set hj with ⟨rfl, rfl⟩ | ⟨hne, hj⟩
    · exact hlock
    · exact (hi.lock j call' hj).trans (hothers j hne)
  locked := fun j hj => by
    rw [GenerationSlot.setCall, List.length_set]
    by_cases hij : i = j
    · subst hij
      exact (List.getElem?_eq_some_iff.mp hcall).1
    · exact hi.locked j ((hothers j hij).mpr hj)
  poisoned := hpoisoned
  since := fun call' hmem => by
    rcases List.mem_or_eq_of_mem_set hmem with hmem | rfl
    · exact hi.since call' hmem
    · exact hi.since call (List.mem_of_getElem? hcall)
  opening := fun call' hmem waveform hw => by
    rcases List.mem_or_eq_of_mem_set hmem with hmem | rfl
    · exact hi.opening call' hmem waveform hw
    · exact absurd hw (hopening waveform)
  returned := fun call' hmem g hg => by
    rcases List.mem_or_eq_of_mem_set hmem with hmem | rfl
    · exact hi.returned call' hmem g hg
    · exact absurd hg (hreturned g)
  ids := hi.ids

theorem Inv.lockStep (hi : Inv backends s) (hcall : s.calls[i]? = some call)
    (h : s.lock i call = some s') : Inv backends s' := by
  unfold GenerationSlot.lock at h
  split at h
  · cases h
  · rename_i hfree
    have hnone : s.locked = none := by simpa using hfree
    split at h
    · cases h
      have hentered : Inv backends { s.setCall i call .panicked with locked := s.locked } :=
        hi.enter hcall nofun nofun (iff_of_false nofun (by rw [hnone]; nofun)) (fun _ _ => Iff.rfl)
          hi.poisoned
      exact hentered
    · rename_i hsound
      cases h
      refine hi.enter hcall nofun nofun (iff_of_true rfl rfl) (fun j hne => ?_)
        fun hp => absurd hp hsound
      rw [hnone]
      exact iff_of_false nofun fun heq => hne (Option.some.inj heq)

theorem Inv.replace (hi : Inv backends s) (file : φ) :
    Inv backends { s with past := s.past ++ [s.path], path := file } := by
  have hnamed : ∀ call ∈ s.calls, ∀ f ∈ s.named call,
      f ∈ (s.past ++ [s.path] ++ [file]).drop call.since := by
    intro call hmem f hf
    rw [List.drop_append_of_le_length (by have := (hi.since call hmem).1; simp; omega)]
    exact List.mem_append_left _ hf
  exact { hi with
    since := fun call hmem => ⟨(hi.since call hmem).1.trans (by simp), (hi.since call hmem).2⟩
    opening := fun call hmem waveform hw => by
      obtain ⟨f, hf, hread⟩ := hi.opening call hmem waveform hw
      exact ⟨f, hnamed call hmem f hf, hread⟩
    returned := fun call hmem g hg => by
      obtain ⟨hin, f, hf, hshown⟩ := hi.returned call hmem g hg
      exact ⟨hin, f, hnamed call hmem f hf, hshown⟩ }

theorem Inv.newCall (hi : Inv backends s) : Inv backends { s with
    calls := s.calls ++ [⟨s.past.length, s.answers.length, .waiting⟩] } := by
  have hold : ∀ call ∈ s.calls ++ [⟨s.past.length, s.answers.length, .waiting⟩],
      call ∈ s.calls ∨ call = ⟨s.past.length, s.answers.length, .waiting⟩ := by
    intro call hmem
    simpa using hmem
  exact { hi with
    lock := fun j call hj => by
      rcases Pool.get_append hj with ⟨rfl, rfl⟩ | hj
      · refine iff_of_false nofun fun heq => ?_
        exact Nat.lt_irrefl _ (hi.locked _ heq)
      · exact hi.lock j call hj
    locked := fun j hj => (hi.locked j hj).trans_le (by simp)
    since := fun call hmem => by
      rcases hold call hmem with hmem | rfl
      · exact hi.since call hmem
      · exact ⟨Nat.le_refl _, Nat.le_refl _⟩
    opening := fun call hmem waveform hw => by
      rcases hold call hmem with hmem | rfl
      · exact hi.opening call hmem waveform hw
      · cases hw
    returned := fun call hmem g hg => by
      rcases hold call hmem with hmem | rfl
      · exact hi.returned call hmem g hg
      · cases hg }

theorem step_call (h : s.step backends (.step i) = some s') : ∃ call, s.calls[i]? = some call ∧
    ((call.pc = .waiting ∧ s.lock i call = some s') ∨ s.advance backends i call = some s') := by
  obtain ⟨call, hcall, h⟩ := Option.bind_eq_some_iff.mp h
  refine ⟨call, hcall, ?_⟩
  split at h
  · rename_i hpc
    exact .inl ⟨hpc, h⟩
  · exact .inr h

theorem Inv.step (hi : Inv backends s) {a : SlotAction φ} (h : s.step backends a = some s') :
    Inv backends s' := by
  cases a with
  | replace file =>
    cases h
    exact hi.replace file
  | fresh =>
    cases h
    exact { hi with
      ids := fun hle => by
        obtain ⟨hlt, hpairs⟩ := hi.ids (Nat.le_of_succ_le hle)
        exact ⟨Nat.lt_succ_of_lt hlt, hpairs⟩ }
  | call =>
    cases h
    exact hi.newCall
  | step i =>
    obtain ⟨call, hcall, ⟨-, h⟩ | h⟩ := step_call h
    · exact hi.lockStep hcall h
    · exact hi.advance hcall h

/-! ## What callers rely on -/

structure Consistent (backends : Backends φ ω) (s : GenerationSlot φ ω) : Prop where
  /-- At most one call looks at the path. -/
  exclusive : ∀ (i j : Nat) call call', s.calls[i]? = some call → s.calls[j]? = some call' →
    call.pc.holdsLock = true → call'.pc.holdsLock = true → i = j
  /-- What a call hands out passed for a file that the path named during the
  call, or was made from one. -/
  shown : ∀ call ∈ s.calls, ∀ g, call.pc = .returned (.ok g) →
    ∃ file ∈ s.named call, Shows backends g.waveform file
  /-- As long as there are fresh ids, they never go back, and an id stands for
  one generation; -/
  ordered : s.next ≤ u64Max → (s.answers ++ [s.current]).Pairwise Before
  /-- so a call hands out nothing older than what was handed out before it began. -/
  current : s.next ≤ u64Max → ∀ call ∈ s.calls, ∀ g, call.pc = .returned (.ok g) →
    ∀ g' ∈ s.answers.take call.behind, Before g' g

theorem Inv.consistent (hi : Inv backends s) : Consistent backends s where
  exclusive := fun i j call call' hcall hcall' hlock hlock' =>
    Option.some.inj (((hi.lock i call hcall).mp hlock).symm.trans
      ((hi.lock j call' hcall').mp hlock'))
  shown := fun call hmem g hg => (hi.returned call hmem g hg).2
  ordered := fun hle => (hi.ids hle).2
  current := fun hle call hmem g hg g' hg' => by
    have hpairs := (List.pairwise_append.mp (hi.ids hle).2).1
    rw [← List.take_append_drop call.behind s.answers] at hpairs
    exact (List.pairwise_append.mp hpairs).2.2 g' hg' g (hi.returned call hmem g hg).1

/-- **Whoever calls and whatever is put in the place of the path**, the slot
hands out what the path named, and never goes back. -/
theorem slot_consistent (backends : Backends φ ω) (path : φ) (waveform : ω) (id : Nat)
    (actions : List (SlotAction φ)) :
    Runs.Always (step backends) (Consistent backends) (.init path waveform id) actions := by
  rw [Runs.always_iff_prefix]
  intro taken _ s hs
  exact (Runs.exec_invariant (fun _ _ _ hi h => Inv.step hi h) taken _ s (inv_init path waveform id)
    hs).consistent

/-! ## After a panic -/

/-- Call `i` is at `pc`. -/
def At (s : GenerationSlot φ ω) (i : Nat) (pc : CurrentPc ω) : Prop :=
  ∃ call, s.calls[i]? = some call ∧ call.pc = pc

theorem at_set (hcall : s.calls[i]? = some call) (pc : CurrentPc ω) :
    (s.setCall i call pc).At i pc :=
  ⟨{ call with pc }, Pool.get_set_self hcall, rfl⟩

/-- Call `i` has the lock, and panics in the step to `s'`. -/
def PanicsAt (s s' : GenerationSlot φ ω) (i : Nat) : Prop :=
  (∃ call, s.calls[i]? = some call ∧ call.pc.holdsLock = true) ∧ s'.At i .panicked

theorem not_panicsAt {t : GenerationSlot φ ω} {pc : CurrentPc ω} (hcall : s.calls[i]? = some call)
    (hcalls : t.calls = s.calls.set i { call with pc }) (hpc : pc ≠ .panicked) :
    ¬ s.PanicsAt t i := by
  rintro ⟨-, call', hcall', hpanicked⟩
  rw [hcalls, Pool.get_set_self hcall] at hcall'
  cases hcall'
  exact hpc hpanicked

/-- A step of the call that has the lock poisons a sound slot if it is a panic. -/
theorem advance_poisons (hcall : s.calls[i]? = some call) (hsound : s.poisoned = false)
    (h : s.advance backends i call = some s') :
    call.pc.holdsLock = true ∧ (s'.poisoned = true ↔ s.PanicsAt s' i) := by
  have hstays : ∀ (t : GenerationSlot φ ω) (pc : CurrentPc ω),
      t.calls = s.calls.set i { call with pc } → pc ≠ .panicked → t.poisoned = s.poisoned →
      (t.poisoned = true ↔ s.PanicsAt t i) := fun t pc hcalls hpc hsame =>
    iff_of_false (by simp [hsame, hsound]) (not_panicsAt hcall hcalls hpc)
  have hpanics : call.pc.holdsLock = true → ∀ next : Nat,
      (({ s with next }.panic i call).poisoned = true ↔
        s.PanicsAt ({ s with next }.panic i call) i) := fun hlock next =>
    iff_of_true rfl ⟨⟨call, hcall, hlock⟩, at_set hcall .panicked⟩
  have hpublish : call.pc.holdsLock = true → ∀ waveform : ω,
      ((s.publish i call waveform).poisoned = true ↔
        s.PanicsAt (s.publish i call waveform) i) := by
    intro hlock waveform
    unfold GenerationSlot.publish
    split
    · exact hpanics hlock _
    · exact hstays _ _ rfl nofun rfl
  unfold GenerationSlot.advance at h
  split at h
  case h_8 | h_9 | h_10 => cases h
  all_goals
    rename_i hpc
    have hlock : call.pc.holdsLock = true := by rw [hpc]; rfl
    refine ⟨hlock, ?_⟩
    repeat' split at h
    all_goals
      cases h
      first
        | exact hpanics hlock _
        | exact hpublish hlock _
        | exact hstays _ _ rfl nofun rfl

/-- **A sound slot is poisoned by a panic under the lock**, and by nothing else. -/
theorem Inv.poisoned_iff (hi : Inv backends s) (hsound : s.poisoned = false) {a : SlotAction φ}
    (h : s.step backends a = some s') : s'.poisoned = true ↔ ∃ i, s.PanicsAt s' i := by
  -- a call that has the lock and stays where it is does not panic
  have hrests : ∀ t : GenerationSlot φ ω, t.poisoned = s.poisoned →
      (∀ (i : Nat) call, s.calls[i]? = some call → t.calls[i]? = some call) →
      (t.poisoned = true ↔ ∃ i, s.PanicsAt t i) := by
    intro t hsame hcalls
    refine iff_of_false (by simp [hsame, hsound]) ?_
    rintro ⟨i, ⟨call, hcall, hlock⟩, call', hcall', hpanicked⟩
    rw [hcalls i call hcall] at hcall'
    cases hcall'
    rw [hpanicked] at hlock
    cases hlock
  cases a with
  | replace file =>
    cases h
    exact hrests _ rfl fun _ _ hcall => hcall
  | fresh =>
    cases h
    exact hrests _ rfl fun _ _ hcall => hcall
  | call =>
    cases h
    refine hrests _ rfl fun i call hcall => ?_
    exact (List.getElem?_append_left (List.getElem?_eq_some_iff.mp hcall).1).trans hcall
  | step i =>
    obtain ⟨call, hcall, ⟨-, h⟩ | h⟩ := step_call h
    · unfold GenerationSlot.lock at h
      split at h
      · cases h
      · rename_i hfree
        rw [hsound, if_neg Bool.false_ne_true] at h
        cases h
        refine iff_of_false (by simp [GenerationSlot.setCall, hsound]) ?_
        rintro ⟨j, ⟨call', hcall', hlock⟩, -⟩
        rw [(hi.lock j call' hcall').mp hlock] at hfree
        exact hfree rfl
    · obtain ⟨hlock, hpoisons⟩ := advance_poisons hcall hsound h
      refine hpoisons.trans ⟨fun hpanics => ⟨i, hpanics⟩, ?_⟩
      rintro ⟨j, ⟨call', hcall', hlock'⟩, hpanicked⟩
      have hlocked : s.locked = some j := (hi.lock j call' hcall').mp hlock'
      rw [(hi.lock i call hcall).mp hlock] at hlocked
      cases hlocked
      exact ⟨⟨call, hcall, hlock⟩, hpanicked⟩

/-- Nothing is handed out any more. -/
theorem Inv.dead (hi : Inv backends s) (hpoisoned : s.poisoned = true) {a : SlotAction φ}
    (h : s.step backends a = some s') :
    s'.poisoned = true ∧ s'.answers = s.answers ∧ s'.current = s.current := by
  have hfree := hi.poisoned hpoisoned
  cases a with
  | replace file => cases h; exact ⟨hpoisoned, rfl, rfl⟩
  | fresh => cases h; exact ⟨hpoisoned, rfl, rfl⟩
  | call => cases h; exact ⟨hpoisoned, rfl, rfl⟩
  | step i =>
    obtain ⟨call, hcall, ⟨-, h⟩ | h⟩ := step_call h
    · simp only [GenerationSlot.lock, hfree, hpoisoned, Option.isSome_none, Bool.false_eq_true,
        if_false, if_true, Option.some.injEq] at h
      subst h
      exact ⟨hpoisoned, rfl, rfl⟩
    · have hnone : call.pc.holdsLock = false := by
        rw [Bool.eq_false_iff, Ne, hi.lock i call hcall, hfree]
        nofun
      unfold GenerationSlot.advance at h
      split at h
      case h_8 | h_9 | h_10 => cases h
      all_goals
        rename_i hpc
        rw [hpc] at hnone
        cases hnone

/-- What a panic means for the slot. -/
structure Poisoning (backends : Backends φ ω) (s : GenerationSlot φ ω) : Prop where
  sets : s.poisoned = false → ∀ a s', s.step backends a = some s' →
    (s'.poisoned = true ↔ ∃ i, s.PanicsAt s' i)
  /-- It is the last thing that the slot does: no later call is given a
  generation, whatever the path comes to name. -/
  remains : s.poisoned = true → ∀ as s', Runs.exec (step backends) s as = some s' →
    s'.poisoned = true ∧ s'.answers = s.answers ∧ s'.current = s.current

/-- **A panic while the file is reopened poisons the slot**, and for good. -/
theorem slot_poisoned (backends : Backends φ ω) (path : φ) (waveform : ω) (id : Nat)
    (actions : List (SlotAction φ)) :
    Runs.Always (step backends) (Poisoning backends) (.init path waveform id) actions := by
  rw [Runs.always_iff_prefix]
  intro taken _ s hs
  have hi : Inv backends s := Runs.exec_invariant (fun _ _ _ hi h => Inv.step hi h) taken _ s
    (inv_init path waveform id) hs
  refine ⟨fun hsound a s' h => hi.poisoned_iff hsound h, fun hpoisoned as s' h => ?_⟩
  refine Runs.exec_relation (I := Inv backends)
    (R := fun t => t.poisoned = true ∧ t.answers = s.answers ∧ t.current = s.current)
    (fun _ _ _ hi h => hi.step h) ?_ hi ⟨hpoisoned, rfl, rfl⟩ h
  intro t a t' hi ⟨hp, ha, hc⟩ h
  obtain ⟨hp', ha', hc'⟩ := hi.dead hp h
  exact ⟨hp', ha'.trans ha, hc'.trans hc⟩

/-- A reader of VCD files that panics on one of two. -/
def fragileBackends : Backends Bool Bool where
  path := "wave.vcd"
  probed := fun _ => .ok ⟨.ok 1, .ok (some 36), .ok (), some false, .ok (), .done⟩
  readVcd := fun file => if file then some (.ok file) else none
  canonicalize := fun _ => .ok ()
  openFst := fun _ => .error .staleSource
  validateSource := fun waveform file => waveform == file

/-- The file that cannot be read is put in the place of the other, and a call reopens it. -/
def fragileRun : List (SlotAction Bool) :=
  [.call, .replace false, .step 0, .step 0, .step 0, .step 0]

def fragileSlot : GenerationSlot Bool Bool :=
  ⟨[true], false, 1, ⟨0, true⟩, none, true, [⟨0, 0, .panicked⟩], []⟩

/-- Another call finds the slot poisoned, though the path names the first file again. -/
theorem slot_poisoned_reopening : ∃ s',
    Runs.exec (step fragileBackends) (.init true true 0) fragileRun = some fragileSlot ∧
      Runs.exec (step fragileBackends) fragileSlot [.replace true, .call, .step 1] = some s' ∧
      s'.At 1 .panicked ∧ s'.poisoned = true ∧ s'.answers = [] ∧ s'.current = ⟨0, true⟩ := by
  have hrun : Runs.exec (step fragileBackends) (.init true true 0) fragileRun =
      some fragileSlot := rfl
  have hpoisoned := (Runs.always_iff_prefix _ _).mp
    (slot_poisoned fragileBackends true true 0 fragileRun) fragileRun List.prefix_rfl _ hrun
  exact ⟨_, hrun, rfl, ⟨_, rfl, rfl⟩, hpoisoned.remains rfl [.replace true, .call, .step 1] _ rfl⟩

/-! ## A call by itself -/

/-- What a call has come to that had to reopen the path, by what the opening answers. -/
def Ends (s s' : GenerationSlot φ ω) (i : Nat) :
    Option (Except WaveformDetectionError ω) → Prop
  | none => s'.At i .panicked ∧ s'.poisoned = true
  | some (.error error) =>
    s'.At i (.returned (.error (mapWaveform error))) ∧ s'.current = s.current ∧ s'.poisoned = false
  | some (.ok waveform) => ∃ id, s.current.id < id ∧ s'.current = ⟨id, waveform⟩ ∧
    s'.At i (.returned (.ok ⟨id, waveform⟩)) ∧ s'.poisoned = false

/-- What a call of `current` comes to while the path stays what it is. -/
def Refreshed (backends : Backends φ ω) (s s' : GenerationSlot φ ω) (i : Nat) : Prop :=
  if backends.validateSource s.current.waveform s.path then
    s'.At i (.returned (.ok s.current)) ∧ s'.current = s.current ∧ s'.poisoned = false
  else Ends s s' i (backends.openWithHint s.path .auto)

/-- Call `i` alone takes the slot there. -/
def Leads (backends : Backends φ ω) (i : Nat) (s s' : GenerationSlot φ ω) : Prop :=
  ∃ n, Runs.exec (step backends) s (List.replicate n (.step i)) = some s'

theorem Leads.step {t : GenerationSlot φ ω} (h : s.step backends (.step i) = some t)
    (hrest : Leads backends i t s') : Leads backends i s s' := by
  obtain ⟨n, hn⟩ := hrest
  exact ⟨n + 1, by simp [List.replicate_succ, h, hn]⟩

theorem leads_self : Leads backends i s s := ⟨0, rfl⟩

/-- What a call by itself needs: it has the lock, and there are fresh ids. -/
structure Alone (s : GenerationSlot φ ω) (i : Nat) (call : CurrentCall ω) (spare : Nat) :
    Prop where
  here : s.calls[i]? = some call
  sound : s.poisoned = false
  id : s.current.id < s.next
  spare : s.next + spare ≤ u64Max

theorem Alone.at_set {spare : Nat} (h : Alone s i call spare) (pc : CurrentPc ω) :
    (s.setCall i call pc).At i pc :=
  GenerationSlot.at_set h.here pc

theorem Alone.set {spare : Nat} (h : Alone s i call spare) (pc : CurrentPc ω) :
    Alone (s.setCall i call pc) i { call with pc } spare :=
  ⟨Pool.get_set_self h.here, h.sound, h.id, h.spare⟩

theorem Alone.step_eq {spare : Nat} (backends : Backends φ ω) (h : Alone s i call spare)
    (hpc : call.pc ≠ .waiting) :
    s.step backends (.step i) = s.advance backends i call := by
  rw [GenerationSlot.step, h.here, Option.bind_eq_bind, Option.bind_some]
  split
  · exact absurd ‹_› hpc
  · rfl

theorem Alone.ends_panic {spare : Nat} (h : Alone s i call spare) :
    Ends s (s.panic i call) i none := ⟨h.at_set _, rfl⟩

theorem Alone.ends_fail {spare : Nat} (h : Alone s i call spare) (error : WaveformDetectionError) :
    Ends s (s.finish i call (.error (mapWaveform error))) i (some (.error error)) :=
  ⟨h.at_set _, rfl, h.sound⟩

theorem Alone.ends_publish (h : Alone s i call 1) (waveform : ω) :
    Ends s (s.publish i call waveform) i (some (.ok waveform)) := by
  rw [GenerationSlot.publish, freshId_eq h.spare]
  exact ⟨s.next, h.id, rfl, h.at_set _, h.sound⟩

theorem Alone.openFst (backends : Backends φ ω) (h : Alone s i call 1)
    (hpc : call.pc = .openingFst) :
    ∃ s', Leads backends i s s' ∧ Ends s s' i (some ((backends.openFst s.path).mapError mapFstOpen)) := by
  have hstep := h.step_eq backends (by simp [hpc])
  rw [GenerationSlot.advance, hpc] at hstep
  simp only at hstep
  cases hopen : backends.openFst s.path with
  | error error =>
    rw [hopen] at hstep
    exact ⟨_, .step hstep leads_self, h.ends_fail (mapFstOpen error)⟩
  | ok waveform =>
    rw [hopen] at hstep
    exact ⟨_, .step hstep leads_self, h.ends_publish waveform⟩

theorem Alone.openVcd (backends : Backends φ ω) (h : Alone s i call 1)
    (hpc : call.pc = .openingVcd) :
    ∃ s', Leads backends i s s' ∧ Ends s s' i
      ((backends.openVcd s.path).map fun opened => opened.mapError (.invalid .vcd)) := by
  have hstep := h.step_eq backends (by simp [hpc])
  rw [GenerationSlot.advance, hpc] at hstep
  simp only at hstep
  rw [Backends.openVcd]
  cases hread : backends.readVcd s.path with
  | none =>
    rw [hread] at hstep
    exact ⟨_, .step hstep leads_self, h.ends_panic⟩
  | some read =>
    rw [hread] at hstep
    cases read with
    | error message => exact ⟨_, .step hstep leads_self, h.ends_fail _⟩
    | ok waveform =>
      have hnext := h.set (.openingTarget waveform)
      have hstep' := hnext.step_eq backends (by simp)
      simp only [GenerationSlot.advance] at hstep'
      rw [show (s.setCall i call (.openingTarget waveform)).path = s.path from rfl] at hstep'
      cases htarget : backends.canonicalize s.path with
      | error message =>
        rw [htarget] at hstep'
        exact ⟨_, .step hstep (.step hstep' leads_self), hnext.ends_fail _⟩
      | ok _ =>
        rw [htarget] at hstep'
        exact ⟨_, .step hstep (.step hstep' leads_self), hnext.ends_publish _⟩

/-- The opening of a file that does not look like an FST. -/
theorem Alone.check (backends : Backends φ ω) (h : Alone s i call 2) (hpc : call.pc = .checking)
    (hprobe : probeAndValidateFst backends.path (backends.probed s.path) = .ok false) :
    ∃ s', Leads backends i s s' ∧ Ends s s' i (backends.openWithHint s.path .auto) := by
  have hstep := h.step_eq backends (by simp [hpc])
  rw [GenerationSlot.advance, hpc] at hstep
  simp only at hstep
  rw [Backends.openWithHint, Backends.detect, hprobe]
  cases hread : backends.readVcd s.path with
  | none =>
    rw [hread] at hstep
    refine ⟨_, .step hstep leads_self, ?_⟩
    simp only [Backends.openVcd, hread]
    exact h.ends_panic
  | some read =>
    rw [hread] at hstep
    cases read with
    | error message =>
      refine ⟨_, .step hstep leads_self, ?_⟩
      simp only [Backends.openVcd, hread]
      exact h.ends_fail _
    | ok waveform =>
      have hnext := h.set .checkingTarget
      have hstep' := hnext.step_eq backends (by simp)
      simp only [GenerationSlot.advance] at hstep'
      rw [show (s.setCall i call .checkingTarget).path = s.path from rfl] at hstep'
      cases htarget : backends.canonicalize s.path with
      | error message =>
        rw [htarget] at hstep'
        refine ⟨_, .step hstep (.step hstep' leads_self), ?_⟩
        simp only [Backends.openVcd, hread, htarget]
        exact hnext.ends_fail _
      | ok _ =>
        have hlt : s.next < u64Max := by have := h.spare; omega
        rw [htarget, freshId_eq (s := s.setCall i call .checkingTarget) hlt] at hstep'
        have hlast : Alone ({ s.setCall i call .checkingTarget with next := s.next + 1 }.setCall i
            { call with pc := .checkingTarget } .openingVcd) i { call with pc := .openingVcd } 1 :=
          ⟨Pool.get_set_self hnext.here, h.sound, Nat.lt_succ_of_lt h.id, h.spare⟩
        obtain ⟨s', hleads, hends⟩ := hlast.openVcd backends rfl
        refine ⟨s', .step hstep (.step hstep' hleads), ?_⟩
        simp only [Backends.openVcd, GenerationSlot.setCall, hread, htarget] at hends ⊢
        exact hends

theorem Alone.probe (backends : Backends φ ω) (h : Alone s i call 2) (hpc : call.pc = .probing) :
    ∃ s', Leads backends i s s' ∧ Ends s s' i (backends.openWithHint s.path .auto) := by
  have hstep := h.step_eq backends (by simp [hpc])
  rw [GenerationSlot.advance, hpc] at hstep
  simp only at hstep
  cases hprobe : probeAndValidateFst backends.path (backends.probed s.path) with
  | error error =>
    rw [hprobe] at hstep
    refine ⟨_, .step hstep leads_self, ?_⟩
    rw [Backends.openWithHint, Backends.detect, hprobe]
    exact h.ends_fail error
  | ok looksLikeFst =>
    rw [hprobe] at hstep
    cases looksLikeFst with
    | true =>
      have hnext := h.set .openingFst
      have hlast : Alone (s.setCall i call .openingFst) i { call with pc := .openingFst } 1 :=
        ⟨hnext.here, hnext.sound, hnext.id, Nat.le_of_succ_le hnext.spare⟩
      obtain ⟨s', hleads, hends⟩ := hlast.openFst backends rfl
      refine ⟨s', .step hstep hleads, ?_⟩
      rw [Backends.openWithHint, Backends.detect, hprobe]
      exact hends
    | false =>
      obtain ⟨s', hleads, hends⟩ := (h.set .checking).check backends rfl hprobe
      exact ⟨s', .step hstep hleads, hends⟩

theorem Alone.validate (backends : Backends φ ω) (h : Alone s i call 2)
    (hpc : call.pc = .validating) :
    ∃ s', Leads backends i s s' ∧ Refreshed backends s s' i := by
  have hstep := h.step_eq backends (by simp [hpc])
  rw [GenerationSlot.advance, hpc] at hstep
  simp only at hstep
  split at hstep
  · rename_i hvalid
    refine ⟨_, .step hstep leads_self, ?_⟩
    rw [Refreshed, if_pos hvalid]
    exact ⟨h.at_set _, rfl, h.sound⟩
  · rename_i hstale
    obtain ⟨s', hleads, hends⟩ := (h.set .probing).probe backends rfl
    refine ⟨s', .step hstep hleads, ?_⟩
    rw [Refreshed, if_neg hstale]
    exact hends

/-- **A call by itself does what `current` says**: it keeps a generation whose
source is still valid, and otherwise puts into the slot what opening the path
gives; an error of that leaves the slot as it was. -/
theorem slot_refreshes (backends : Backends φ ω) (path : φ) (waveform : ω) (id : Nat)
    (actions : List (SlotAction φ)) :
    Runs.Always (step backends) (fun s => ∀ i, s.At i .waiting → s.locked = none →
      s.poisoned = false → s.next + 2 ≤ u64Max →
        ∃ s', Leads backends i s s' ∧ Refreshed backends s s' i)
      (.init path waveform id) actions := by
  rw [Runs.always_iff_prefix]
  intro taken _ s hs i ⟨call, hcall, hpc⟩ hfree hsound hspare
  have hi : Inv backends s := Runs.exec_invariant (fun _ _ _ hi h => Inv.step hi h) taken _ s
    (inv_init path waveform id) hs
  have hid := (hi.ids (by omega)).1
  have hstep : s.step backends (.step i) =
      some { s.setCall i call .validating with locked := some i } := by
    rw [step, hcall, Option.bind_eq_bind, Option.bind_some, hpc]
    simp only [lock, hfree, hsound, Option.isSome_none, Bool.false_eq_true, if_false]
  have halone : Alone { s.setCall i call .validating with locked := some i } i
      { call with pc := .validating } 2 := ⟨Pool.get_set_self hcall, hsound, hid, hspare⟩
  obtain ⟨s', hleads, hrefreshed⟩ := halone.validate backends rfl
  exact ⟨s', .step hstep hleads, hrefreshed⟩

end GenerationSlot
end VcdTools.Server
