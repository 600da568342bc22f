import VcdTools.Lib.FixedPoint
import VcdTools.Server.Protocol

/-! # The end frame states the size of its stream

The frame holds the number of bytes of the whole stream, its own line included,
so that the number depends on the length of its own text. -/
namespace VcdTools.Server
open VcdTools.Lib VcdTools.Lib.FixedPoint Json

/-- The end frame of a stream with `candidate` for its size. -/
def endFrame (id : String) (seq : Nat) (stats : StreamStats) (candidate : Nat) : ResponseFrame :=
  .end_ { v := protocolVersion, id, seq, frameType := "end", complete := true,
          stats := some { stats with encodedBytes := Nat.repr candidate }, error := none }

/-- **What `end_success` gives.** -/
structure StatesItsSize (id : String) (seq : Nat) (stats : StreamStats)
    (priorEncodedBytes : Nat) : Prop where
  /-- There is a smallest size that states itself, and the loop finds it. -/
  found : ∃ total,
    IsLeast {t | priorEncodedBytes + encodedJsonLineBytes (endFrame id seq stats t) = t} total ∧
    ResponseFrame.endSuccess id seq stats priorEncodedBytes =
      if total ≤ u64Max then some (endFrame id seq stats total) else none
  /-- The loop fails for no other reason than an overflow of the sum. -/
  fits : (∃ frame, ResponseFrame.endSuccess id seq stats priorEncodedBytes = some frame) ↔
    priorEncodedBytes + encodedJsonLineBytes (endFrame id seq stats u64Max) ≤ u64Max
  exact : ∀ frame, ResponseFrame.endSuccess id seq stats priorEncodedBytes = some frame →
    ∃ total, frame = endFrame id seq stats total ∧
      total = priorEncodedBytes + encodedJsonLineBytes frame ∧ total ≤ u64Max

/-! ## The loop -/

theorem endSuccessFrom_search (frames : Nat → ResponseFrame) (prior fuel candidate : Nat) :
    endSuccessFrom frames prior fuel candidate =
      (search (fun t => prior + encodedJsonLineBytes (frames t)) u64Max fuel candidate).map
        frames := by
  induction fuel generalizing candidate with
  | zero => rfl
  | succ fuel ih =>
    rw [endSuccessFrom, search]
    simp only [ih]
    split
    · rfl
    · split <;> rfl

theorem digits_u64 {n : Nat} (h : n ≤ u64Max) : digits n ≤ 20 := by
  rw [digits_le_iff (by decide)]
  exact Nat.lt_of_le_of_lt h (by decide)

/-- The loop over frames whose size is that of their number, up to a constant. -/
theorem endSuccessFrom_eq {frames : Nat → ResponseFrame} {base prior total : Nat}
    (hsize : ∀ c, encodedJsonLineBytes (frames c) = base + digits c)
    (hleast : IsLeast {t | prior + encodedJsonLineBytes (frames t) = t} total) :
    endSuccessFrom frames prior 32 0 = if total ≤ u64Max then some (frames total) else none := by
  have hmono : Monotone fun t => prior + encodedJsonLineBytes (frames t) := by
    intro a b hab
    have := digits_mono hab
    simp only [hsize]
    omega
  rw [endSuccessFrom_search, search_eq hmono hleast (fun _ _ => digits_mono)
    (fun a b hab => by simp only [hsize, hab]) (fun _ => digits_u64) 32 0 (Nat.zero_le _)
    (Nat.zero_le _) (by decide)]
  split <;> rfl

/-- Such a size exists, and the smallest is near any bound on it. -/
theorem exists_least_total {frames : Nat → ResponseFrame} {base : Nat} (prior : Nat)
    (hsize : ∀ c, encodedJsonLineBytes (frames c) = base + digits c) :
    ∃ total, IsLeast {t | prior + encodedJsonLineBytes (frames t) = t} total ∧
      ∀ m, digits (prior + base + m) ≤ m → total ≤ prior + base + m := by
  have hfixed : ∀ m, digits (prior + base + m) ≤ m →
      ∃ t ≤ prior + base + m, prior + encodedJsonLineBytes (frames t) = t := by
    intro m hm
    obtain ⟨d, hd, heq⟩ := exists_digits_fixed hm
    exact ⟨prior + base + d, by omega, by rw [hsize, heq, Nat.add_assoc]⟩
  obtain ⟨t, _, ht⟩ := hfixed _ (digits_add_self_le (prior + base))
  have hexists : ∃ t, prior + encodedJsonLineBytes (frames t) = t := ⟨t, ht⟩
  have hleast := Nat.isLeast_find hexists
  refine ⟨_, hleast, fun m hm => ?_⟩
  obtain ⟨t, hle, ht⟩ := hfixed m hm
  exact Nat.le_trans (hleast.2 ht) hle

/-! ## The frame -/

/-- The frame without the digits of its number. -/
theorem endFrame_size (id : String) (seq : Nat) (stats : StreamStats) :
    ∃ base, ∀ c, encodedJsonLineBytes (endFrame id seq stats c) = base + digits c := by
  refine ⟨encodedJsonLineBytes (endFrame id seq stats 0) - 1, fun c => ?_⟩
  simp only [encodedJsonLineBytes, endFrame, ResponseFrame.toJson, StreamStats.toJson, Option.elim,
    List.append_nil, List.cons_append, List.nil_append, size_obj_cons, renderFields_cons,
    renderFields_nil, size_num, size_str, string_repr_bytes, digits_zero]
  omega

/-- The loop gives one of its frames. -/
theorem endSuccess_frame {id : String} {seq : Nat} {stats : StreamStats} {priorEncodedBytes : Nat}
    {frame : ResponseFrame}
    (h : ResponseFrame.endSuccess id seq stats priorEncodedBytes = some frame) :
    ∃ total, frame = endFrame id seq stats total := by
  have hloop : ∀ fuel candidate,
      endSuccessFrom (endFrame id seq stats) priorEncodedBytes fuel candidate = some frame →
        ∃ total, frame = endFrame id seq stats total := by
    intro fuel candidate hframe
    rw [endSuccessFrom_search] at hframe
    obtain ⟨total, -, rfl⟩ := Option.map_eq_some_iff.mp hframe
    exact ⟨total, rfl⟩
  exact hloop 32 0 h

/-- **The end frame states the size of its stream**, whenever a `u64` can. -/
theorem end_success_exact (id : String) (seq : Nat) (stats : StreamStats)
    (priorEncodedBytes : Nat) : StatesItsSize id seq stats priorEncodedBytes := by
  obtain ⟨base, hsize⟩ := endFrame_size id seq stats
  obtain ⟨total, hleast, hnear⟩ := exists_least_total priorEncodedBytes hsize
  have hsearch := endSuccessFrom_eq hsize hleast
  have hfound : ResponseFrame.endSuccess id seq stats priorEncodedBytes =
      if total ≤ u64Max then some (endFrame id seq stats total) else none := hsearch
  have htotal : priorEncodedBytes + base + digits total = total := by
    rw [Nat.add_assoc, ← hsize]
    exact hleast.1
  have hmax : digits u64Max = 20 := by decide
  refine ⟨⟨total, hleast, hfound⟩, ?_, ?_⟩
  · rw [hsize, hmax, hfound]
    constructor
    · intro ⟨frame, hframe⟩
      by_contra hover
      -- only a number of twenty digits is that near to the maximum
      have hlong : 19 < digits total := by
        rw [← Nat.not_le, digits_le_iff (by decide)]
        have := digits_pos total
        unfold u64Max at hover
        omega
      split at hframe
      · have := digits_u64 ‹total ≤ u64Max›
        omega
      · cases hframe
    · intro hroom
      have hle : total ≤ u64Max :=
        (hnear 20 (digits_u64 (by omega))).trans (by omega)
      exact ⟨_, if_pos hle⟩
  · intro frame hframe
    rw [hfound] at hframe
    split at hframe
    · rename_i hle
      cases hframe
      exact ⟨total, rfl, hleast.1.symm, hle⟩
    · cases hframe

end VcdTools.Server
