import VcdTools.Command
import VcdTools.Lib.Iter

/-! # The legacy iterator

`TimeValueIter` of `lib.rs`: the path-based extraction that callers feed with a
parser and a target map. It goes on after a parse error. -/
namespace VcdTools
open VcdTools.Lib

structure TimeValueIter where
  parser : List ParseResult
  targetMap : Groups IdCode String
  window : TimeWindow
  currentTime : Nat
  finished : Bool
  pending : List TimeValue

namespace TimeValueIter

/-- `TimeValueIter::new`. -/
def new (parser : List ParseResult) (targetMap : Groups IdCode String) (window : TimeWindow) :
    TimeValueIter :=
  { parser := parser, targetMap := targetMap, window := window, currentTime := 0,
    finished := false, pending := [] }

/-- `return None` after `self.finished = true`. -/
def finish (iter : TimeValueIter) : Option (Except VcdError TimeValue) × TimeValueIter :=
  (none, { iter with finished := true })

/-- The loop of `TimeValueIter::next` over what the parser still delivers. -/
def nextLoop (iter : TimeValueIter) :
    List ParseResult → Option (Except VcdError TimeValue) × TimeValueIter
  | [] => { iter with parser := [] }.finish
  | result :: rest =>
    let iter := { iter with parser := rest }
    match result with
    | .ok (.timestamp t) =>
      let iter := { iter with currentTime := t }
      if iter.window.end_.any (fun end_ => t > end_) then iter.finish else nextLoop iter rest
    | .ok cmd =>
      match commandToChangeValue cmd with
      | none => nextLoop iter rest
      | some (id, value) =>
        match iter.targetMap.get id with
        | none => nextLoop iter rest
        | some names =>
          if ¬ iter.window.contains iter.currentTime then
            if iter.window.end_.any (fun end_ => iter.currentTime > end_) then iter.finish
            else nextLoop iter rest
          else
            match iter.pending ++ names.map fun name => ⟨name, iter.currentTime, value⟩ with
            | tv :: pending => (some (.ok tv), { iter with pending := pending })
            | [] => nextLoop iter rest
    | .error e => (some (.error (.io e)), iter)

/-- `TimeValueIter::next`. -/
def next (iter : TimeValueIter) : Option (Except VcdError TimeValue) × TimeValueIter :=
  match iter.pending with
  | tv :: pending => (some (.ok tv), { iter with pending := pending })
  | [] => if iter.finished then (none, iter) else nextLoop iter iter.parser

/-- What the parser still delivers, and the rows that wait. -/
def size (iter : TimeValueIter) : Nat × Nat := (iter.parser.length, iter.pending.length)

/-- An item of the loop leaves less for the parser. -/
theorem nextLoop_shrinks (rest : List ParseResult) (iter : TimeValueIter)
    {item : Except VcdError TimeValue} {iter' : TimeValueIter}
    (h : iter.nextLoop rest = (some item, iter')) : iter'.parser.length < rest.length := by
  induction rest generalizing iter with
  | nil => cases congrArg Prod.fst h
  | cons result rest ih =>
    have hlater : ∀ iter : TimeValueIter, iter.nextLoop rest = (some item, iter') →
        iter'.parser.length < (result :: rest).length :=
      fun iter hiter => Nat.lt_succ_of_lt (ih iter hiter)
    unfold nextLoop at h
    simp only at h
    split at h
    · split at h
      · cases congrArg Prod.fst h
      · exact hlater _ h
    · split at h
      · exact hlater _ h
      · split at h
        · exact hlater _ h
        · split at h
          · split at h
            · cases congrArg Prod.fst h
            · exact hlater _ h
          · split at h
            · cases h
              exact Nat.lt_succ_self _
            · exact hlater _ h
    · cases h
      exact Nat.lt_succ_self _

/-- **The iterator gets smaller** with each item, errors included. -/
theorem next_shrinks (iter : TimeValueIter) {item : Except VcdError TimeValue}
    {iter' : TimeValueIter} (h : iter.next = (some item, iter')) :
    Prod.Lex (· < ·) (· < ·) iter'.size iter.size := by
  unfold next at h
  split at h
  · rename_i tv pending hpending
    cases h
    rw [size, size, hpending]
    exact Prod.Lex.right _ (Nat.lt_succ_self _)
  · split at h
    · cases h
    · exact Prod.Lex.left _ _ (nextLoop_shrinks _ _ h)

/-- `next` for a loop that takes the errors for items too. -/
def nextItem {ε : Type} (iter : TimeValueIter) :
    Option (Except ε (Except VcdError TimeValue)) × TimeValueIter :=
  (iter.next.1.map .ok, iter.next.2)

theorem nextItem_shrinks {ε : Type} (iter : TimeValueIter) (item : Except VcdError TimeValue)
    (iter' : TimeValueIter)
    (h : iter.nextItem = ((some (.ok item) : Option (Except ε (Except VcdError TimeValue))), iter')) :
    Prod.Lex (· < ·) (· < ·) iter'.size iter.size := by
  obtain ⟨hitem, rfl⟩ := Prod.mk.inj h
  obtain ⟨item', hnext, hitem⟩ := Option.map_eq_some_iff.mp hitem
  cases hitem
  exact iter.next_shrinks (Prod.ext hnext rfl)

end TimeValueIter
end VcdTools
