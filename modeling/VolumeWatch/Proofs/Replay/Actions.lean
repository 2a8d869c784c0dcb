import VolumeWatch.Proofs.Engine.Turns
import VolumeWatch.Replay

/-!
Replays as runs of actions: every bar is handed in, and the worker gets its turn after each line
that is not blank while a batch is complete (`Replay.engine_ofLines`).
-/

namespace VolumeWatch

open Engine

variable {α : Type}

def Line.bar? : Line α → Option (Bar α)
  | .bar b => some b
  | _ => none

namespace Replay

/-- The turn of the worker after a line, when there have been so many bars. -/
def turnAt (bars : Nat) : List (Action α) := if bars % batch = 0 then [.settle] else []

/-- What lines do to an engine, when there have been so many bars before them. -/
def actions (bars : Nat) : List (Line α) → List (Action α)
  | [] => []
  | .blank :: lines => actions bars lines
  | .junk :: lines => turnAt bars ++ actions bars lines
  | .bar b :: lines => .submit b :: (turnAt (bars + 1) ++ actions (bars + 1) lines)

theorem filterMap_bar?_turnAt (bars : Nat) : (turnAt (α := α) bars).filterMap Action.bar? = [] := by
  unfold turnAt
  split <;> rfl

/-- The bars that are handed in are those of the lines, in the same order. -/
theorem filterMap_bar?_actions (bars : Nat) (lines : List (Line α)) :
    (actions bars lines).filterMap Action.bar? = lines.filterMap Line.bar? := by
  induction lines generalizing bars with
  | nil => rfl
  | cons l lines ih =>
    cases l with
    | blank => exact ih bars
    | junk =>
      rw [actions, List.filterMap_append, filterMap_bar?_turnAt]
      exact ih bars
    | bar b =>
      show b :: (turnAt (bars + 1) ++ actions (bars + 1) lines).filterMap Action.bar? =
        b :: lines.filterMap Line.bar?
      rw [List.filterMap_append, filterMap_bar?_turnAt, List.nil_append, ih]

variable [Scalar α]

theorem yieldTurn_eq (r : Replay α) : r.yieldTurn = ⟨r.engine.run (turnAt r.bars), r.bars⟩ := by
  unfold yieldTurn turnAt
  split <;> rfl

theorem engine_foldl_take (r : Replay α) (lines : List (Line α)) :
    (lines.foldl take r).engine = r.engine.run (actions r.bars lines) := by
  induction lines generalizing r with
  | nil => rfl
  | cons l lines ih =>
    refine (ih (r.take l)).trans ?_
    cases l with
    | blank => rfl
    | junk =>
      rw [take, yieldTurn_eq, actions, run_append]
    | bar b =>
      rw [take, yieldTurn_eq, actions, ← List.singleton_append, run_append, run_append]
      rfl

theorem engine_ofLines (e : Engine α) (lines : List (Line α)) :
    (ofLines e lines).engine = e.run (actions 0 lines) :=
  engine_foldl_take ⟨e, 0⟩ lines

end Replay

end VolumeWatch
