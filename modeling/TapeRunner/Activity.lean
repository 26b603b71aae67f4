import TapeRunner.Error

/-!
# Activities

Computations that change a state and may be cut short. A cut keeps every change made before it, so
that whoever catches an error finds the state as it was left.
-/

set_option autoImplicit false
set_option relaxedAutoImplicit false

namespace TapeRunner

/-- A computation over a state, with the changes kept when it ends early. -/
abbrev Activity (State : Type) : Type → Type := ExceptT Halt (StateM State)

namespace Activity

variable {State Result : Type}

/-- Raises an error. -/
def fail (error : Error) : Activity State Result := throw (.raised error)

/-- Gives up for want of work allowed. -/
def giveUp : Activity State Result := throw .unfinished

/-- Turns a fault into an answer; every other end stays an end. -/
def attempt (activity : Activity State Result) : Activity State (Except Fault Result) :=
  tryCatch (do return .ok (← activity)) fun
    | .raised (.fault fault) => return .error fault
    | halt => throw halt

/-- Carries on after any error, answering whether there was one. -/
def survives (activity : Activity State Unit) : Activity State Bool :=
  tryCatch (do activity; return true) fun
    | .raised _ => return false
    | .unfinished => throw .unfinished

/-- Runs an activity from a state. -/
def runFrom (activity : Activity State Result) (state : State) : Except Halt Result × State :=
  activity.run.run state

/-! ### What a run of an activity is -/

variable {Next : Type} (state : State)

@[simp] theorem runFrom_pure (result : Result) :
    runFrom (pure result) state = (.ok result, state) := rfl

@[simp] theorem runFrom_fail (error : Error) :
    runFrom (fail error : Activity State Result) state = (.error (.raised error), state) := rfl

@[simp] theorem runFrom_giveUp :
    runFrom (giveUp : Activity State Result) state = (.error .unfinished, state) := rfl

@[simp] theorem runFrom_get : runFrom (get : Activity State State) state = (.ok state, state) := rfl

@[simp] theorem runFrom_modify (change : State → State) :
    runFrom (modify change : Activity State Unit) state = (.ok (), change state) := rfl

/-- What follows starts from the state left behind, and not at all after an early end. -/
theorem runFrom_bind (first : Activity State Result) (next : Result → Activity State Next) :
    runFrom (first >>= next) state = match runFrom first state with
      | (.ok result, after) => runFrom (next result) after
      | (.error halt, after) => (.error halt, after) := by
  unfold runFrom ExceptT.run StateT.run
  simp only [bind, ExceptT.bind, ExceptT.mk, ExceptT.bindCont, StateT.bind]
  cases first state with
  | mk result after => cases result <;> rfl

/-- A rescue starts from the state in which the activity ended early. -/
theorem runFrom_tryCatch (activity : Activity State Result)
    (rescue : Halt → Activity State Result) :
    runFrom (tryCatch activity rescue) state = match runFrom activity state with
      | (.ok result, after) => (.ok result, after)
      | (.error halt, after) => runFrom (rescue halt) after := by
  unfold runFrom ExceptT.run StateT.run
  simp only [tryCatch, tryCatchThe, MonadExceptOf.tryCatch, ExceptT.tryCatch, ExceptT.mk, bind,
    StateT.bind]
  cases activity state with
  | mk result after => cases result <;> rfl

/-- An attempt ends as the activity does, in the same state, save that a fault is its answer. -/
theorem runFrom_attempt (activity : Activity State Result) :
    runFrom (attempt activity) state = match runFrom activity state with
      | (.ok result, after) => (.ok (.ok result), after)
      | (.error (.raised (.fault fault)), after) => (.ok (.error fault), after)
      | (.error halt, after) => (.error halt, after) := by
  rw [attempt, runFrom_tryCatch, runFrom_bind]
  rcases runFrom activity state with ⟨halt | result, after⟩
  · rcases halt with error | _
    · cases error <;> rfl
    · rfl
  · rfl

end Activity

/-- The position that an index names in a sequence: from the end if it is negative. -/
def positionOf (size : Nat) (index : Int) : Option Nat :=
  let position := if index < 0 then index + size else index
  if 0 ≤ position && position < size then some position.toNat else none

end TapeRunner
