import TapeRunner.Timer

/-!
# Rehearsing timers

Timers alone, whose tasks follow rules: at chosen calls of its own a task makes further timers,
cancels any of them, fires again or raises. The stage keeps every call in the order in which it
began.
-/

set_option autoImplicit false
set_option relaxedAutoImplicit false

namespace TapeRunner.TimerRehearsal

/-- What can be asked of the timers. An interval is given as a ratio. A rule lists calls, counted
from one, and the cues for them. -/
inductive Cue
  | every (name : String) (numerator denominator : Int) (rules : List (List Nat × List Cue))
  | cancel (index : Int)
  | fire (rounds : Nat)
  | raise (message : String)

/-- Cues for the calls listed. -/
abbrev Rule := List Nat × List Cue

/-- A task: its name and the rules that it follows. -/
structure Part where
  name : String
  rules : List Rule

/-- The timers, and the positions of those called so far. -/
structure Stage where
  timers : Array (Timer Part)
  called : Array Nat

/-- What a cue answers. -/
inductive Reply
  | nothing
  | made (interval : Float)
  | calls (count : Nat)
deriving DecidableEq

namespace Stage

/-- No timer has been made. -/
def empty : Stage := ⟨#[], #[]⟩

/-- The names of the tasks called, from a place in the list of calls on. -/
def namesFrom (stage : Stage) (start : Nat) : List String :=
  (stage.called.toList.drop start).filterMap fun position ↦
    (stage.timers[position]?).map (·.task.name)

/-- Carries out a cue; `call` is what calling the timer at a position does. -/
def perform (call : Nat → Activity Stage Unit) : Cue → Activity Stage Reply
  | .every name numerator denominator rules => do
    match Number.ratio numerator denominator with
    | .error fault => Activity.fail (.ratio fault)
    | .ok interval =>
      let stage ← get
      match Timer.every stage.timers interval ⟨name, rules⟩ with
      | .error error => Activity.fail error
      | .ok timers =>
        set { stage with timers }
        return .made interval
  | .cancel index => do
    let stage ← get
    match positionOf stage.timers.size index with
    | none => Activity.fail .noEntry
    | some position =>
      set { stage with timers := Timer.cancel stage.timers position }
      return .nothing
  | .fire rounds => do return .calls (← Timer.fire (·.timers) call rounds)
  | .raise message => Activity.fail (.raised message)

/-- Calls the timer at a position, with calls inside calls up to a depth. -/
def callTimer : Nat → Nat → Activity Stage Unit
  | 0, _ => Activity.giveUp
  | depth + 1, position => do
    modify fun stage ↦ { stage with called := stage.called.push position }
    let stage ← get
    let number := (stage.called.toList.filter (· = position)).length
    match stage.timers[position]? with
    | none => Activity.fail .noEntry
    | some timer =>
      timer.task.rules.forM fun rule ↦ do
        if number ∈ rule.1 then
          rule.2.forM fun cue ↦ do
            let _ ← perform (callTimer depth) cue

end Stage

end TapeRunner.TimerRehearsal
