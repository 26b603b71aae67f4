import TapeRunner.Error

/-!
# A periodic task on its own thread

A task that is called again and again until it ends itself at a chosen call. However it ends, its
timer is cancelled; only a task that raises leaves a line in the journal.
-/

set_option autoImplicit false
set_option relaxedAutoImplicit false

namespace TapeRunner.Thread

/-- How a task ends itself: it cancels its timer, it cancels and waits for it, which returns at once
on the timer's own thread, or it raises. -/
inductive Ending
  | cancel
  | join
  | raise
deriving DecidableEq

/-- What is left of a thread that has ended. -/
structure Outcome where
  calls : Nat
  cancelled : Bool
  logged : List String
deriving DecidableEq

/-- Calls until the last one, of which `remaining` are still to come after `calls`. A task with no
call to come is cancelled before the next one. -/
def callsFrom (ending : Ending) : Nat → Nat → Outcome
  | 0, calls => ⟨calls, true, []⟩
  | 1, calls => ⟨calls + 1, true, if ending = .raise then ["scheduler.callback_failed"] else []⟩
  | remaining + 2, calls => callsFrom ending (remaining + 1) (calls + 1)

/-- Runs a task until it has ended. The interval, given as a ratio, has to be positive. -/
def run (numerator denominator : Int) (fires : Nat) (ending : Ending) : Except Error Outcome :=
  match Number.ratio numerator denominator with
  | .error fault => .error (.ratio fault)
  | .ok interval =>
    if interval ≤ 0 then .error .interval else .ok (callsFrom ending fires 0)

end TapeRunner.Thread
