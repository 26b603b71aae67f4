import TapeRunner.Activity

/-!
# Timers

Periodic tasks that fire by hand. Every timer ever made is kept, in the order of creation, so that
its interval and its cancellation can be looked up later. Firing goes in rounds: a round calls the
timers that were live when it began and still are when their turn comes.
-/

set_option autoImplicit false
set_option relaxedAutoImplicit false

namespace TapeRunner

/-- A periodic task. -/
structure Timer (Task : Type) where
  interval : Float
  task : Task
  cancelled : Bool
deriving DecidableEq

namespace Timer

variable {State Task : Type}

/-- Adds a live timer; the interval has to be positive. -/
def every (timers : Array (Timer Task)) (interval : Float) (task : Task) :
    Except Error (Array (Timer Task)) :=
  if interval ≤ 0 then .error .interval else .ok (timers.push ⟨interval, task, false⟩)

/-- Cancels a timer; a cancelled timer stays cancelled. -/
def cancel (timers : Array (Timer Task)) (index : Nat) : Array (Timer Task) :=
  timers.modify index ({ · with cancelled := true })

/-- The timer at a position is there and not cancelled. -/
def isLive (timers : Array (Timer Task)) (index : Nat) : Bool :=
  match timers[index]? with
  | some timer => !timer.cancelled
  | none => false

/-- The positions of the live timers, in the order of creation. -/
def live (timers : Array (Timer Task)) : List Nat :=
  (List.range timers.size).filter (isLive timers)

@[simp] theorem size_cancel (timers : Array (Timer Task)) (index : Nat) :
    (cancel timers index).size = timers.size := by
  simp [cancel]

/-- A cancelled timer is not live, and no other timer is touched. -/
theorem isLive_cancel (timers : Array (Timer Task)) (index other : Nat) :
    isLive (cancel timers index) other = (isLive timers other && other != index) := by
  by_cases same : index = other
  · subst same
    simp only [isLive, cancel, Array.getElem?_modify, if_true]
    cases timers[index]? <;> simp
  · simp only [isLive, cancel, Array.getElem?_modify, if_neg same]
    cases timers[other]? <;> simp [Ne.symm same]

theorem mem_live_iff (timers : Array (Timer Task)) (index : Nat) :
    index ∈ live timers ↔ isLive timers index = true := by
  simp only [live, List.mem_filter, List.mem_range, and_iff_right_iff_imp]
  intro alive
  rcases Nat.lt_or_ge index timers.size with inside | outside
  · exact inside
  · simp [isLive, Array.getElem?_eq_none outside] at alive

variable (timersOf : State → Array (Timer Task)) (call : Nat → Activity State Unit)

/-- Calls the listed timers that are live when their turn comes, adding their number to `fired`. -/
def fireListed : List Nat → Nat → Activity State Nat
  | [], fired => pure fired
  | index :: later, fired => do
    if isLive (timersOf (← get)) index then
      call index
      fireListed later (fired + 1)
    else
      fireListed later fired

/-- A number of rounds, adding the number of calls to `fired`. -/
def fireRounds : Nat → Nat → Activity State Nat
  | 0, fired => pure fired
  | rounds + 1, fired => do
    let fired ← fireListed timersOf call (live (timersOf (← get))) fired
    fireRounds rounds fired

/-- Fires every live timer a number of times, and answers how many calls that made. -/
def fire (rounds : Nat) : Activity State Nat :=
  fireRounds timersOf call rounds 0

end Timer

end TapeRunner
