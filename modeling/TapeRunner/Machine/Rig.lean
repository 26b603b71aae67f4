import TapeRunner.Machine.Supply

/-!
A rig: a machine with its own supply and output, and nobody who watches. `step` and `execute` are
the machine's operations with both ends connected; `stepTimes` and `runUpTo` repeat the step and
keep what was done before a refusal.
-/

set_option autoImplicit false
set_option relaxedAutoImplicit false

namespace TapeRunner

/-- A machine between its supply and its output. -/
structure Rig where
  machine : Machine
  supply : Supply
  output : Output
deriving DecidableEq

namespace Rig

/-- A program at its start, with one text to read. A tape needs at least one cell. -/
def load? (code : String) (size : Int) (input : String) : Option Rig :=
  if size ≤ 0 then none
  else some ⟨.load code size.toNat, .ofText input, .empty⟩

/-- Connects an effect to the two ends. -/
def settle (rig : Rig) (effect : Effect) : Rig where
  machine := effect.machine
  supply := if effect.consumed then rig.supply.rest else rig.supply
  output := match effect.written with
    | some byte => rig.output.put byte.toNat
    | none => rig.output

/-- Moves the counter. -/
def resumeAt (rig : Rig) (counter : Nat) : Rig :=
  { rig with machine := { rig.machine with counter } }

/-- One step of the program. -/
def step (rig : Rig) : Except Stop Rig := do
  let (effect, counter) ← rig.machine.advance rig.supply.offer
  return (rig.settle effect).resumeAt counter

/-- One instruction beside the program. -/
def execute (rig : Rig) (instruction : String) : Except Stop Rig := do
  let effect ← rig.machine.execute rig.supply.offer instruction
  return rig.settle effect

/-- Puts a text behind the pending input. -/
def feed (rig : Rig) (text : String) : Rig := { rig with supply := rig.supply.feed text }

/-- A number of steps, given up at the first refusal. -/
def stepTimes : Nat → Rig → Option Stop × Rig
  | 0, rig => (none, rig)
  | count + 1, rig =>
    match rig.step with
    | .ok next => stepTimes count next
    | .error stop => (some stop, rig)

/-- Steps until the end of the program, a refusal, or the given number of steps; `done` counts
the steps made before. -/
def runUpTo : Nat → Nat → Rig → Except Stop Nat × Rig
  | 0, done, rig => (.ok done, rig)
  | budget + 1, done, rig =>
    if rig.machine.atEnd then (.ok done, rig)
    else match rig.step with
      | .ok next => runUpTo budget (done + 1) next
      | .error stop => (.error stop, rig)

/-- The cells that are not zero, with their positions. -/
def nonzeroCells (rig : Rig) : List (Nat × UInt8) :=
  rig.machine.cells.toList.zipIdx.filterMap fun (cell, position) ↦
    if cell = 0 then none else some (position, cell)

end Rig

end TapeRunner
