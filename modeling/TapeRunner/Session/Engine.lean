import TapeRunner.Error
import TapeRunner.Machine.Supply

/-!
# Engines

What a session drives: a tape machine, or a scripted engine that merely counts and fails where its
script says so. A run is one start of a program, with its engine and its own supply of input.
-/

set_option autoImplicit false
set_option relaxedAutoImplicit false

namespace TapeRunner

/-- The kinds of engine that a start can build. -/
inductive EngineKind
  | tape
  | scripted
deriving DecidableEq

/-- Where a scripted engine fails, by counter, and which instructions it rejects. -/
structure Script where
  faults : List (Int × String)
  crashes : List (Int × String)
  rejects : List String
deriving DecidableEq

namespace Script

/-- Nothing fails. -/
def empty : Script := ⟨[], [], []⟩

/-- The error of a step at a counter, if the script has one; faults come before crashes. -/
def errorAt (script : Script) (counter : Nat) : Option Error :=
  match script.faults.lookup (counter : Int) with
  | some reason => some (.fault (.refused reason))
  | none => (script.crashes.lookup (counter : Int)).map .crashed

/-- The error of a single instruction, if the script has one. -/
def errorOf (script : Script) (instruction : String) : Option Error :=
  if instruction ∈ script.rejects then some (.fault (.refused ("rejected " ++ instruction)))
  else if instruction = "crash" then some (.crashed "execute crashed")
  else none

end Script

/-- An engine in the middle of a program. -/
inductive Engine
  | tape (machine : Machine)
  | scripted (counter : Nat)
deriving DecidableEq

/-- One start of a program. -/
structure Run where
  program : String
  engine : Engine
  supply : Supply
deriving DecidableEq

/-- What an observer sees of a tape: the head, and the cells around it from `start` on. -/
structure TapeView where
  head : Nat
  start : Nat
  cells : List UInt8
deriving DecidableEq

/-- What an observer sees of a run. A scripted engine has no tape to show. -/
structure EngineView where
  program : String
  counter : Nat
  atEnd : Bool
  tape : Option TapeView
deriving DecidableEq

/-- The cells shown on either side of the head. -/
def viewRadius : Nat := 8

/-- The view of a tape machine. It begins `viewRadius` cells before the head, or with the first cell
of the tape where there are fewer, and then reaches further to the right. -/
def Machine.view (machine : Machine) : TapeView :=
  let start := machine.head - viewRadius
  ⟨machine.head, start, machine.window start (2 * viewRadius + 1)⟩

namespace Run

/-- Where the counter stands. -/
def counter (run : Run) : Nat :=
  match run.engine with
  | .tape machine => machine.counter
  | .scripted counter => counter

/-- The counter has passed the last character of the program. -/
def atEnd (run : Run) : Bool :=
  match run.engine with
  | .tape machine => machine.atEnd
  | .scripted counter => run.program.length ≤ counter

/-- The view of a run. -/
def view (run : Run) : EngineView where
  program := run.program
  counter := run.counter
  atEnd := run.atEnd
  tape := match run.engine with
    | .tape machine => some machine.view
    | .scripted _ => none

/-- Moves the counter. -/
def resumeAt (run : Run) (counter : Nat) : Run :=
  { run with engine := match run.engine with
      | .tape machine => .tape { machine with counter }
      | .scripted _ => .scripted counter }

/-- Connects the effect of a tape machine to the run. -/
def settle (run : Run) (effect : Effect) : Run :=
  { run with
    engine := .tape effect.machine
    supply := if effect.consumed then run.supply.rest else run.supply }

end Run

end TapeRunner
