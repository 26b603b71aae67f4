import TapeRunner.Machine.Brackets
import TapeRunner.Machine.Fault

/-!
The tape machine: a program text with its bracket marks, a tape of byte cells that does not wrap, a
head on the tape and a counter in the text. `perform` carries out one command and `advance` the
symbol under the counter. Neither changes anything when it is refused.

A byte written by `advance` is handed over before the counter moves, because whoever receives it
may use the machine again; so `advance` answers the effect and, apart from it, where the counter
goes once the effect is over.
-/

set_option autoImplicit false
set_option relaxedAutoImplicit false

namespace TapeRunner

/-- The symbols that act on the tape. -/
inductive Command
  | right
  | left
  | increment
  | decrement
  | write
  | read
deriving DecidableEq

/-- The command that a character spells. -/
def Command.ofChar? : Char → Option Command
  | '>' => some .right
  | '<' => some .left
  | '+' => some .increment
  | '-' => some .decrement
  | '.' => some .write
  | ',' => some .read
  | _ => none

/-- What a character of a program stands for. Every character is a symbol; those without a
meaning are comments, and a comment takes a step like any other symbol. -/
inductive Symbol
  | command (command : Command)
  | loopStart
  | loopEnd
  | comment
deriving DecidableEq

/-- The symbol that a character spells. -/
def Symbol.ofChar (character : Char) : Symbol :=
  if character = '[' then .loopStart
  else if character = ']' then .loopEnd
  else match Command.ofChar? character with
    | some found => .command found
    | none => .comment

/-- A number as a byte, by its remainder modulo 256. -/
def byteOf (number : Int) : UInt8 :=
  UInt8.ofNat (number % 256).toNat

/-- A machine in the middle of a program. -/
structure Machine where
  code : Array Char
  marks : Array Mark
  cells : Array UInt8
  head : Nat
  counter : Nat
deriving DecidableEq

/-- What an instruction did: the machine after it, whether it took the offered input, and the byte
that it wrote. -/
structure Effect where
  machine : Machine
  consumed : Bool
  written : Option UInt8
deriving DecidableEq

namespace Machine

/-- A machine at the start of a program, on a tape of zeros. -/
def load (code : String) (size : Nat) : Machine where
  code := code.toList.toArray
  marks := bracketMarks code.toList
  cells := Array.replicate size 0
  head := 0
  counter := 0

/-- The counter has passed the last character. -/
def atEnd (machine : Machine) : Bool :=
  machine.code.size ≤ machine.counter

/-- An effect on the machine alone. -/
def quietly (machine : Machine) : Effect := ⟨machine, false, none⟩

/-- Replaces the cell under the head by a value computed from it. -/
def update (machine : Machine) (change : UInt8 → UInt8) : Except Stop Machine :=
  if inside : machine.head < machine.cells.size then
    let cell := change machine.cells[machine.head]
    .ok { machine with cells := machine.cells.set machine.head cell }
  else .error (.broken .cells)

/-- Carries out one command. `offered` is the next number of the input, if there is one. -/
def perform (machine : Machine) (offered : Option Int) : Command → Except Stop Effect
  | .right =>
    if machine.cells.size ≤ machine.head + 1 then .error (.fault .overflow)
    else .ok (quietly { machine with head := machine.head + 1 })
  | .left =>
    if machine.head = 0 then .error (.fault .underflow)
    else .ok (quietly { machine with head := machine.head - 1 })
  | .increment => (machine.update (· + 1)).map quietly
  | .decrement => (machine.update (· - 1)).map quietly
  | .write =>
    match machine.cells[machine.head]? with
    | some cell => .ok ⟨machine, false, some cell⟩
    | none => .error (.broken .cells)
  | .read =>
    match offered with
    | some number => (machine.update fun _ ↦ byteOf number).map (⟨·, true, none⟩)
    | none => .error (.fault .noInput)

/-- Where a loop bracket sends the counter: past its partner if the cell under the head passes the
test, else to the next character. -/
def branch (machine : Machine) (bracket : Char) (leaves : UInt8 → Bool) : Except Stop Nat :=
  match machine.marks[machine.counter]? with
  | some .unmatched => .error (.fault (.unmatched bracket machine.counter))
  | found =>
    match machine.cells[machine.head]? with
    | none => .error (.broken .cells)
    | some cell =>
      if leaves cell then
        match found with
        | some (.partner target) => .ok (target + 1)
        | _ => .error (.broken .brackets)
      else .ok (machine.counter + 1)

/-- Carries out the symbol under the counter, and answers where the counter goes after it. -/
def advance (machine : Machine) (offered : Option Int) : Except Stop (Effect × Nat) :=
  if inside : machine.counter < machine.code.size then
    let character := machine.code[machine.counter]
    match Symbol.ofChar character with
    | .command command => (machine.perform offered command).map (·, machine.counter + 1)
    | .loopStart => (machine.branch character (· == 0)).map (quietly machine, ·)
    | .loopEnd => (machine.branch character (· != 0)).map (quietly machine, ·)
    | .comment => .ok (quietly machine, machine.counter + 1)
  else .error (.fault .finished)

/-- Carries out one instruction that is not part of the program. The counter stays. -/
def execute (machine : Machine) (offered : Option Int) (instruction : String) :
    Except Stop Effect :=
  if instruction ∈ ["", "[", "]", "[]"] then .error (.fault (.loopOutside instruction))
  else match instruction.toList with
    | [character] =>
      match Command.ofChar? character with
      | some command => machine.perform offered command
      | none => .error (.fault (.unknown instruction))
    | _ => .error (.fault (.unknown instruction))

/-- The stretch of the tape from `start` on, of at most `count` cells. A bound below zero counts
from the end of the tape, and a bound outside the tape is moved to its nearer end. -/
def window (machine : Machine) (start count : Int) : List UInt8 :=
  let size : Int := machine.cells.size
  let clamp (bound : Int) : Nat :=
    (min size (max 0 (if bound < 0 then bound + size else bound))).toNat
  (machine.cells.extract (clamp start) (clamp (start + count))).toList

end Machine

end TapeRunner
