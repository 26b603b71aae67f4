import TapeRunner.Text.Quoted

/-!
Why a machine refuses an instruction. A fault is an ordinary outcome that a session reports as its
status; a breakage says that a look-up left its table, which no machine loaded from a program does.
-/

set_option autoImplicit false
set_option relaxedAutoImplicit false

namespace TapeRunner

/-- The reasons for which an instruction is refused. -/
inductive Fault
  | finished
  | unmatched (bracket : Char) (position : Nat)
  | overflow
  | underflow
  | exhausted (reason : String)
  | loopOutside (instruction : String)
  | unknown (instruction : String)
  | refused (reason : String)
deriving DecidableEq

/-- What a read finds when no input is left. -/
def Fault.noInput : Fault := .exhausted "No input found"

/-- The text that a session shows for a fault. -/
def Fault.message : Fault → String
  | .finished => "program already finished"
  | .unmatched bracket position =>
    "unmatched '" ++ String.singleton bracket ++ "' at position " ++ toString position
  | .overflow => "tape overflow"
  | .underflow => "tape underflow"
  | .exhausted reason => reason
  | .loopOutside instruction => "'" ++ instruction ++ "' cannot be executed outside the program"
  | .unknown instruction => "unknown instruction " ++ Text.quote instruction
  | .refused reason => reason

/-- The word for the kind of a fault in a log line. -/
def Fault.kind : Fault → String
  | .exhausted _ => "InputExhausted"
  | _ => "ExecutionFault"

/-- The tables that things are looked up in: the bracket marks of a program, the cells of a tape,
and the runs of a session. -/
inductive Table
  | brackets
  | cells
  | runs
deriving DecidableEq

/-- How an instruction can end other than by taking effect. -/
inductive Stop
  | fault (fault : Fault)
  | broken (table : Table)
deriving DecidableEq

end TapeRunner
