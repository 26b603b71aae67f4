import TapeRunner.Machine.Fault
import TapeRunner.Number.Rounding

/-!
Why an operation comes to nothing. Every error is a cause; its wording is one function of it. An
operation that neither succeeds nor fails within the work it was allowed is unfinished, which is
no error of the program.
-/

set_option autoImplicit false
set_option relaxedAutoImplicit false

namespace TapeRunner

/-- Who takes the fields of a line and finds that it holds one of that name already: the entry for
lines that are written, the entry for lines below the threshold, or the one behind the entry. -/
inductive Entry
  | written
  | dropped
  | inner
deriving DecidableEq

/-- The name of an entry. -/
def Entry.name : Entry → String
  | .written => "_make_filtering_bound_logger.<locals>.make_method.<locals>.meth"
  | .dropped => "_nop"
  | .inner => "BoundLoggerBase._proxy_to_logger"

/-- The causes that an operation can raise. `crashed` is raised by an engine and `raised` by an
observer; `noSupply` is a read past the program where no input is attached, `noEntry` an index
that names nothing, and `ratio` a ratio without a double. Lines of a journal are refused for an
integer out of range, for a value nested too deeply, for a field whose name is taken, and for an
attachment that is not a text but of another kind; `levelPattern` and `levelTable` are words that
name something that is no level. `notFinite` is an answer that would have to show a number that
is not finite. -/
inductive Error
  | fault (fault : Fault)
  | noSession (operation : String)
  | memorySize
  | interval
  | eventType
  | integerRange
  | tooDeep
  | nameTaken (entry : Entry) (name : String)
  | notText (kind : String)
  | levelPattern
  | levelTable
  | crashed (reason : String)
  | raised (message : String)
  | noSupply
  | noEntry
  | ratio (fault : Number.RatioFault)
  | notFinite
  | broken (table : Table)
deriving DecidableEq

/-- The text of an error. -/
def Error.message : Error → String
  | .fault cause => cause.message
  | .noSession operation => operation ++ " requires an active session"
  | .memorySize => "memory_size must be > 0"
  | .interval => "interval_s must be > 0"
  | .eventType => "event_type must be non-empty"
  | .integerRange => "Integer exceeds 64-bit range"
  | .tooDeep => "Recursion limit reached"
  | .nameTaken entry name => entry.name ++ "() got multiple values for argument '" ++ name ++ "'"
  | .notText kind => "can only concatenate str (not \"" ++ kind ++ "\") to str"
  | .levelPattern => "'%(levelname)s:%(name)s:%(message)s'"
  | .levelTable => "unhashable type: 'dict'"
  | .crashed reason => reason
  | .raised message => message
  | .noSupply => "'NoneType' object is not callable"
  | .noEntry => "list index out of range"
  | .ratio cause => cause.message
  | .notFinite => "Out of range float values are not JSON compliant"
  | .broken .brackets => "bracket without a mark"
  | .broken .cells => "head outside the tape"
  | .broken .runs => "no such run"

/-- How a computation ends without a result. -/
inductive Halt
  | raised (error : Error)
  | unfinished
deriving DecidableEq

end TapeRunner
