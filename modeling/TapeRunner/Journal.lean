import TapeRunner.Error
import TapeRunner.Text.Capital
import TapeRunner.Value

/-!
# The journal

Lines with a level, an event and fields, written if the level reaches the threshold. Fields bound
beforehand join every line, and a line's own fields win over them. A line is kept as an object or as
console text. An object cannot hold an integer that needs more than 64 bits nor a value nested too
deeply, and a console line no attachment other than a text; such a line is refused as a whole.
-/

set_option autoImplicit false
set_option relaxedAutoImplicit false

namespace TapeRunner

/-- The levels of a line. -/
inductive Level
  | debug
  | info
  | warning
  | error
  | critical
deriving DecidableEq

namespace Level

/-- The word for a level. -/
def name : Level → String
  | .debug => "debug"
  | .info => "info"
  | .warning => "warning"
  | .error => "error"
  | .critical => "critical"

/-- The height of a level. -/
def rank : Level → Nat
  | .debug => 10
  | .info => 20
  | .warning => 30
  | .error => 40
  | .critical => 50

/-- The threshold that a word stands for, in any case of its letters; a word without a meaning
stands for `info`. Two words mean something else, which cannot be a threshold. -/
def thresholdOf (word : String) : Except Error Nat :=
  match Text.capitals word with
  | "NOTSET" => .ok 0
  | "DEBUG" => .ok 10
  | "WARN" | "WARNING" => .ok 30
  | "ERROR" => .ok 40
  | "CRITICAL" | "FATAL" => .ok 50
  | "BASIC_FORMAT" => .error .levelPattern
  | "_STYLES" => .error .levelTable
  | _ => .ok 20

end Level

/-! ### What an object can hold -/

/-- The least integer that an object can hold, minus two to the power of 63. -/
def leastInteger : Int := -9223372036854775808

/-- The greatest integer that an object can hold, one below two to the power of 64. -/
def greatestInteger : Int := 18446744073709551615

/-- How many lists and records can be inside one another, the line itself included. -/
def deepestNesting : Nat := 254

mutual

/-- The first thing in a value that an object cannot hold, if the value itself is inside `depth`
lists and records. An empty list counts for nothing. -/
def Value.flaw? (depth : Nat) : Value → Option Error
  | .whole number =>
    if leastInteger ≤ number ∧ number ≤ greatestInteger then none else some .integerRange
  | .list [] => none
  | .list (item :: items) =>
    if deepestNesting ≤ depth then some .tooDeep
    else (item.flaw? (depth + 1)).or (Value.flawAmong? (depth + 1) items)
  | .record fields =>
    if deepestNesting ≤ depth then some .tooDeep
    else Value.flawInFields? (depth + 1) fields
  | _ => none

/-- The first flaw of a list of items. -/
def Value.flawAmong? (depth : Nat) : List Value → Option Error
  | [] => none
  | item :: items => (item.flaw? depth).or (Value.flawAmong? depth items)

/-- The first flaw of a list of fields. -/
def Value.flawInFields? (depth : Nat) : List (String × Value) → Option Error
  | [] => none
  | (_, item) :: fields => (item.flaw? depth).or (Value.flawInFields? depth fields)

end

/-! ### Lines -/

/-- How lines are written. -/
inductive Form
  | object
  | console
deriving DecidableEq

/-- A line. The fields are its own and the bound ones. -/
structure Line where
  level : Level
  event : String
  fields : Fields

namespace Line

/-- Fields that ask for something beside the line: the error being handled, of which there is none,
and the place of the call, which a journal does not know. They are never shown. -/
def requests : List String := ["exc_info", "stack_info"]

/-- Fields that a console line shows below itself. -/
def attachmentNames : List String := ["stack", "exception"]

/-- The line with its own fields and the bound ones, of which its own win. -/
def of (level : Level) (event : String) (own bound : Fields) : Line :=
  ⟨level, event, (own.fill bound).without requests⟩

/-- The members of a line written as an object. The level and the time stamp stand over fields
of those names, and null stands for numbers that are not finite. -/
def members (line : Line) (stamp : Value) : Fields :=
  Value.plainFields (((line.fields.put "event" (.text line.event)).put "level"
    (.text line.level.name)).put "timestamp" stamp)

/-- Why a line cannot be written in a form. -/
def refusal? (line : Line) : Form → Option Error
  | .object => Value.flaw? 0 (.record (line.members .null))
  | .console => attachmentNames.findSome? fun name ↦
    match line.fields.get? name with
    | none | some .null | some (.text _) => none
    | some value => some (.notText value.kind)

end Line

/-! ### The journal itself -/

/-- The lines written so far, with what governs the next one. -/
structure Journal where
  threshold : Nat
  form : Form
  context : Fields
  lines : Array Line

namespace Journal

/-- Nothing written, nothing bound; lines from `info` on, as objects. -/
def initial : Journal := ⟨Level.info.rank, .object, [], #[]⟩

/-- Sets the least level, by its word, and the form of the lines to come. -/
def configure (journal : Journal) (level : String) (form : Form) : Except Error Journal :=
  (Level.thresholdOf level).map fun threshold ↦ { journal with threshold, form }

/-- Adds fields to those that join every line. -/
def bind (journal : Journal) (values : Fields) : Journal :=
  { journal with context := journal.context.join values }

/-- Forgets the bound fields. -/
def clear (journal : Journal) : Journal := { journal with context := [] }

/-- Writes a line if its level reaches the threshold. -/
def write (journal : Journal) (level : Level) (event : String) (fields : Fields) :
    Except Error Journal :=
  if level.rank < journal.threshold then .ok journal
  else
    let line := Line.of level event fields journal.context
    match line.refusal? journal.form with
    | some error => .error error
    | none => .ok { journal with lines := journal.lines.push line }

/-- The first field whose name is taken: by the line, whether it is written or not, or by what takes
the line on. -/
def nameTaken? (written : Bool) (fields : Fields) : Option Error :=
  match fields.find? fun field ↦ field.1 ∈ ["self", "event"] with
  | some (name, _) => some (.nameTaken (if written then .written else .dropped) name)
  | none =>
    if written && fields.any (·.1 = "method_name") then some (.nameTaken .inner "method_name")
    else none

/-- Writes a line with fields of any names, some of which are taken. -/
def enter (journal : Journal) (level : Level) (event : String) (fields : Fields) :
    Except Error Journal :=
  match nameTaken? (journal.threshold ≤ level.rank) fields with
  | some error => .error error
  | none => journal.write level event fields

/-- A line below the threshold leaves no trace. -/
theorem write_of_lt (journal : Journal) (level : Level) (event : String) (fields : Fields)
    (below : level.rank < journal.threshold) :
    journal.write level event fields = .ok journal := by
  simp [write, below]

/-- Writing changes the lines alone. -/
theorem context_of_write (journal next : Journal) (level : Level) (event : String)
    (fields : Fields) (written : journal.write level event fields = .ok next) :
    next.context = journal.context := by
  simp only [write] at written
  split at written
  · cases written
    rfl
  · split at written
    · contradiction
    · cases written
      rfl

end Journal

end TapeRunner
