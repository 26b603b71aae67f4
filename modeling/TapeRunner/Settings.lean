import TapeRunner.Options
import TapeRunner.Settings.Environment
import TapeRunner.Settings.Lookup

/-!
# Settings

The settings of the application. A field is looked for among the given values first, then in the
environment, then in a file of variables, and has a default if it is nowhere. Only the value that
is found first is read.
-/

set_option autoImplicit false
set_option relaxedAutoImplicit false

namespace TapeRunner

/-- The settings. -/
structure Settings where
  environment : String
  logLevel : String
  logJson : Bool
  directStart : Bool
  superSpeed : Bool
  memorySize : Int
deriving DecidableEq

namespace Settings

/-- What holds where nothing is set. -/
def default : Settings := ⟨"local", "INFO", true, false, false, 30000⟩

/-- The environments that there are. -/
def environments : List String := ["local", "staging", "prod"]

/-- Reads the name of an environment. -/
def readEnvironment : Reader String
  | .text content => if content ∈ environments then .ok content else .error .notEnvironment
  | _ => .error .notEnvironment

/-- Reads the size of a tape. -/
def readMemorySize : Reader Int :=
  Reader.whole.checked fun size ↦ if 0 < size then none else some (.notAbove 0)

/-- Reads the settings from given fields, the environment and the text of a file of variables.
Fields whose names begin with an underscore say how variables are looked up. -/
def read (fields : Fields) (environment : List (String × String)) (file : String) :
    Checked Settings := do
  let lookup := Lookup.ofFields fields
  let surrounding := environment.map fun (name, content) ↦ (name, some content)
  let bindings := if lookup.readsFile then Variables.read environment file else []
  let find (name : String) : Option Value :=
    (fields.get? name).or ((lookup.find? surrounding name).or (lookup.find? bindings name))
  let take {Result : Type} (reader : Reader Result) (name : String) (absent : Result) :
      Checked Result :=
    reader.field [name] (.ok absent) (find name)
  let (environment, logLevel, logJson, directStart, superSpeed, memorySize) ←
    (take readEnvironment "env" default.environment).both <|
    (take Reader.text "log_level" default.logLevel).both <|
    (take Reader.flag "log_json" default.logJson).both <|
    (take Reader.flag "direct_start" default.directStart).both <|
    (take Reader.flag "start_super_speed" default.superSpeed).both <|
    take readMemorySize "memory_size" default.memorySize
  return ⟨environment, logLevel, logJson, directStart, superSpeed, memorySize⟩

/-- The options with which sessions start where a request does not say. -/
def startOptions (settings : Settings) : StartOptions :=
  ⟨settings.directStart, settings.superSpeed⟩

end Settings

end TapeRunner
