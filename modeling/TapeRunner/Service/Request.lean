import TapeRunner.Service.Address
import TapeRunner.Text.Capital
import TapeRunner.Validation

/-!
# Requests

Which requests the service knows, and what they ask for. A request is a method, a path and perhaps
a body; a call is what is left of it once its route is found and its body is read.
-/

set_option autoImplicit false
set_option relaxedAutoImplicit false

namespace TapeRunner.Service

/-- A request as it arrives. -/
structure Request where
  method : String
  path : String
  body : Option Value

/-- The request that is sent to an address; its method is written in capitals. -/
def Request.to (address method : String) (body : Option Value) : Except AddressFault Request :=
  (Address.path address).map fun path ↦ ⟨Text.capitals method, path, body⟩

/-- The routes of the service. -/
inductive Route
  | health
  | session
  | start
  | stop
  | step
  | speed
  | faster
  | slower
  | inject
  | input
deriving DecidableEq

namespace Route

/-- The path of a route. -/
def path : Route → String
  | .health => "/api/health"
  | .session => "/api/session"
  | .start => "/api/session/start"
  | .stop => "/api/session/stop"
  | .step => "/api/session/step"
  | .speed => "/api/session/speed"
  | .faster => "/api/session/speed/faster"
  | .slower => "/api/session/speed/slower"
  | .inject => "/api/session/inject"
  | .input => "/api/session/input"

/-- The method of a route. -/
def method : Route → String
  | .health | .session => "GET"
  | .speed => "PUT"
  | _ => "POST"

/-- All routes. -/
def all : List Route :=
  [.health, .session, .start, .stop, .step, .speed, .faster, .slower, .inject, .input]

/-- The route of a path. One line end behind the path is passed over. -/
def ofPath? (path : String) : Option Route :=
  all.find? fun route ↦ path = route.path || path = route.path ++ "\n"

/-- A path without the slashes at its end. -/
def withoutSlashesBehind (path : String) : String :=
  String.ofList (path.toList.reverse.dropWhile (· = '/')).reverse

/-- The route that a path leads to only without the slashes at its end. -/
def behindSlashes? (path : String) : Option Route :=
  if path.toList.getLast? = some '/' then ofPath? (withoutSlashesBehind path) else none

end Route

/-- What a request asks for. An option left open in a start is taken from the settings. -/
inductive Call
  | health
  | view
  | start (program : String) (directStart superSpeed : Option Bool)
  | stop
  | step
  | setSpeed (speed : Int)
  | faster
  | slower
  | inject (instruction : String)
  | feed (content : String)
deriving DecidableEq

namespace Call

/-- The instructions that can be asked for one by one. -/
def manualInstructions : List String := ["<", ">", "-", "+", "."]

/-- Reads a speed. -/
def readSpeed : Reader Int :=
  Reader.whole.checked fun speed ↦
    if speed < -1 then some (.notAtLeast (-1))
    else if 100 < speed then some (.notAtMost 100)
    else none

/-- Reads a single instruction. -/
def readInstruction : Reader String :=
  Reader.text.checked fun content ↦
    if content.length < 1 then some .tooShort
    else if 1 < content.length then some .tooLong
    else if content ∈ manualInstructions then none
    else some .notManual

/-- Reads a text to be fed. -/
def readInput : Reader String :=
  Reader.text.checked fun content ↦ if content.length < 1 then some .tooShort else none

/-- The fields of a body; a body has to be there and to be a record. -/
def fieldsOf : Option Value → Checked Fields
  | some (.record fields) => .ok fields
  | some _ => .error [⟨["body"], .notRecord⟩]
  | none => .error [⟨["body"], .missing⟩]

/-- Reads a field that has to be there. -/
def required {Result : Type} (fields : Fields) (reader : Reader Result)
    (name : String) : Checked Result :=
  reader.field ["body", name] (.error .missing) (fields.get? name)

/-- Reads a flag that may be left open. -/
def openFlag (fields : Fields) (name : String) : Checked (Option Bool) :=
  Reader.flag.optional.field ["body", name] (.ok none) (fields.get? name)

/-- Reads what a request for a route asks for. Routes that take no body pass over one. -/
def read (body : Option Value) : Route → Checked Call
  | .health => .ok .health
  | .session => .ok .view
  | .stop => .ok .stop
  | .step => .ok .step
  | .faster => .ok .faster
  | .slower => .ok .slower
  | .start => do
    let fields ← fieldsOf body
    let (program, directStart, superSpeed) ← (required fields Reader.text "program").both
      ((openFlag fields "direct_start").both (openFlag fields "start_super_speed"))
    return .start program directStart superSpeed
  | .speed => do return .setSpeed (← required (← fieldsOf body) readSpeed "speed")
  | .inject => do return .inject (← required (← fieldsOf body) readInstruction "instruction")
  | .input => do return .feed (← required (← fieldsOf body) readInput "text")

end Call

end TapeRunner.Service
