import TapeRunner.Service.Request
import TapeRunner.Session.Control
import TapeRunner.Settings

/-!
# Answers

What the service answers to a request, and what the request does to the session before. A path with
slashes behind a known one is sent on to that one. A body that does not fit is refused before
anything else is looked at; after that, a call that needs a session is refused while there is
none. Every other call is answered with a view of the session after it.
-/

set_option autoImplicit false
set_option relaxedAutoImplicit false

namespace TapeRunner.Service

/-- An answer. -/
structure Response where
  status : Nat
  body : Value

namespace Response

/-- A refusal with its reason. -/
def refusal (status : Nat) (reason : String) : Response :=
  ⟨status, .record [("detail", .text reason)]⟩

/-- What is said where no session is active. -/
def noSession : Response := refusal 409 "no active session"

/-- One finding of a body that does not fit. -/
def findingValue (finding : Finding) : Value :=
  .record [("type", .text finding.defect.kind),
    ("loc", .list (finding.location.map .text)), ("msg", .text finding.defect.message)]

/-- The value that a finding is about: a field of the body, or the body itself. -/
def refusedValue (body : Value) (finding : Finding) : Value :=
  match body, finding.location with
  | .record fields, [_, name] => (Fields.get? fields name).getD body
  | _, _ => body

/-- The answer to a body that does not fit. It repeats the values refused, and there is none if one
of them holds a number that is not finite. -/
def invalid (body : Option Value) (findings : List Finding) : Except Error Response :=
  if findings.all fun finding ↦ (refusedValue (body.getD .null) finding).isFinite then
    .ok ⟨422, .record [("detail", .list (findings.map findingValue))]⟩
  else .error .notFinite

/-- Sends on to another path. -/
def elsewhere : Response := ⟨307, .null⟩

/-- The view of an engine. -/
def engineValue (view : EngineView) : Value :=
  .record [("program_text", .text view.program), ("program_counter", .ofNat view.counter),
    ("reached_end", .flag view.atEnd),
    ("pointer", .ofNat? (view.tape.map (·.head))),
    ("tape_start", .ofNat? (view.tape.map (·.start))),
    ("tape", .list (((view.tape.map (·.cells)).getD []).map fun cell ↦ .ofNat cell.toNat))]

/-- The view of the session. That a session was started is shown in place of the moment. -/
def sessionFields (runner : Runner) : Fields :=
  let view := runner.session.view
  [("session_id", .ofText? view.name?), ("active", .flag view.active),
    ("speed", .whole view.speed), ("regime", .text view.regime.name),
    ("started_at_utc", if view.number.isSome then .flag true else .null),
    ("status_message", .ofText? (view.status.map (·.message))), ("steps", .ofNat view.steps),
    ("engine", (runner.engineView.map engineValue).getD .null),
    ("output", .text runner.output.text),
    ("pending_input", .text ((runner.supply?.map (·.text)).getD ""))]

/-- The view of the session as an answer. -/
def session (runner : Runner) : Response := ⟨200, .record (sessionFields runner)⟩

/-- The view of the session with the fate of an instruction. -/
def injected (runner : Runner) (accepted : Bool) : Response :=
  ⟨200, .record (sessionFields runner ++ [("accepted", .flag accepted)])⟩

/-- The state of the service. -/
def health (settings : Settings) (runner : Runner) : Response :=
  ⟨200, .record [("status", .text "ok"), ("environment", .text settings.environment),
    ("session_active", .flag runner.session.active),
    ("regime", .text runner.session.view.regime.name),
    ("scheduler_armed", .flag runner.armed)]⟩

end Response

/-- Refuses an operation that lacks a session, in the words of its error. -/
def orConflict (action : Action Response) : Action Response :=
  tryCatch action fun
    | .raised (.noSession operation) =>
      return .refusal 409 (Error.message (.noSession operation))
    | halt => throw halt

/-- Refuses an operation while the session is inactive. -/
def whileActive (action : Action Unit) : Action Response := do
  if (← get).session.active then
    action
    return .session (← get)
  else
    return .noSession

/-- Carries out a call. -/
def perform (settings : Settings) (audience : Audience) : Call → Action Response
  | .health => do return .health settings (← get)
  | .view => do return .session (← get)
  | .start program directStart superSpeed => do
    let usual := settings.startOptions
    modify ({ · with output := .empty })
    Runner.start audience program
      ⟨directStart.getD usual.directStart, superSpeed.getD usual.superSpeed⟩
    return .session (← get)
  | .stop => do
    Runner.stop audience
    return .session (← get)
  | .step => orConflict do
    Runner.step audience
    return .session (← get)
  | .setSpeed speed => whileActive (Runner.setSpeed audience speed)
  | .faster => whileActive (Runner.faster audience)
  | .slower => whileActive (Runner.slower audience)
  | .inject instruction => orConflict do
    let accepted ← Runner.inject audience instruction
    return .injected (← get) accepted
  | .feed content => orConflict do
    Runner.feed content
    return .session (← get)

/-- A request leads to a route and uses its method. -/
def reaches? (request : Request) : Option Route :=
  (Route.ofPath? request.path).filter fun route ↦ route.method = request.method

/-- What a request is answered, body and all. -/
def respond (settings : Settings) (audience : Audience) (request : Request) :
    Action Response :=
  match Route.ofPath? request.path with
  | none =>
    return if (Route.behindSlashes? request.path).isSome then .elsewhere
      else .refusal 404 "Not Found"
  | some route =>
    if route.method ≠ request.method then return .refusal 405 "Method Not Allowed"
    else match Call.read request.body route with
      | .ok call => perform settings audience call
      | .error findings =>
        match Response.invalid request.body findings with
        | .ok response => return response
        | .error error => Activity.fail error

/-- Answers a request. Who asks for the head alone gets no body. -/
def answer (settings : Settings) (audience : Audience) (request : Request) :
    Action Response := do
  let response ← respond settings audience request
  return if request.method = "HEAD" then { response with body := .null } else response

end TapeRunner.Service
