import TapeRunner.Number.Decimal
import TapeRunner.Session.Engine
import TapeRunner.Speed

/-!
# Events

The state of a session, what observers see of it, and the events that tell them so. Every event
carries a view of the session and of its engine at the moment of the event, and the next number
of the session's sequence.
-/

set_option autoImplicit false
set_option relaxedAutoImplicit false

namespace TapeRunner

/-- How the last stretch of a session ended. -/
inductive Status
  | finished (elapsed : Float)
  | failed (fault : Fault)
deriving DecidableEq

/-- The text of a status. -/
def Status.message : Status → String
  | .finished elapsed => "Finished Execution. Took " ++ Number.threeDecimals elapsed ++ "s"
  | .failed fault => fault.message

/-- The state of the current session. Sessions are numbered in the order of their starts; before
the first start there is no number. `steps` counts the completed steps of the program and
`sequence` the events. -/
structure Session where
  number : Option Nat
  active : Bool
  speed : Int
  startedAt : Float
  status : Option Status
  steps : Nat
  sequence : Nat
deriving DecidableEq

namespace Session

/-- No session has been started. -/
def initial : Session := ⟨none, false, Speed.idle, 0, none, 0, 0⟩

/-- The name of a session. -/
def nameOf (number : Nat) : String := "s" ++ toString number

end Session

/-- What an observer sees of a session. -/
structure SessionView where
  number : Option Nat
  active : Bool
  speed : Int
  status : Option Status
  steps : Nat
deriving DecidableEq

namespace SessionView

/-- The name of the session, if one has been started. -/
def name? (view : SessionView) : Option String := view.number.map Session.nameOf

/-- The regime of the speed. -/
def regime (view : SessionView) : Speed.Regime := Speed.regimeOf view.speed

end SessionView

/-- The view of a session. -/
def Session.view (session : Session) : SessionView :=
  ⟨session.number, session.active, session.speed, session.status, session.steps⟩

/-- What happened. -/
inductive EventKind
  | started
  | stopped
  | speedChanged (previous : Int)
  | stepped
  | injected (instruction : String) (accepted : Bool)
  | finished (elapsed : Float)
  | failed (fault : Fault)
deriving DecidableEq

/-- The type under which observers subscribe to an event. -/
def EventKind.type : EventKind → String
  | .started => "session.started"
  | .stopped => "session.stopped"
  | .speedChanged _ => "session.speed_changed"
  | .stepped => "session.stepped"
  | .injected _ _ => "session.instruction_injected"
  | .finished _ => "session.finished"
  | .failed _ => "session.failed"

/-- An event as observers receive it. -/
structure Event where
  kind : EventKind
  sequence : Nat
  session : SessionView
  engine : Option EngineView
deriving DecidableEq

end TapeRunner
