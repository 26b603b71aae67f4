import TapeRunner.Activity
import TapeRunner.Bus
import TapeRunner.Journal
import TapeRunner.Options
import TapeRunner.Session.Event
import TapeRunner.Timer

/-!
# The runner

Everything that the operations on a session can change, and the parts that those operations are
made of: publishing an event, handing a byte to the output, advancing an engine. What an observer
does when it is called is not fixed here. It is a parameter, the audience, which may act on the
runner again; so whatever is shown for every audience holds for observers that interfere.

A run is known by its position in the list of runs. The session is attached to at most one of
them, but an operation that began with a run keeps to it, also when an observer meanwhile detaches
it or starts another one.
-/

set_option autoImplicit false
set_option relaxedAutoImplicit false

namespace TapeRunner

/-- What the next start finds: the engine to build, the size of its tape, the text in its supply,
the reading of the clock, and the script of scripted engines. -/
structure Bench where
  kind : EngineKind
  memorySize : Int
  initialInput : String
  clock : Float
  script : Script
deriving DecidableEq

/-- Who is subscribed to the bus: the registrar of session names, the recorder, and the hooks by
their position. -/
inductive Observer
  | registrar
  | recorder
  | hook (position : Nat)
deriving DecidableEq

/-- The state that the operations work on. The task of a timer is the generation in which it was
armed. `recorded` holds the events that the recorder heard, and `hookCalls` counts the calls of
every hook. -/
structure Runner where
  session : Session
  runs : Array Run
  attached : Option Nat
  supplied : Option Nat
  timers : Array (Timer Nat)
  current : Option Nat
  generation : Nat
  output : Output
  bench : Bench
  journal : Journal
  bus : Bus Observer
  sinks : List Nat
  recorded : Array Event
  hookCalls : Array Nat

/-- A computation on the runner. -/
abbrev Action := Activity Runner

/-- Those who are told: `react` is what the hook at a position does when it is called, and
`patience` bounds the steps of one blocking run. -/
structure Audience where
  react : Nat → Action Unit
  patience : Nat

namespace Runner

/-! ### Views -/

/-- The run that the session is attached to. -/
def run? (runner : Runner) : Option Run := runner.attached.bind (runner.runs[·]?)

/-- The supply that input is fed to. -/
def supply? (runner : Runner) : Option Supply :=
  (runner.supplied.bind (runner.runs[·]?)).map (·.supply)

/-- The view of the attached run. -/
def engineView (runner : Runner) : Option EngineView := runner.run?.map Run.view

/-- A timer steps the session: there is a current one and it is not cancelled. -/
def armed (runner : Runner) : Bool :=
  match runner.current with
  | some index => Timer.isLive runner.timers index
  | none => false

/-- The field that names the session in a line of the journal. -/
def nameField (runner : Runner) : String × Value :=
  ("session_id", .ofText? runner.session.view.name?)

/-! ### Journal and bus -/

/-- Changes the session. -/
def modifySession (change : Session → Session) : Action Unit :=
  modify fun runner ↦ { runner with session := change runner.session }

/-- Writes a line of the journal. -/
def log (level : Level) (event : String) (fields : Fields) : Action Unit := do
  match (← get).journal.write level event fields with
  | .ok journal => modify ({ · with journal })
  | .error error => Activity.fail error

/-- What one observer does with an event. A session is named by its number, so the registrar has
nothing left to do. -/
def hear (audience : Audience) (event : Event) : Observer → Action Unit
  | .registrar => pure ()
  | .recorder => modify fun runner ↦ { runner with recorded := runner.recorded.push event }
  | .hook position => audience.react position

/-- Tells an event to those who were subscribed when it was published. -/
def publish (audience : Audience) (event : Event) : Action Unit := do
  let recipients := (← get).bus.recipients event.kind.type
  log .debug "bus.publish"
    [("event_type", .text event.kind.type), ("handlers", .ofNat recipients.length)]
  recipients.forM (hear audience event)

/-- Publishes an event of the current session under the next number of its sequence. -/
def tell (audience : Audience) (kind : EventKind) : Action Unit := do
  modifySession fun session ↦ { session with sequence := session.sequence + 1 }
  let runner ← get
  publish audience ⟨kind, runner.session.sequence, runner.session.view, runner.engineView⟩

/-- Writes a byte to the output and calls the hooks that watch it. -/
def emit (audience : Audience) (byte : UInt8) : Action Unit := do
  modify fun runner ↦ { runner with output := runner.output.put byte.toNat }
  (← get).sinks.forM audience.react

/-! ### Engines -/

/-- The run at a position. -/
def runAt (position : Nat) : Action Run := do
  match (← get).runs[position]? with
  | some run => return run
  | none => Activity.fail (.broken .runs)

/-- Changes the run at a position. -/
def modifyRun (position : Nat) (change : Run → Run) : Action Unit :=
  modify fun runner ↦ { runner with runs := runner.runs.modify position change }

/-- Raises what stopped a machine. -/
def raiseStop : Stop → Action Unit
  | .fault fault => Activity.fail (.fault fault)
  | .broken table => Activity.fail (.broken table)

/-- Stores an effect of a machine and hands over the byte that it wrote. -/
def settle (audience : Audience) (position : Nat) (effect : Effect) : Action Unit := do
  modifyRun position (·.settle effect)
  match effect.written with
  | some byte => emit audience byte
  | none => pure ()

/-- One step of a run. The counter moves after the byte was handed over, to where the step found
that it goes. -/
def advance (audience : Audience) (position : Nat) : Action Unit := do
  let run ← runAt position
  match run.engine with
  | .tape machine =>
    match machine.advance run.supply.offer with
    | .error stop => raiseStop stop
    | .ok (effect, counter) =>
      settle audience position effect
      modifyRun position (·.resumeAt counter)
  | .scripted counter =>
    match (← get).bench.script.errorAt counter with
    | some error => Activity.fail error
    | none => modifyRun position (·.resumeAt (counter + 1))

/-- One instruction beside the program of a run. -/
def execute (audience : Audience) (position : Nat) (instruction : String) : Action Unit := do
  let run ← runAt position
  match run.engine with
  | .tape machine =>
    match machine.execute run.supply.offer instruction with
    | .error stop => raiseStop stop
    | .ok effect => settle audience position effect
  | .scripted _ =>
    match (← get).bench.script.errorOf instruction with
    | some error => Activity.fail error
    | none => pure ()

end Runner

/-- The run of a program on a fresh engine. A tape needs at least one cell. -/
def Bench.build (bench : Bench) (program : String) : Except Error Run :=
  let supply := Supply.ofText bench.initialInput
  match bench.kind with
  | .scripted => .ok ⟨program, .scripted 0, supply⟩
  | .tape =>
    if bench.memorySize ≤ 0 then .error .memorySize
    else .ok ⟨program, .tape (.load program bench.memorySize.toNat), supply⟩

end TapeRunner
