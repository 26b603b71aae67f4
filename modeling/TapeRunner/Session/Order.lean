import TapeRunner.Session.Control

/-!
# Orders and hooks

The operations as data, so that a list of them can be given to a session beforehand, and hooks: an
observer that carries out a list of orders at chosen calls of its own. An order given by a hook
works on the session like any other, in the middle of the operation that called the hook, and may
call hooks again; `Audience.ofHooks` bounds how deep that goes.
-/

set_option autoImplicit false
set_option relaxedAutoImplicit false

namespace TapeRunner

/-- What can be asked of a session and of its surroundings. The orders from `setClock` to
`clearOutput` change the surroundings, or the state from outside, and are told to nobody. -/
inductive Order
  | start (program : String) (options : StartOptions)
  | stop
  | step
  | runBlocking
  | faster
  | slower
  | pause
  | superSpeed
  | shutdown
  | setSpeed (speed : Int)
  | inject (instruction : String)
  | feed (content : String)
  | readInput
  | fire (rounds : Nat)
  | callTimer (index : Int)
  | cancelTimer (index : Int)
  | rearm
  | setClock (numerator denominator : Int)
  | pokeSpeed (speed : Int)
  | pokeActive (active : Bool)
  | setMemory (size : Int)
  | setScript (faults crashes : Option (List (Int × String))) (rejects : Option (List String))
  | clearOutput
  | raise (message : String)
  | look
  | drain (speed : Int)
deriving DecidableEq

/-- What an order answers. -/
inductive Reply
  | nothing
  | accepted (accepted : Bool)
  | byte (byte : UInt8)
  | calls (count : Nat)
  | glance (active : Bool) (speed : Int) (status : Option Status) (engine : Bool)
deriving DecidableEq

/-- What calls a hook: an event of a type, or a byte on its way to the output. -/
inductive Trigger
  | event (type : String)
  | output
deriving DecidableEq

/-- An observer that carries out its orders at the calls listed, counted from one. -/
structure Hook where
  trigger : Trigger
  calls : List Nat
  orders : List Order
deriving DecidableEq

namespace Runner

/-! ### The surroundings -/

/-- Changes what the next start finds. -/
def modifyBench (change : Bench → Bench) : Action Unit :=
  modify fun runner ↦ { runner with bench := change runner.bench }

/-- The position of the timer that an index names. -/
def timerAt (index : Int) : Action Nat := do
  match positionOf (← get).timers.size index with
  | some position => return position
  | none => Activity.fail .noEntry

/-- Sets the clock to a ratio. -/
def setClock (numerator denominator : Int) : Action Unit := do
  match Number.ratio numerator denominator with
  | .ok clock => modifyBench ({ · with clock })
  | .error fault => Activity.fail (.ratio fault)

/-- Replaces the fields that are bound in the journal. -/
def modifyContext (change : Fields → Fields) : Action Unit :=
  modify fun runner ↦
    { runner with journal := { runner.journal with context := change runner.journal.context } }

/-- Lets the timer at a position call on its own thread. Nothing is bound there, and what is bound
there stays there; a timer never calls again after its call has started a session, so that no call
finds fields of an earlier one. An error cancels the timer, leaves a line and goes no further. -/
def callAside (audience : Audience) (index : Nat) : Action Unit := do
  let context := (← get).journal.context
  modifyContext fun _ ↦ []
  if !(← Activity.survives (callTimer audience index)) then
    modify fun runner ↦ { runner with timers := Timer.cancel runner.timers index }
    match (← get).timers[index]? with
    | some timer => log .error "scheduler.callback_failed" [("interval_s", .real timer.interval)]
    | none => pure ()
  modifyContext fun _ ↦ context

/-- Lets the live timers call until each of them is cancelled. -/
def drainWithin (audience : Audience) : Nat → Action Unit
  | 0 => Activity.giveUp
  | bound + 1 => do
    match Timer.live (← get).timers with
    | [] => pure ()
    | index :: _ =>
      callAside audience index
      drainWithin audience bound

/-! ### Carrying out an order -/

/-- Carries out an order before an audience. -/
def obey (audience : Audience) : Order → Action Reply
  | .start program options => do start audience program options; return .nothing
  | .stop => do stop audience; return .nothing
  | .step => do step audience; return .nothing
  | .runBlocking => do runBlocking audience; return .nothing
  | .faster => do faster audience; return .nothing
  | .slower => do slower audience; return .nothing
  | .pause => do pause audience; return .nothing
  | .superSpeed => do superSpeed audience; return .nothing
  | .shutdown => do shutdown audience; return .nothing
  | .setSpeed speed => do setSpeed audience speed; return .nothing
  | .inject instruction => do return .accepted (← inject audience instruction)
  | .feed content => do feed content; return .nothing
  | .readInput => do return .byte (← readInput)
  | .fire rounds => do return .calls (← fire audience rounds)
  | .callTimer index => do callTimer audience (← timerAt index); return .nothing
  | .cancelTimer index => do
    let position ← timerAt index
    modify fun runner ↦ { runner with timers := Timer.cancel runner.timers position }
    return .nothing
  | .rearm => do rearm audience; return .nothing
  | .setClock numerator denominator => do setClock numerator denominator; return .nothing
  | .pokeSpeed speed => do modifySession ({ · with speed }); return .nothing
  | .pokeActive active => do modifySession ({ · with active }); return .nothing
  | .setMemory memorySize => do modifyBench ({ · with memorySize }); return .nothing
  | .setScript faults crashes rejects => do
    modifyBench fun bench ↦
      { bench with script :=
          ⟨faults.getD bench.script.faults, crashes.getD bench.script.crashes,
            rejects.getD bench.script.rejects⟩ }
    return .nothing
  | .clearOutput => do modify ({ · with output := .empty }); return .nothing
  | .raise message => Activity.fail (.raised message)
  | .look => do
    let runner ← get
    let session := runner.session
    return .glance session.active session.speed session.status runner.attached.isSome
  | .drain speed => do
    setSpeed audience speed
    drainWithin audience audience.patience
    return .nothing

/-- What a hook does when it is called: it counts the call, and carries out its orders if the
call is one of those listed. Answers are dropped; an error ends the hook and goes on to whoever
called it. -/
def callHook (audience : Audience) (position : Nat) (hook : Hook) : Action Unit := do
  modify fun runner ↦ { runner with hookCalls := runner.hookCalls.modify position (· + 1) }
  let call := (← get).hookCalls.getD position 0
  if call ∈ hook.calls then
    hook.orders.forM fun order ↦ do
      let _ ← obey audience order

end Runner

/-- The audience of a list of hooks, with hooks called from hooks up to a depth. -/
def Audience.ofHooks (hooks : Array Hook) (patience : Nat) : Nat → Audience
  | 0 => ⟨fun _ ↦ Activity.giveUp, patience⟩
  | depth + 1 =>
    ⟨fun position ↦
      match hooks[position]? with
      | some hook => Runner.callHook (Audience.ofHooks hooks patience depth) position hook
      | none => pure (),
    patience⟩

namespace Runner

/-- The subscription of a hook, if it hears events. -/
def subscriptionOf (hook : Hook) (position : Nat) : Option (Subscription Observer) :=
  match hook.trigger with
  | .event eventType => some ⟨eventType, .hook position⟩
  | .output => none

/-- The subscriptions of a runner: the registrar and the recorder come first, then the hooks in
their order. -/
def subscriptions (hooks : List Hook) : List (Subscription Observer) :=
  ⟨EventKind.started.type, .registrar⟩ :: ⟨everyEvent, .recorder⟩ ::
    hooks.zipIdx.filterMap fun (hook, position) ↦ subscriptionOf hook position

/-- A runner before its first start, if every hook can subscribe. -/
def fresh (bench : Bench) (hooks : List Hook) (journal : Journal) : Except Error Runner := do
  let bus ← (subscriptions hooks).foldlM Bus.subscribe .empty
  return {
    session := .initial
    runs := #[]
    attached := none
    supplied := none
    timers := #[]
    current := none
    generation := 0
    output := .empty
    bench, journal, bus
    sinks := hooks.zipIdx.filterMap fun (hook, position) ↦
      if hook.trigger = .output then some position else none
    recorded := #[]
    hookCalls := Array.replicate hooks.length 0 }

/-- Forgets the events and the lines of the past. -/
def forgetNews (runner : Runner) : Runner :=
  { runner with recorded := #[], journal := { runner.journal with lines := #[] } }

end Runner

end TapeRunner
