import TapeRunner.Session.Runner

/-!
# Controlling a session

The operations on a session. Starting, stopping and every change of speed are told to the observers
and followed by `rearm`, which makes the way of moving on fit the speed: no timer when idle, a
fresh timer when stepped, and a run to the end when blocking. A fault of the program is no error
of an operation; it becomes the status of the session, which turns idle.
-/

set_option autoImplicit false
set_option relaxedAutoImplicit false

namespace TapeRunner.Runner

/-! ### The end of a stretch -/

/-- The session turns idle because its program refused an instruction. -/
def reportFault (audience : Audience) (fault : Fault) : Action Unit := do
  modifySession ({ · with speed := Speed.idle, status := some (.failed fault) })
  let runner ← get
  log .info "session.failed" [runner.nameField, ("error_type", .text fault.kind),
    ("error_message", .text fault.message), ("steps", .ofNat runner.session.steps)]
  tell audience (.failed fault)

/-- The session turns idle because its stretch is over. -/
def reportEnd (audience : Audience) : Action Unit := do
  let before ← get
  let elapsed := before.bench.clock - before.session.startedAt
  modifySession ({ · with speed := Speed.idle, status := some (.finished elapsed) })
  let runner ← get
  log .info "session.finished" [runner.nameField, ("elapsed_s", .real elapsed),
    ("steps", .ofNat runner.session.steps)]
  tell audience (.finished elapsed)

/-! ### Timers and blocking runs -/

/-- Cancels the current timer. Ticks of older generations count for nothing from now on. -/
def disarm : Action Unit := do
  modify fun runner ↦ { runner with generation := runner.generation + 1 }
  match (← get).current with
  | none => pure ()
  | some index =>
    modify fun runner ↦ { runner with
      timers := Timer.cancel runner.timers index
      current := none }
    log .debug "scheduler.cancelled" []

/-- Makes a timer for the current speed the current one. -/
def arm (speed : Int) (cadence : Float) : Action Unit := do
  let runner ← get
  let interval := Speed.interval cadence
  match Timer.every runner.timers interval runner.generation with
  | .error error => Activity.fail error
  | .ok timers =>
    set { runner with timers, current := some runner.timers.size }
    log .debug "scheduler.armed" [("speed", .whole speed), ("interval_s", .real interval)]

/-- Steps a run while the speed is the blocking one and the program has not ended. -/
def blockingSteps (audience : Audience) (position : Nat) : Nat → Action Unit
  | 0 => Activity.giveUp
  | patience + 1 => do
    let run ← runAt position
    if (← get).session.speed = Speed.blocking && !run.atEnd then
      advance audience position
      modifySession fun session ↦ { session with steps := session.steps + 1 }
      blockingSteps audience position patience
    else
      pure ()

/-- A blocking run of the run at a position. `again` re-arms afterwards if the speed is another one
than before. -/
def blockingRun (audience : Audience) (again : Action Unit) (position : Nat) : Action Unit := do
  let before ← get
  log .info "session.blocking_run" [before.nameField]
  match ← Activity.attempt (blockingSteps audience position audience.patience) with
  | .error fault => reportFault audience fault
  | .ok () => reportEnd audience
  if (← get).session.speed ≠ before.session.speed then again

/-- Re-arming, with a bound on the blocking runs that re-arm in their turn. -/
def rearmWithin (audience : Audience) : Nat → Action Unit
  | 0 => Activity.giveUp
  | bound + 1 => do
    disarm
    let runner ← get
    match runner.attached with
    | none => pure ()
    | some position =>
      if runner.session.active then
        match Speed.cadence? runner.session.speed with
        | some cadence => arm runner.session.speed cadence
        | none =>
          if runner.session.speed = Speed.idle then pure ()
          else blockingRun audience (rearmWithin audience bound) position

/-- Makes the way of moving on fit the speed of an active session. The current timer is cancelled in
any case. -/
def rearm (audience : Audience) : Action Unit := rearmWithin audience audience.patience

/-- The position of the attached run, without which an operation is refused. -/
def requireRun (operation : String) : Action Nat := do
  match (← get).attached with
  | some position => return position
  | none => Activity.fail (.noSession operation)

/-- Runs until the speed is no longer the blocking one or the program has ended. -/
def runBlocking (audience : Audience) : Action Unit := do
  let position ← requireRun "run_blocking"
  blockingRun audience (rearm audience) position

/-- One step of the program. -/
def step (audience : Audience) : Action Unit := do
  let position ← requireRun "step"
  let speed := (← get).session.speed
  modifySession ({ · with status := none })
  match ← Activity.attempt (advance audience position) with
  | .error fault => reportFault audience fault
  | .ok () =>
    modifySession fun session ↦ { session with steps := session.steps + 1 }
    if (← runAt position).atEnd then reportEnd audience
  tell audience .stepped
  if (← get).session.speed ≠ speed then rearm audience

/-- The callback of a timer armed in a generation. It counts only while that generation lasts and
the session is active and stepped. -/
def tick (audience : Audience) (generation : Nat) : Action Unit := do
  let runner ← get
  if generation = runner.generation && runner.session.active &&
      Speed.regimeOf runner.session.speed = .stepped then
    step audience

/-- Calls the callback of the timer at a position, whether it is live or not. -/
def callTimer (audience : Audience) (index : Nat) : Action Unit := do
  match (← get).timers[index]? with
  | some timer => tick audience timer.task
  | none => Activity.fail .noEntry

/-- Fires every live timer a number of times, and answers how many calls that made. -/
def fire (audience : Audience) (rounds : Nat) : Action Nat :=
  Timer.fire (·.timers) (callTimer audience) rounds

/-! ### Lifecycle -/

/-- Starts a session on a fresh engine. If the engine cannot be built, nothing changes. -/
def start (audience : Audience) (program : String) (options : StartOptions) : Action Unit := do
  let before ← get
  match before.bench.build program with
  | .error error => Activity.fail error
  | .ok run =>
    let position := before.runs.size
    let number := before.session.number.getD 0 + 1
    let speed := options.initialSpeed
    set { before with
      session := ⟨some number, true, speed, before.bench.clock, none, 0, 0⟩
      runs := before.runs.push run
      supplied := some position }
    disarm
    modify fun runner ↦ { runner with
      attached := some position
      journal := runner.journal.bind
        [("session_id", .text (Session.nameOf number)), ("component", .text "session")] }
    log .info "session.started" [("session_id", .text (Session.nameOf number)),
      ("speed", .whole speed), ("program_length", .ofNat program.length),
      ("direct_start", .flag options.directStart),
      ("start_super_speed", .flag options.superSpeed)]
    tell audience .started
    rearm audience

/-- Lets go of the engine. -/
def detach : Action Unit := do
  disarm
  modify ({ · with attached := none })

/-- Ends the session; an inactive one stays as it is. The speed stays until the next start. -/
def stop (audience : Audience) : Action Unit := do
  if (← get).session.active then
    modifySession ({ · with active := false, status := none })
    detach
    modify ({ · with supplied := none })
    let runner ← get
    log .info "session.stopped" [runner.nameField, ("steps", .ofNat runner.session.steps)]
    tell audience .stopped
    modify fun runner ↦ { runner with journal := runner.journal.clear }

/-- Ends the session and leaves no engine and no timer behind. -/
def shutdown (audience : Audience) : Action Unit := do
  stop audience
  detach

/-! ### Speed -/

/-- Replaces the speed; the same speed again changes nothing. -/
def setSpeed (audience : Audience) (speed : Int) : Action Unit := do
  let previous := (← get).session.speed
  if speed ≠ previous then
    modifySession ({ · with speed })
    log .info "session.speed_changed"
      [("previous_speed", .whole previous), ("speed", .whole speed)]
    if (← get).session.active then
      tell audience (.speedChanged previous)
    rearm audience

/-- One speed up, within the limits. -/
def faster (audience : Audience) : Action Unit := do
  setSpeed audience (Speed.clamp ((← get).session.speed + 1))

/-- One speed down; an idle or blocking session keeps its speed. -/
def slower (audience : Audience) : Action Unit := do
  let speed := (← get).session.speed
  if Speed.idle < speed then setSpeed audience (speed - 1)

/-- Turns idle. -/
def pause (audience : Audience) : Action Unit := setSpeed audience Speed.idle

/-- Runs to the end in one go. -/
def superSpeed (audience : Audience) : Action Unit := setSpeed audience Speed.blocking

/-! ### Beside the program -/

/-- Executes one instruction outside the program, and answers whether the engine accepted it. A
refusal leaves status and speed alone. -/
def inject (audience : Audience) (instruction : String) : Action Bool := do
  let position ← requireRun "inject_instruction"
  let accepted ← match ← Activity.attempt (execute audience position instruction) with
    | .ok () => pure true
    | .error fault => do
      log .debug "session.inject_rejected"
        [("instruction", .text instruction), ("reason", .text fault.message)]
      pure false
  tell audience (.injected instruction accepted)
  return accepted

/-- Feeds a text to the input of the session. -/
def feed (text : String) : Action Unit := do
  match (← get).supplied with
  | none => Activity.fail (.noSession "feed_input")
  | some position => modifyRun position fun run ↦ { run with supply := run.supply.feed text }

/-- Takes a byte from the input of the session, past the program. -/
def readInput : Action UInt8 := do
  match (← get).supplied with
  | none => Activity.fail .noSupply
  | some position =>
    match (← runAt position).supply.take with
    | .error fault => Activity.fail (.fault fault)
    | .ok (byte, supply) =>
      modifyRun position ({ · with supply })
      return byte

end TapeRunner.Runner
