import TapeRunner.Proofs.Session.Driving
import TapeRunner.Proofs.Session.Observers

/-!
# The parts of the operations

What the operations on a session are made of, each with the runner that it leaves behind: without a
current timer (`yields_clear`, `yields_disarm`), with a fresh one (`yields_arm`), or idle with a
status (`ends_reportFault`, `ends_reportEnd`). Each of them writes a line, and may end early only if
the line is refused. An operation is a sequence of such parts (`step_eq`, `blockingRun_eq`,
`setSpeed_eq`, `inject_eq`). The loop of a blocking run keeps what its single steps keep, and stops
at the end of the program or at another speed (`yields_blockingSteps`).
-/

set_option autoImplicit false
set_option relaxedAutoImplicit false

namespace TapeRunner

open Activity

/-- Every stepped speed up to the top has an interval that a timer accepts. -/
theorem Speed.interval_pos {speed : Int} (hlow : 0 < speed) (htop : speed ≤ top) :
    ∃ cadence, cadence? speed = some cadence ∧ ¬ interval cadence ≤ 0 := by
  have hall : ∀ below ∈ List.range 100,
      ¬ interval (Number.nearest 1000 ((below + 1 : Int) * 10)) ≤ 0 := by
    decide +kernel
  obtain ⟨below, rfl⟩ : ∃ below : Nat, speed = below + 1 := ⟨(speed - 1).toNat, by omega⟩
  have hbelow : below ∈ List.range 100 := by
    rw [List.mem_range]
    unfold top at htop
    omega
  exact ⟨_, if_neg (by omega), hall below hbelow⟩

/-- A session begins with a speed within the limits. -/
theorem StartOptions.initialSpeed_mem_range (options : StartOptions) :
    Speed.blocking ≤ options.initialSpeed ∧ options.initialSpeed ≤ Speed.top := by
  have hmem := options.initialSpeed_mem
  simp only [List.mem_cons, List.not_mem_nil, or_false] at hmem
  rcases hmem with hspeed | hspeed | hspeed <;> rw [hspeed] <;> decide

namespace Runner

/-- The runner without a current timer. -/
def disarmed (runner : Runner) (generation : Nat) (timers : Array (Timer Nat)) : Runner :=
  { runner with generation, timers, current := none }

/-- The runner in its next generation, with its current timer cancelled. -/
def cleared (runner : Runner) : Runner :=
  runner.disarmed (runner.generation + 1) <| match runner.current with
    | none => runner.timers
    | some index => Timer.cancel runner.timers index

/-- The runner with a live timer of a cadence as its current one. -/
def armedAt (runner : Runner) (cadence : Float) : Runner :=
  { runner with
    timers := runner.timers.push ⟨Speed.interval cadence, runner.generation, false⟩
    current := some runner.timers.size }

/-- The runner turned idle with a status. -/
def idledWith (runner : Runner) (status : Status) : Runner :=
  { runner with session := { runner.session with speed := Speed.idle, status := some status } }

/-- The runner with another speed. -/
def withSpeed (runner : Runner) (speed : Int) : Runner :=
  { runner with session := { runner.session with speed } }

/-- The runner with one step counted. -/
def stepCounted (runner : Runner) : Runner :=
  { runner with session := { runner.session with steps := runner.session.steps + 1 } }

variable {halted : Halt → Runner → Prop} {runner : Runner} {audience : Audience}

/-! ### Parts -/

theorem ends_requireRun (operation : String) {required : Except Halt Nat → Runner → Prop} :
    Ends (requireRun operation) runner required ↔ match runner.attached with
      | some position => required (.ok position) runner
      | none => required (.error (.raised (.noSession operation))) runner := by
  rw [requireRun, ends_bind, ends_get]
  cases hattached : runner.attached <;> simp only [hattached, ends_pure, ends_fail]

/-- Disarming cancels the current timer and begins another generation. -/
theorem yields_clear (hwrites : runner.cleared.Writes halted []) :
    Yields halted disarm runner fun _ last ↦ ∃ lines, last = runner.cleared.withLines lines := by
  unfold cleared at hwrites ⊢
  rw [Yields, disarm, ends_bind, ends_modify]
  simp only [ends_bind, ends_get]
  cases hcurrent : runner.current with
  | none => exact ⟨runner.journal.lines, rfl⟩
  | some index =>
    rw [hcurrent] at hwrites
    simp only [ends_bind, ends_modify]
    exact hwrites _ _

/-- Disarming leaves no current timer, and everything else as it was. -/
theorem yields_disarm (hwrites : ∀ generation timers,
    (runner.disarmed generation timers).Writes halted []) :
    Yields halted disarm runner fun _ last ↦
      ∃ generation timers lines, last = (runner.disarmed generation timers).withLines lines := by
  refine Yields.mono (yields_clear (hwrites _ _)) ?_
  rintro _ _ ⟨lines, rfl⟩
  exact ⟨_, _, lines, rfl⟩

/-- Arming makes a live timer of the cadence the current one, and logs it. -/
theorem ends_arm {required : Except Halt Unit → Runner → Prop} {speed : Int} {cadence : Float}
    (hinterval : ¬ Speed.interval cadence ≤ 0) :
    Ends (arm speed cadence) runner required ↔
      Ends (log .debug "scheduler.armed"
        [("speed", .whole speed), ("interval_s", .real (Speed.interval cadence))])
        (runner.armedAt cadence) required := by
  have hevery : Timer.every runner.timers (Speed.interval cadence) runner.generation =
      .ok (runner.timers.push ⟨Speed.interval cadence, runner.generation, false⟩) :=
    if_neg hinterval
  rw [arm, ends_bind, ends_get]
  simp only [hevery, ends_bind, ends_set]
  exact Iff.rfl

/-- A cadence whose interval is not positive is refused by the timers. -/
theorem ends_arm_of_refused {required : Except Halt Unit → Runner → Prop} {speed : Int}
    {cadence : Float} (hinterval : Speed.interval cadence ≤ 0) :
    Ends (arm speed cadence) runner required ↔ required (.error (.raised .interval)) runner := by
  have hevery : Timer.every runner.timers (Speed.interval cadence) runner.generation =
      .error .interval := if_pos hinterval
  rw [arm, ends_bind, ends_get]
  simp only [hevery, ends_fail]

/-- Arming makes a live timer of the cadence the current one. -/
theorem yields_arm {speed : Int} {cadence : Float} (hinterval : ¬ Speed.interval cadence ≤ 0)
    (hwrites : (runner.armedAt cadence).Writes halted
      [("speed", .whole speed), ("interval_s", .real (Speed.interval cadence))]) :
    Yields halted (arm speed cadence) runner fun _ last ↦
      ∃ lines, last = (runner.armedAt cadence).withLines lines :=
  (ends_arm hinterval).mpr (hwrites _ _)

/-- A fault is logged and told by a session that is idle already. -/
theorem ends_reportFault {required : Except Halt Unit → Runner → Prop} (fault : Fault) :
    Ends (reportFault audience fault) runner required ↔
      Ends (do
        log .info "session.failed" [runner.nameField, ("error_type", .text fault.kind),
          ("error_message", .text fault.message), ("steps", .ofNat runner.session.steps)]
        tell audience (.failed fault)) (runner.idledWith (.failed fault)) required := by
  simp only [reportFault, modifySession, ends_bind, ends_modify, ends_get]
  rfl

/-- The seconds since the start of the session. -/
def elapsed (runner : Runner) : Float := runner.bench.clock - runner.session.startedAt

/-- The end of a stretch is logged and told by a session that is idle already. -/
theorem ends_reportEnd {required : Except Halt Unit → Runner → Prop} :
    Ends (reportEnd audience) runner required ↔
      Ends (do
        log .info "session.finished" [runner.nameField, ("elapsed_s", .real runner.elapsed),
          ("steps", .ofNat runner.session.steps)]
        tell audience (.finished runner.elapsed))
        (runner.idledWith (.finished runner.elapsed)) required := by
  simp only [reportEnd, modifySession, ends_bind, ends_modify, ends_get]
  rfl

/-! ### The operations as sequences -/

/-- What is reported once the loop of a blocking run is over. -/
def conclude (audience : Audience) : Except Fault Unit → Action Unit
  | .error fault => reportFault audience fault
  | .ok () => reportEnd audience

/-- What is counted and reported once a run has been stepped. -/
def concludeStep (audience : Audience) (position : Nat) : Except Fault Unit → Action Unit
  | .error fault => reportFault audience fault
  | .ok () => do
    modifySession fun session ↦ { session with steps := session.steps + 1 }
    if (← runAt position).atEnd then reportEnd audience

/-- A step that succeeded is counted, and reported where it came to the end. -/
theorem ends_concludeStep {required : Except Halt Unit → Runner → Prop} {position : Nat} {run : Run}
    (hrun : runner.runs[position]? = some run) :
    Ends (concludeStep audience position (.ok ())) runner required ↔
      Ends (if run.atEnd then reportEnd audience else pure ()) runner.stepCounted required := by
  have hcounted : runner.stepCounted.runs[position]? = some run := hrun
  rw [concludeStep, ends_bind, modifySession, ends_modify]
  show Ends (runAt position >>= _) runner.stepCounted required ↔ _
  rw [ends_bind, ends_runAt hcounted]

/-- Goes on unless the speed is still the one it was. -/
def againUnless (speed : Int) (again : Action Unit) : Action Unit := do
  if (← get).session.speed ≠ speed then again

theorem ends_againUnless_of_same {speed : Int} {again : Action Unit}
    {required : Except Halt Unit → Runner → Prop} (hsame : runner.session.speed = speed) :
    Ends (againUnless speed again) runner required ↔ required (.ok ()) runner := by
  rw [againUnless, ends_bind, ends_get]
  simp only [if_neg (not_not_intro hsame), ends_pure]

theorem ends_againUnless_of_other {speed : Int} {again : Action Unit}
    {required : Except Halt Unit → Runner → Prop} (hother : runner.session.speed ≠ speed) :
    Ends (againUnless speed again) runner required ↔ Ends again runner required := by
  rw [againUnless, ends_bind, ends_get]
  simp only [if_pos hother]

/-- Tells an active session's observers that its speed was another one. -/
def tellChange (audience : Audience) (previous : Int) : Action Unit := do
  if (← get).session.active then tell audience (.speedChanged previous)

theorem ends_tellChange_of_active {required : Except Halt Unit → Runner → Prop} {previous : Int}
    (hactive : runner.session.active = true) :
    Ends (tellChange audience previous) runner required ↔
      Ends (tell audience (.speedChanged previous)) runner required := by
  rw [tellChange, ends_bind, ends_get]
  simp only [if_pos hactive]

/-- Whether an instruction beside the program was accepted; a refusal leaves a line. -/
def acceptance (instruction : String) : Except Fault Unit → Action Bool
  | .ok () => pure true
  | .error fault => do
    log .debug "session.inject_rejected"
      [("instruction", .text instruction), ("reason", .text fault.message)]
    pure false

theorem blockingRun_eq (again : Action Unit) (position : Nat) :
    blockingRun audience again position = (do
      let before ← get
      log .info "session.blocking_run" [before.nameField]
      let outcome ← attempt (blockingSteps audience position audience.patience)
      conclude audience outcome
      againUnless before.session.speed again) := by
  refine bind_congr fun before ↦ bind_congr fun _ ↦ bind_congr fun outcome ↦ ?_
  rcases outcome with fault | _ <;> rfl

theorem step_eq : step audience = (do
    let position ← requireRun "step"
    let before ← get
    modifySession ({ · with status := none })
    let outcome ← attempt (advance audience position)
    concludeStep audience position outcome
    tell audience .stepped
    againUnless before.session.speed (rearm audience)) := by
  refine bind_congr fun position ↦ bind_congr fun before ↦ bind_congr fun _ ↦
    bind_congr fun outcome ↦ ?_
  rcases outcome with fault | _
  · rfl
  · simp only [concludeStep, bind_assoc]
    refine bind_congr fun _ ↦ bind_congr fun run ↦ ?_
    split
    · rfl
    · rw [pure_bind]
      rfl

/-- The runner without a status. -/
def wiped (runner : Runner) : Runner :=
  { runner with session := { runner.session with status := none } }

/-- A step of an attached session is made without a status. -/
theorem ends_step {required : Except Halt Unit → Runner → Prop} {position : Nat}
    (hattached : runner.attached = some position) :
    Ends (step audience) runner required ↔ Ends (do
      let outcome ← attempt (advance audience position)
      concludeStep audience position outcome
      tell audience .stepped
      againUnless runner.session.speed (rearm audience)) runner.wiped required := by
  rw [step_eq, ends_bind, ends_requireRun, hattached]
  simp only
  rw [ends_bind, ends_get]
  simp only [modifySession]
  rw [ends_bind, ends_modify]
  exact Iff.rfl

theorem setSpeed_eq (speed : Int) : setSpeed audience speed = (do
    let before ← get
    if speed ≠ before.session.speed then
      modifySession ({ · with speed })
      log .info "session.speed_changed"
        [("previous_speed", .whole before.session.speed), ("speed", .whole speed)]
      tellChange audience before.session.speed
      rearm audience) := by
  refine bind_congr fun before ↦ ?_
  by_cases hchange : speed ≠ before.session.speed
  · simp only [if_pos hchange, tellChange, bind_assoc]
    refine bind_congr fun _ ↦ bind_congr fun _ ↦ bind_congr fun after ↦ ?_
    split
    · rfl
    · rw [pure_bind]
  · simp only [if_neg hchange]

/-- Another speed is stored, logged and told, and followed by rearming. -/
theorem ends_setSpeed_of_other {required : Except Halt Unit → Runner → Prop} {speed : Int}
    (hother : speed ≠ runner.session.speed) :
    Ends (setSpeed audience speed) runner required ↔ Ends (do
      log .info "session.speed_changed"
        [("previous_speed", .whole runner.session.speed), ("speed", .whole speed)]
      tellChange audience runner.session.speed
      rearm audience) (runner.withSpeed speed) required := by
  rw [setSpeed_eq, ends_bind, ends_get]
  simp only [if_pos hother]
  rw [modifySession, ends_bind, ends_modify]
  exact Iff.rfl

theorem inject_eq (instruction : String) : inject audience instruction = (do
    let position ← requireRun "inject_instruction"
    let outcome ← attempt (execute audience position instruction)
    let accepted ← acceptance instruction outcome
    tell audience (.injected instruction accepted)
    return accepted) := by
  refine bind_congr fun position ↦ bind_congr fun outcome ↦ ?_
  rcases outcome with fault | _
  · simp only [acceptance, bind_assoc]
  · rfl

/-! ### Starting and stopping -/

/-- The fields of the line about a start. -/
def startedFields (runner : Runner) (program : String) (options : StartOptions) : Fields :=
  [("session_id", .text (Session.nameOf (runner.session.number.getD 0 + 1))),
    ("speed", .whole options.initialSpeed), ("program_length", .ofNat program.length),
    ("direct_start", .flag options.directStart), ("start_super_speed", .flag options.superSpeed)]

/-- The runner with a session that has just begun with a run. -/
def begun (runner : Runner) (options : StartOptions) (run : Run) : Runner :=
  { runner.cleared with
    session := ⟨some (runner.session.number.getD 0 + 1), true, options.initialSpeed,
      runner.bench.clock, none, 0, 0⟩
    runs := runner.runs.push run
    attached := some runner.runs.size
    supplied := some runner.runs.size
    journal := runner.journal.bind
      [("session_id", .text (Session.nameOf (runner.session.number.getD 0 + 1))),
        ("component", .text "session")] }

/-- A session begins with a run that is built for it; it is then logged and told, and rearmed. -/
theorem yields_start_of_writes {required : Unit → Runner → Prop} {program : String}
    {options : StartOptions} {run : Run} (hbuild : runner.bench.build program = .ok run)
    (hwrites : ∀ middle : Runner, middle.journal = runner.journal → middle.Writes halted [])
    (hrest : ∀ lines, Yields halted (do
      log .info "session.started" (runner.startedFields program options)
      tell audience .started
      rearm audience) ((runner.begun options run).withLines lines) required) :
    Yields halted (start audience program options) runner required := by
  rw [Yields, start, ends_bind, ends_get]
  simp only [hbuild]
  rw [ends_bind, ends_set]
  refine Yields.bind (yields_clear (hwrites _ rfl)) ?_
  rintro _ _ ⟨lines, rfl⟩
  rw [Yields, ends_bind, ends_modify]
  exact hrest lines

/-- With plain fields bound in the journal, a session begins. -/
theorem yields_start {required : Unit → Runner → Prop} {program : String} {options : StartOptions}
    {run : Run} (hbuild : runner.bench.build program = .ok run)
    (hbound : runner.journal.context.Plain)
    (hrest : ∀ lines, Yields halted (do
      log .info "session.started" (runner.startedFields program options)
      tell audience .started
      rearm audience) ((runner.begun options run).withLines lines) required) :
    Yields halted (start audience program options) runner required :=
  yields_start_of_writes hbuild
    (fun _ hsame ↦ writes_of_plain (hsame ▸ hbound) Fields.plain_nil) hrest

/-- Where no engine can be built, nothing changes. -/
theorem ends_start_of_unbuilt {required : Except Halt Unit → Runner → Prop} {program : String}
    {options : StartOptions} {error : Error} (hbuild : runner.bench.build program = .error error) :
    Ends (start audience program options) runner required ↔
      required (.error (.raised error)) runner := by
  rw [start, ends_bind, ends_get]
  simp only [hbuild, ends_fail]

/-- The runner whose session has just ended, without an engine and without a timer. -/
def ended (runner : Runner) : Runner :=
  { runner.cleared with
    session := { runner.session with active := false, status := none }
    attached := none
    supplied := none }

/-- A session that is not active is not stopped again. -/
theorem ends_stop_of_inactive {required : Except Halt Unit → Runner → Prop}
    (hinactive : runner.session.active = false) :
    Ends (stop audience) runner required ↔ required (.ok ()) runner := by
  rw [stop, ends_bind, ends_get]
  simp only [hinactive, Bool.false_eq_true, if_false, ends_pure]

/-- An active session is ended; this is then logged and told, and nothing stays bound. -/
theorem yields_stop_of_writes {required : Unit → Runner → Prop}
    (hactive : runner.session.active = true)
    (hwrites : ∀ middle : Runner, middle.journal = runner.journal → middle.Writes halted [])
    (hrest : ∀ lines, Yields halted (do
      log .info "session.stopped" [runner.nameField, ("steps", .ofNat runner.session.steps)]
      tell audience .stopped
      modify fun runner ↦ { runner with journal := runner.journal.clear })
        (runner.ended.withLines lines) required) :
    Yields halted (stop audience) runner required := by
  rw [Yields, stop, ends_bind, ends_get]
  simp only [hactive, if_true, modifySession, detach, bind_assoc]
  rw [ends_bind, ends_modify]
  refine Yields.bind (yields_clear (hwrites _ rfl)) ?_
  rintro _ _ ⟨lines, rfl⟩
  rw [Yields, ends_bind, ends_modify]
  simp only
  rw [ends_bind, ends_modify]
  simp only
  rw [ends_bind, ends_get]
  exact hrest lines

/-- With plain fields bound in the journal, an active session is ended. -/
theorem yields_stop {required : Unit → Runner → Prop} (hactive : runner.session.active = true)
    (hbound : runner.journal.context.Plain)
    (hrest : ∀ lines, Yields halted (do
      log .info "session.stopped" [runner.nameField, ("steps", .ofNat runner.session.steps)]
      tell audience .stopped
      modify fun runner ↦ { runner with journal := runner.journal.clear })
        (runner.ended.withLines lines) required) :
    Yields halted (stop audience) runner required :=
  yields_stop_of_writes hactive
    (fun _ hsame ↦ writes_of_plain (hsame ▸ hbound) Fields.plain_nil) hrest

/-! ### Rearming -/

/-- What follows once there is no timer: nothing unless the session is on and not idle, a timer if
it is stepped, and a blocking run otherwise. -/
def engage (audience : Audience) (again : Action Unit) : Action Unit := do
  let runner ← get
  match runner.attached with
  | none => pure ()
  | some position =>
    if runner.session.active then
      match Speed.cadence? runner.session.speed with
      | some cadence => arm runner.session.speed cadence
      | none =>
        if runner.session.speed = Speed.idle then pure ()
        else blockingRun audience again position

theorem rearmWithin_succ (bound : Nat) : rearmWithin audience (bound + 1) = (do
    disarm
    engage audience (rearmWithin audience bound)) := rfl

section Engage

variable {again : Action Unit} {required : Except Halt Unit → Runner → Prop} {position : Nat}

theorem ends_engage_of_off (hoff : (runner.session.active && runner.attached.isSome) = false) :
    Ends (engage audience again) runner required ↔ required (.ok ()) runner := by
  rw [engage, ends_bind, ends_get]
  cases hattached : runner.attached with
  | none => simp only [hattached, ends_pure]
  | some position =>
    have hinactive : ¬ runner.session.active = true := by simpa [hattached] using hoff
    simp only [hattached, if_neg hinactive, ends_pure]

theorem ends_engage_of_idle (hidle : runner.session.speed = Speed.idle) :
    Ends (engage audience again) runner required ↔ required (.ok ()) runner := by
  have hcadence : Speed.cadence? Speed.idle = none := rfl
  rw [engage, ends_bind, ends_get]
  cases hattached : runner.attached with
  | none => simp only [hattached, ends_pure]
  | some position =>
    simp only [hattached, hidle, hcadence, if_true]
    split <;> exact Iff.rfl

theorem ends_engage_of_stepped {cadence : Float} (hactive : runner.session.active = true)
    (hattached : runner.attached = some position)
    (hcadence : Speed.cadence? runner.session.speed = some cadence) :
    Ends (engage audience again) runner required ↔
      Ends (arm runner.session.speed cadence) runner required := by
  rw [engage, ends_bind, ends_get]
  simp only [hattached, if_pos hactive, hcadence]

theorem ends_engage_of_blocking (hactive : runner.session.active = true)
    (hattached : runner.attached = some position) (hspeed : runner.session.speed < 0) :
    Ends (engage audience again) runner required ↔
      Ends (blockingRun audience again position) runner required := by
  have hcadence : Speed.cadence? runner.session.speed = none := if_pos (Int.le_of_lt hspeed)
  have hrunning : ¬ runner.session.speed = Speed.idle := Int.ne_of_lt hspeed
  rw [engage, ends_bind, ends_get]
  simp only [hattached, if_pos hactive, hcadence, if_neg hrunning]

/-- Engaging does nothing for a session that is off or idle, arms one that is stepped, and makes a
blocking run of any other. -/
theorem ends_engage
    (hoff : (runner.session.active && runner.attached.isSome) = false → required (.ok ()) runner)
    (hidle : runner.session.speed = Speed.idle → required (.ok ()) runner)
    (hstepped : 0 < runner.session.speed → ∀ cadence,
      Speed.cadence? runner.session.speed = some cadence →
        Ends (arm runner.session.speed cadence) runner required)
    (hblocking : runner.session.speed < 0 → ∀ position, runner.session.active = true →
      runner.attached = some position →
        Ends (blockingRun audience again position) runner required) :
    Ends (engage audience again) runner required := by
  by_cases hon : (runner.session.active && runner.attached.isSome) = true
  · obtain ⟨hactive, hsome⟩ := (Bool.and_eq_true _ _).mp hon
    obtain ⟨position, hattached⟩ := Option.isSome_iff_exists.mp hsome
    rcases Int.lt_trichotomy runner.session.speed Speed.idle with hnegative | hzero | hpositive
    · exact (ends_engage_of_blocking hactive hattached hnegative).mpr
        (hblocking hnegative position hactive hattached)
    · exact (ends_engage_of_idle hzero).mpr (hidle hzero)
    · have hcadence : Speed.cadence? runner.session.speed =
          some (Number.nearest 1000 (runner.session.speed * 10)) :=
        if_neg (Int.not_le.mpr hpositive)
      exact (ends_engage_of_stepped hactive hattached hcadence).mpr
        (hstepped hpositive _ hcadence)
  · have hnot := Bool.eq_false_iff.mpr hon
    exact (ends_engage_of_off hnot).mpr (hoff hnot)

end Engage

/-! ### The loop of a blocking run -/

/-- The loop does nothing at the end of the program or at another speed than the blocking one. -/
theorem ends_blockingSteps_of_stops {required : Except Halt Unit → Runner → Prop} {position : Nat}
    {run : Run} (hrun : runner.runs[position]? = some run)
    (hstops : runner.session.speed ≠ Speed.blocking ∨ run.atEnd = true) {patience : Nat} :
    Ends (blockingSteps audience position (patience + 1)) runner required ↔
      required (.ok ()) runner := by
  have hdone : ¬ (decide (runner.session.speed = Speed.blocking) && !run.atEnd) = true := by
    rcases hstops with hspeed | hend
    · simp [hspeed]
    · simp [hend]
  rw [blockingSteps, ends_bind, ends_runAt hrun]
  simp only [ends_bind, ends_get]
  rw [if_neg hdone, ends_pure]

/-- Before the end of the program and at the blocking speed, the loop makes a step, counts it and
goes on. -/
theorem ends_blockingSteps_of_goes {required : Except Halt Unit → Runner → Prop} {position : Nat}
    {run : Run} (hrun : runner.runs[position]? = some run)
    (hspeed : runner.session.speed = Speed.blocking) (hend : run.atEnd = false) {patience : Nat} :
    Ends (blockingSteps audience position (patience + 1)) runner required ↔
      Ends (advance audience position) runner fun outcome middle ↦
        match outcome with
        | .ok _ => Ends (blockingSteps audience position patience) middle.stepCounted required
        | .error halt => required (.error halt) middle := by
  have hgoes : (decide (runner.session.speed = Speed.blocking) && !run.atEnd) = true := by
    simp [hspeed, hend]
  rw [blockingSteps, ends_bind, ends_runAt hrun]
  simp only
  rw [ends_bind, ends_get]
  simp only [if_pos hgoes]
  rw [ends_bind]
  apply ends_congr
  intro outcome middle
  rcases outcome with halt | _
  · exact Iff.rfl
  · simp only [modifySession]
    rw [ends_bind, ends_modify]
    exact Iff.rfl

/-- The loop keeps what every step before the end of the program keeps, and stops at the end or at
another speed than the blocking one. -/
theorem yields_blockingSteps {inv : Runner → Prop} {position : Nat}
    (hunfinished : ∀ runner, inv runner → halted .unfinished runner)
    (hlost : ∀ runner, inv runner → runner.runs[position]? = none →
      halted (.raised (.broken .runs)) runner)
    (hstep : ∀ runner run, inv runner → runner.runs[position]? = some run → run.atEnd = false →
      runner.session.speed = Speed.blocking →
        Yields halted (advance audience position) runner fun _ last ↦ inv last.stepCounted)
    (patience : Nat) (hinv : inv runner) :
    Yields halted (blockingSteps audience position patience) runner fun _ last ↦ inv last ∧
      ∃ run, last.runs[position]? = some run ∧
        (last.session.speed = Speed.blocking → run.atEnd = true) := by
  induction patience generalizing runner with
  | zero => exact hunfinished runner hinv
  | succ patience ih =>
    cases hrun : runner.runs[position]? with
    | none =>
      rw [Yields, blockingSteps, ends_bind, ends_runAt_iff, hrun]
      exact hlost runner hinv hrun
    | some run =>
      by_cases hgoes : runner.session.speed = Speed.blocking ∧ run.atEnd = false
      · refine (ends_blockingSteps_of_goes hrun hgoes.1 hgoes.2).mpr ?_
        have hadvanced := hstep runner run hinv hrun hgoes.2 hgoes.1
        refine Ends.mono hadvanced ?_
        intro outcome middle hmiddle
        rcases outcome with halt | _
        · exact hmiddle
        · exact ih hmiddle
      · have hstops : runner.session.speed = Speed.blocking → run.atEnd = true := by
          intro hspeed
          cases hend : run.atEnd with
          | true => rfl
          | false => exact absurd ⟨hspeed, hend⟩ hgoes
        refine (ends_blockingSteps_of_stops hrun ?_).mpr ⟨hinv, run, hrun, hstops⟩
        exact Decidable.or_iff_not_imp_left.mpr fun hspeed ↦ hstops (Decidable.not_not.mp hspeed)

/-! ### Calls of timers -/

/-- The call of a timer that no longer counts changes nothing, and any other call is a step of an
active session. -/
theorem keeps_tick_of_active {inv : Runner → Prop} (hstep : ∀ runner, inv runner →
    runner.session.active = true → Yields halted (step audience) runner fun _ ↦ inv)
    (generation : Nat) : Keeps inv halted (tick audience generation) := by
  apply Keeps.get_bind
  intro runner hinv
  split
  · next hcounts =>
    simp only [Bool.and_eq_true] at hcounts
    exact hstep runner hinv hcounts.1.2
  · exact hinv

theorem keeps_tick {inv : Runner → Prop} (hstep : Keeps inv halted (step audience))
    (generation : Nat) : Keeps inv halted (tick audience generation) :=
  keeps_tick_of_active (fun runner hinv _ ↦ hstep runner hinv) generation

/-- What steps of an active session keep is kept by every number of rounds of the timers. -/
theorem keeps_fire_of_active {inv : Runner → Prop} (hstep : ∀ runner, inv runner →
    runner.session.active = true → Yields halted (step audience) runner fun _ ↦ inv)
    (rounds : Nat) : Keeps inv halted (fire audience rounds) := by
  refine Keeps.fireRounds (fun index runner hinv hlive ↦ ?_) rounds 0
  rw [Yields, callTimer, ends_bind, ends_get]
  unfold Timer.isLive at hlive
  cases htimer : runner.timers[index]? with
  | none =>
    rw [htimer] at hlive
    exact absurd hlive Bool.false_ne_true
  | some timer =>
    simp only [htimer]
    exact keeps_tick_of_active hstep timer.task runner hinv

theorem keeps_fire {inv : Runner → Prop} (hstep : Keeps inv halted (step audience))
    (rounds : Nat) : Keeps inv halted (fire audience rounds) :=
  keeps_fire_of_active (fun runner hinv _ ↦ hstep runner hinv) rounds

end Runner

end TapeRunner
