import TapeRunner.Proofs.Machine.Stretches
import TapeRunner.Proofs.Session.Generations
import TapeRunner.Proofs.Timer.Rounds

/-!
# A tick is a step

Before observers that only listen, a call of the timer of a stepped session is a step. A step that
passes leaves the timer as it is (`Runner.Ticking.yields_step_of_pass`), and the step that stops, at
the end of the program or by a fault, leaves none (`Runner.Ticking.yields_step_of_stop`). So any
number of rounds makes as many steps, up to the one that stops, and one event for each
(`Runner.ticks_are_steps`); and after that one, rounds do nothing until somebody changes the speed
or starts another session (`Runner.Quiet.carryOut`).
-/

set_option autoImplicit false
set_option relaxedAutoImplicit false

namespace TapeRunner

open Activity

/-! ### Rounds of a single timer -/

namespace Timer

variable {State Task : Type} {timersOf : State → Array (Timer Task)}
variable {call : Nat → Activity State Unit} {state : State}

/-- A round of a single live timer is one call of it. -/
theorem ends_fireRounds_of_live {index rounds fired : Nat}
    {required : Except Halt Nat → State → Prop} (hlive : live (timersOf state) = [index]) :
    Ends (fireRounds timersOf call (rounds + 1) fired) state required ↔
      Ends (do call index; fireRounds timersOf call rounds (fired + 1)) state required := by
  have halone : isLive (timersOf state) index = true :=
    (mem_live_iff _ _).mp (hlive ▸ List.mem_singleton_self index)
  rw [fireRounds, ends_bind, ends_get]
  simp only [hlive, fireListed]
  rw [ends_bind, ends_bind, ends_get]
  simp only [if_pos halone]
  rw [ends_bind, ends_bind]
  apply ends_congr
  intro outcome after
  rcases outcome with halt | _ <;> exact Iff.rfl

/-- Without a live timer, rounds do nothing. -/
theorem runFrom_fireRounds_of_none {rounds fired : Nat} (hnone : live (timersOf state) = []) :
    runFrom (fireRounds timersOf call rounds fired) state = (.ok fired, state) := by
  induction rounds with
  | zero => rfl
  | succ rounds ih =>
    rw [fireRounds, runFrom_bind, runFrom_get]
    simp only [hnone, fireListed, runFrom_bind, runFrom_pure]
    exact ih

/-- Without a live timer, there is none after a cancellation. -/
theorem live_cancel_eq_nil {timers : Array (Timer Task)} (hnone : live timers = []) (place : Nat) :
    live (cancel timers place) = [] := by
  refine live_eq_nil fun index ↦ ?_
  have hdead : ¬ isLive timers index = true := by
    rw [← mem_live_iff, hnone]
    exact List.not_mem_nil
  rw [isLive_cancel, Bool.eq_false_iff.mpr hdead, Bool.false_and]

end Timer

/-- An order that leaves an idle session idle: it asks for no other speed and starts no session. -/
def Order.LeavesIdle (order : Order) : Prop := order.Steady ∨ order = .slower

namespace Runner

variable {halted : Halt → Runner → Prop} {runner middle last : Runner} {audience : Audience}
variable {program : String} {rig next goal : Rig} {index : Nat}

/-! ### Sessions that tick -/

/-- The session is active, attached and stepped by its current timer. -/
structure Ticking (program : String) (rig : Rig) (index : Nat) (runner : Runner) : Prop
    extends runner.Attended where
  sole : runner.Sole
  active : runner.session.active = true
  stepped : 0 < runner.session.speed
  current : runner.current = some index
  armed : runner.armed = true
  attachedTo : runner.AttachedTo program rig

theorem Ticking.live_eq (hticking : Ticking program rig index runner) :
    Timer.live runner.timers = [index] := by
  rw [hticking.sole.live_eq, if_pos hticking.armed, hticking.current]
  rfl

/-- The call of the current timer is a step. -/
theorem Ticking.ends_callTimer (hticking : Ticking program rig index runner)
    {required : Except Halt Unit → Runner → Prop} :
    Ends (callTimer audience index) runner required ↔ Ends (step audience) runner required := by
  have hcounts : (runner.session.active &&
      decide (Speed.regimeOf runner.session.speed = .stepped)) = true := by
    simp only [Bool.and_eq_true, decide_eq_true_eq, Speed.regimeOf_eq_stepped_iff]
    exact ⟨hticking.active, hticking.stepped⟩
  rw [hticking.sole.ends_callTimer hticking.current, if_pos hcounts]

/-- A round is a step, and further rounds start from where it has led. -/
theorem Ticking.yields_round {rounds fired : Nat} {stepped : Runner → Prop}
    {required : Nat → Runner → Prop} (hticking : Ticking program rig index runner)
    (hstep : Yields halted (step audience) runner fun _ ↦ stepped)
    (hrounds : ∀ after, stepped after →
      Yields halted (Timer.fireRounds (·.timers) (callTimer audience) rounds (fired + 1)) after
        required) :
    Yields halted (Timer.fireRounds (·.timers) (callTimer audience) (rounds + 1) fired) runner
      required := by
  have hcall : Yields halted (callTimer audience index) runner fun _ ↦ stepped :=
    hticking.ends_callTimer.mpr hstep
  exact (Timer.ends_fireRounds_of_live hticking.live_eq).mpr (hcall.bind fun _ ↦ hrounds)

/-- A step that passes is counted and told, and the session goes on ticking. -/
theorem Ticking.yields_step_of_pass (hticking : Ticking program rig index runner)
    (hpassive : audience.Passive) (hstep : rig.step = .ok next)
    (hend : next.machine.atEnd = false) :
    Yields halted (step audience) runner fun _ last ↦ Ticking program next index last ∧
      last.timers = runner.timers ∧ Brought program next
        { runner.session with
          status := none
          steps := runner.session.steps + 1
          sequence := runner.session.sequence + 1 } [.stepped] runner last := by
  obtain ⟨position, hattached, hcarries⟩ := hticking.attachedTo
  have hwiped : runner.wiped.Carries position program rig := hcarries
  refine (ends_step hattached).mpr (Yields.bind (hwiped.yields_attempt_advance hpassive hstep) ?_)
  rintro _ middle ⟨rfl, hnext, runs, output, hookCalls, hmiddle⟩
  have hcounted : Yields halted (concludeStep audience position (.ok ())) middle
      fun _ after ↦ after = middle.stepCounted := (hnext.ends_concludeStep_of_pass hend).mpr rfl
  refine hcounted.bind fun _ counted hafter ↦ ?_
  subst hafter hmiddle
  have hattended : (stepCounted { runner.wiped with runs, output, hookCalls }).Attended :=
    { hticking.toAttended with }
  refine (hattended.yields_tell hpassive .stepped).bind fun _ last hheard ↦ ?_
  obtain ⟨events, hookCalls, lines, hkinds, rfl⟩ := hheard
  refine (ends_againUnless_of_same ?_).mpr
    ⟨?_, rfl, ⟨position, hattached, hnext⟩, rfl, rfl, events, rfl, hkinds⟩
  · rfl
  · exact { hticking with
      sole := { hticking.sole with }
      attachedTo := ⟨position, hattached, hnext⟩ }

/-! ### The step that stops -/

/-- Idle, and without a live timer. -/
structure Quiet (runner : Runner) : Prop where
  idle : runner.session.speed = Speed.idle
  silent : Timer.live runner.timers = []

/-- The steps that the last step of a stretch counts for: one if it was made, none if it was a
fault. -/
def made : Except Fault Unit → Nat
  | .ok _ => 1
  | .error _ => 0

theorem made_le_one (outcome : Except Fault Unit) : made outcome ≤ 1 := by
  cases outcome with
  | ok _ => exact Nat.le_refl 1
  | error _ => exact Nat.zero_le 1

/-- The step that stops is counted if it was made, and reported by the session that turns idle. -/
theorem Ticking.yields_conclude_of_stop {outcome : Except Fault Unit} {position : Nat}
    (hticking : Ticking program rig index runner) (hpassive : audience.Passive)
    (hcarries : runner.wiped.Carries position program rig)
    (hstops : Rig.StopsAfter 0 rig outcome goal) :
    Yields (fun halt _ ↦ halt.Overflows (runner.session.steps + made outcome))
      (attempt (advance audience position) >>= concludeStep audience position) runner.wiped
      fun _ last ↦ ∃ counted : Runner, counted.Carries position program goal ∧
        (∃ runs output hookCalls, counted =
          { runner.wiped with
            session := { runner.wiped.session with steps := runner.session.steps + made outcome }
            runs, output, hookCalls }) ∧
        (counted.idledWith (runner.verdict outcome)).Heard [runner.closing outcome] last := by
  obtain ⟨_, rfl, hhow⟩ := hstops
  cases outcome with
  | error fault =>
    obtain ⟨hfault, rfl⟩ := hhow
    refine Yields.bind (hcarries.yields_attempt_advance_of_fault hfault) ?_
    rintro _ _ ⟨rfl, rfl⟩
    have hattended : runner.wiped.Attended := { hticking.toAttended with }
    refine Yields.mono (hattended.yields_conclude hpassive (.error fault) ?_) ?_
    · exact fun hlong error hrefusal ↦ ⟨hlong, error, rfl, hrefusal⟩
    · exact fun _ _ hheard ↦ ⟨runner.wiped, hcarries, ⟨_, _, _, rfl⟩, hheard⟩
  | ok _ =>
    obtain ⟨hstep, hend⟩ := hhow
    refine Yields.bind (hcarries.yields_attempt_advance hpassive hstep) ?_
    rintro _ middle ⟨rfl, hgoal, runs, output, hookCalls, hmiddle⟩
    refine (hgoal.ends_concludeStep_of_end hend).mpr ?_
    have hcarried : middle.stepCounted.Carries position program goal := hgoal
    subst hmiddle
    have hattended : (stepCounted { runner.wiped with runs, output, hookCalls }).Attended :=
      { hticking.toAttended with }
    refine Yields.mono (hattended.yields_conclude hpassive (.ok ()) ?_) ?_
    · exact fun hlong error hrefusal ↦ ⟨hlong, error, rfl, hrefusal⟩
    · exact fun _ _ hheard ↦ ⟨_, hcarried, ⟨_, _, _, rfl⟩, hheard⟩

/-- The step that stops is told after its report, and leaves the session quiet. -/
theorem Ticking.yields_step_of_stop {outcome : Except Fault Unit}
    (hticking : Ticking program rig index runner) (hpassive : audience.Passive)
    (hpatience : 0 < audience.patience) (hstops : Rig.StopsAfter 0 rig outcome goal) :
    Yields (fun halt _ ↦ halt.Overflows (runner.session.steps + made outcome))
      (step audience) runner fun _ last ↦ last.current = none ∧ last.Quiet ∧
        Brought program goal (runner.sessionClosed outcome (made outcome) 2)
          [runner.closing outcome, .stepped] runner last := by
  obtain ⟨position, hattached, hcarries⟩ := hticking.attachedTo
  obtain ⟨bound, hbound⟩ : ∃ bound, audience.patience = bound + 1 :=
    ⟨audience.patience - 1, by omega⟩
  refine (ends_step hattached).mpr ?_
  have hreported := hticking.yields_conclude_of_stop hpassive hcarries hstops
  have hwhole : Yields (fun halt _ ↦ halt.Overflows (runner.session.steps + made outcome))
      (do
        (attempt (advance audience position) >>= concludeStep audience position)
        tell audience .stepped
        againUnless runner.session.speed (rearm audience)) runner.wiped
      fun _ last ↦ last.current = none ∧ last.Quiet ∧
        Brought program goal (runner.sessionClosed outcome (made outcome) 2)
          [runner.closing outcome, .stepped] runner last := by
    refine hreported.bind fun _ reported hreport ↦ ?_
    obtain ⟨counted, hgoal, ⟨runs, output, hookCalls, hcounted⟩, hheard⟩ := hreport
    have hattended : (counted.idledWith (runner.verdict outcome)).Attended := by
      subst hcounted
      exact { hticking.toAttended with }
    refine ((hattended.of_heard hheard).yields_tell hpassive .stepped).bind fun _ told htold ↦ ?_
    obtain ⟨events, hookCalls, lines, hkinds, rfl⟩ := hheard.trans htold
    subst hcounted
    refine (ends_againUnless_of_other ?_).mpr ?_
    · exact Int.ne_of_lt hticking.stepped
    · rw [rearm, hbound]
      refine Yields.mono (Chronicled.yields_rearm_of_idle ?_ rfl bound) ?_
      · exact { hticking.toChronicled with }
      · rintro _ _ ⟨lines, rfl⟩
        have hsilent := hticking.sole.cleared.live_eq_nil rfl
        exact ⟨rfl, ⟨rfl, hsilent⟩, ⟨position, hattached, hgoal⟩, rfl, rfl, events, rfl, hkinds⟩
  rw [bind_assoc] at hwhole
  exact hwhole

/-! ### Rounds -/

/-- The session after ticks that pass. -/
def sessionTicked (runner : Runner) (rounds : Nat) : Session :=
  { runner.session with
    status := if rounds = 0 then runner.session.status else none
    steps := runner.session.steps + rounds
    sequence := runner.session.sequence + rounds }

/-- Rounds whose steps pass make one step each, tell one event for each, and leave the timer. -/
theorem Ticking.yields_rounds_of_passes {rounds : Nat}
    (hticking : Ticking program rig index runner) (hpassive : audience.Passive)
    (hpasses : Rig.Passes rounds rig goal) (fired : Nat) :
    Yields halted (Timer.fireRounds (·.timers) (callTimer audience) rounds fired) runner
      fun answer last ↦ answer = fired + rounds ∧ Ticking program goal index last ∧
        last.timers = runner.timers ∧ Brought program goal (runner.sessionTicked rounds)
          (List.replicate rounds .stepped) runner last := by
  induction rounds generalizing rig runner fired with
  | zero =>
    cases hpasses
    exact ⟨rfl, hticking, rfl, hticking.attachedTo, rfl, rfl, #[], Array.append_empty.symm, rfl⟩
  | succ rounds ih =>
    obtain ⟨next, hstep, hend, hrest⟩ := hpasses
    refine hticking.yields_round (hticking.yields_step_of_pass hpassive hstep hend) ?_
    rintro middle ⟨hticks, htimers, hbrought⟩
    refine Yields.mono (ih hticks hrest (fired + 1)) ?_
    rintro _ last ⟨rfl, hlast, hsame, hfurther⟩
    refine ⟨by omega, hlast, hsame.trans htimers, ?_⟩
    have hsession : middle.sessionTicked rounds = runner.sessionTicked (rounds + 1) := by
      simp only [sessionTicked, hbrought.session_eq, ite_self, Nat.succ_ne_zero, if_false,
        Nat.add_assoc, Nat.add_comm 1]
    exact hsession ▸ hbrought.trans hfurther

/-- What closes the session after ticks that pass closes it as a whole. -/
theorem Brought.closed_eq {rounds : Nat} {kinds : List EventKind}
    (hbrought : Brought program goal (runner.sessionTicked rounds) kinds runner last)
    (outcome : Except Fault Unit) (steps events : Nat) :
    last.sessionClosed outcome steps events =
      runner.sessionClosed outcome (rounds + steps) (rounds + events) := by
  have hverdict := (hbrought.report_eq rfl outcome).1
  simp only [sessionClosed, hverdict, hbrought.session_eq, sessionTicked, Nat.add_assoc]

/-- Rounds of which one stops the session make the steps up to there, and no more calls. -/
theorem Ticking.yields_rounds_of_stop {fewer rounds : Nat} {outcome : Except Fault Unit}
    (hticking : Ticking program rig index runner) (hpassive : audience.Passive)
    (hpatience : 0 < audience.patience) (hfewer : fewer < rounds)
    (hstops : Rig.StopsAfter fewer rig outcome goal) :
    Yields (fun halt _ ↦ halt.Overflows (runner.session.steps + fewer + made outcome))
      (fire audience rounds) runner
      fun answer last ↦ answer = fewer + 1 ∧ last.current = none ∧ last.Quiet ∧
        Brought program goal (runner.sessionClosed outcome (fewer + made outcome) (fewer + 2))
          (List.replicate fewer .stepped ++ [runner.closing outcome, .stepped]) runner last := by
  obtain ⟨rest, rfl⟩ : ∃ rest, rounds = fewer + (rest + 1) := ⟨rounds - fewer - 1, by omega⟩
  obtain ⟨before, hpasses, hhow⟩ := hstops
  rw [fire, Timer.fire, Timer.fireRounds_add]
  -- The rounds that pass, the round that stops, and those after it, which find no live timer.
  refine (hticking.yields_rounds_of_passes hpassive hpasses 0).bind ?_
  rintro _ middle ⟨rfl, hticks, -, hbrought⟩
  have hstop : Rig.StopsAfter 0 before outcome goal := ⟨before, rfl, hhow⟩
  have hclosing := (hbrought.report_eq rfl outcome).2
  have hsteps : middle.session.steps = runner.session.steps + fewer :=
    congrArg Session.steps hbrought.session_eq
  have hstep := hticks.yields_step_of_stop hpassive hpatience hstop
  rw [hbrought.closed_eq, hclosing, hsteps] at hstep
  refine hticks.yields_round hstep ?_
  rintro last ⟨hcurrent, hquiet, hlast⟩
  rw [Yields, Ends, Timer.runFrom_fireRounds_of_none hquiet.silent]
  exact ⟨by omega, hcurrent, hquiet, hbrought.trans hlast⟩

/-! ### Afterwards -/

theorem upheld_quiet : Upheld Quiet where
  noted := by
    rintro _ _ hquiet ⟨_, _, _, _, rfl⟩
    exact ⟨hquiet.idle, hquiet.silent⟩
  session _ hquiet hspeed := ⟨hspeed.elim (·.trans hquiet.idle) id, hquiet.silent⟩
  surroundings _ _ _ hquiet := ⟨hquiet.idle, hquiet.silent⟩
  context _ hquiet _ _ := ⟨hquiet.idle, hquiet.silent⟩
  changeRun _ _ hquiet _ := ⟨hquiet.idle, hquiet.silent⟩
  cancelled index hquiet := ⟨hquiet.idle, Timer.live_cancel_eq_nil hquiet.silent index⟩
  cleared := by
    intro runner hquiet
    refine ⟨hquiet.idle, ?_⟩
    simp only [cleared, disarmed]
    cases runner.current with
    | none => exact hquiet.silent
    | some index => exact Timer.live_cancel_eq_nil hquiet.silent index
  armedAt _ hquiet _ hstepped := absurd hquiet.idle (Int.ne_of_gt hstepped)
  detached hquiet := ⟨hquiet.idle, hquiet.silent⟩

/-- A quiet session stays quiet until somebody changes the speed or starts another one. -/
theorem Quiet.carryOut (hquiet : runner.Quiet) (hpassive : audience.Passive) {orders : List Order}
    (horders : ∀ order ∈ orders, order.LeavesIdle) : (carryOut audience orders runner).2.Quiet := by
  have hreact (position : Nat) : Preserves Quiet (audience.react position) :=
    keeps_react_of_passive (hpassive position) fun _ _ hquiet ↦ ⟨hquiet.idle, hquiet.silent⟩
  have hslower : Preserves Quiet (obey audience .slower) := by
    refine Keeps.bind (Keeps.get_bind fun runner hquiet ↦ ?_) fun _ ↦ Keeps.pure _
    simp only [hquiet.idle, Int.lt_irrefl, if_false]
    exact hquiet
  induction orders generalizing runner with
  | nil => exact hquiet
  | cons order later ih =>
    have hobey : Preserves Quiet (obey audience order) := by
      rcases horders order List.mem_cons_self with hsteady | rfl
      · exact upheld_quiet.preserves_obey_of_steady hreact hsteady
      · exact hslower
    exact ih (hobey runner hquiet).last fun other hother ↦
      horders other (List.mem_cons_of_mem _ hother)

/-- N ticks are N steps. In every session that is active and stepped by its timer, at whatever
moment of whatever run, a number of rounds makes one step each: all of them, or those up to the
first that ends the program or is a fault. In the first case the timer is left as it is, and so is
the speed. In the second the session is idle without a timer, and no round does anything until
somebody changes the speed or starts another session; only a line for more steps than fit into it
can come in between. -/
theorem ticks_are_steps {bench : Bench} {hooks : List Hook} {journal : Journal} {start : Runner}
    (hstart : fresh bench hooks journal = .ok start) (hbound : journal.context.Plain)
    (hhooks : 2 * (hooks.length + 2 : Int) ≤ greatestInteger)
    (hreachable : start.Reachable runner) (hactive : runner.session.active = true)
    (harmed : runner.armed = true) (hstepped : 0 < runner.session.speed)
    (hattached : runner.AttachedTo program rig) (hpassive : audience.Passive)
    (hpatience : 0 < audience.patience) (rounds : Nat) :
    let ended := runFrom (fire audience rounds) runner
    (∃ goal, Rig.Passes rounds rig goal ∧ ended.1 = .ok rounds ∧
      ended.2.current = runner.current ∧ ended.2.timers = runner.timers ∧
        Brought program goal (runner.sessionTicked rounds) (List.replicate rounds .stepped)
          runner ended.2) ∨
      ∃ fewer outcome goal, fewer < rounds ∧ Rig.StopsAfter fewer rig outcome goal ∧
        ((ended.1 = .ok (fewer + 1) ∧
            ended.2.current = none ∧ Timer.live ended.2.timers = [] ∧
            Brought program goal (runner.sessionClosed outcome (fewer + made outcome) (fewer + 2))
              (List.replicate fewer .stepped ++ [runner.closing outcome, .stepped])
              runner ended.2 ∧
            ∀ orders, (∀ order ∈ orders, order.LeavesIdle) → ∀ further,
              let later := (carryOut audience orders ended.2).2
              runFrom (fire audience further) later = (.ok 0, later)) ∨
          ∃ halt, ended.1 = .error halt ∧
            halt.Overflows (runner.session.steps + fewer + made outcome)) := by
  intro ended
  have hfounded := upheldThroughout_founded.reachable hreachable
    (founded_of_fresh hstart hbound hhooks)
  have hsole := upheldThroughout_sole.reachable hreachable (sole_of_fresh hstart)
  obtain ⟨index, hcurrent, -⟩ := hsole.exists_live harmed
  have hticking : Ticking program rig index runner :=
    ⟨hfounded.toAttended, hsole, hactive, hstepped, hcurrent, harmed, hattached⟩
  have hsound : rig.machine.Sound := by
    obtain ⟨position, -, hcarries⟩ := hattached
    exact hfounded.sound position _ hcarries.1 rig.machine rfl
  rcases Rig.passes_or_stops hsound rounds with
    ⟨goal, hpasses⟩ | ⟨fewer, hfewer, outcome, goal, hstops⟩
  · have hrounds : Yields (fun _ _ ↦ False) (fire audience rounds) runner _ :=
      hticking.yields_rounds_of_passes hpassive hpasses 0
    rcases hrounds.ended with ⟨_, hanswer, rfl, hlast, htimers, hbrought⟩ | ⟨_, _, hnever⟩
    · rw [Nat.zero_add] at hanswer
      exact .inl ⟨goal, hpasses, hanswer, hlast.current.trans hcurrent.symm, htimers, hbrought⟩
    · exact hnever.elim
  · have hrounds := hticking.yields_rounds_of_stop hpassive hpatience hfewer hstops
    refine .inr ⟨fewer, outcome, goal, hfewer, hstops, ?_⟩
    rcases hrounds.ended with
      ⟨_, hanswer, rfl, hnone, hquiet, hbrought⟩ | ⟨halt, hanswer, hoverflows⟩
    · refine .inl ⟨hanswer, hnone, hquiet.silent, hbrought, fun orders horders further ↦ ?_⟩
      exact Timer.runFrom_fireRounds_of_none (hquiet.carryOut hpassive horders).silent
    · exact .inr ⟨halt, hanswer, hoverflows⟩

/-- A program that leaves the tape with its third step ends the ticking within five rounds, and a
step by hand brings no timer back. -/
theorem ticks_are_steps_underflow :
    ∃ start runner, fresh ⟨.tape, 2, "", 0, .empty⟩ [] .initial = .ok start ∧
      start.Reachable runner ∧ runner.current = some 0 ∧
      let audience := Audience.conducted (fun _ _ ↦ .rest) 10 1
      let ended := runFrom (fire audience 5) runner
      (∃ calls ≤ 5, ended.1 = .ok calls) ∧ ended.2.current = none ∧
        let later := (carryOut audience [.step] ended.2).2
        runFrom (fire audience 3) later = (.ok 0, later) := by
  obtain ⟨start, hstart⟩ :
      ∃ start, fresh ⟨.tape, 2, "", 0, .empty⟩ [] .initial = .ok start := ⟨_, rfl⟩
  let audience := Audience.conducted (fun _ _ ↦ .rest) 10 1
  let runner := (runFrom ((Conduct.inTurn
    [.start "+><<" ⟨true, false⟩, .fire 1]).perform audience) start).2
  let rig := (Rig.stepTimes 1 ⟨.load "+><<" 2, .ofText "", .empty⟩).2
  have hticks : (decide (runner.session.active = true ∧ runner.armed = true ∧
      0 < runner.session.speed ∧ runner.session.steps = 1 ∧ runner.current = some 0 ∧
      runner.attached = some 0 ∧ runner.output = rig.output ∧
      runner.runs[0]? = some ⟨"+><<", .tape rig.machine, rig.supply⟩)) = true := by
    cases hstart
    decide +kernel
  obtain ⟨hactive, harmed, hstepped, hsteps, hcurrent, hattached, houtput, hrun⟩ :=
    of_decide_eq_true hticks
  have hreachable : start.Reachable runner := reachable_perform _ 10 1 _ start
  have hfaults : (Rig.stepTimes 5 rig).1 = some (.fault .underflow) := by decide +kernel
  refine ⟨start, runner, hstart, hreachable, hcurrent, ?_⟩
  rcases ticks_are_steps hstart Fields.plain_nil (by decide) hreachable hactive harmed hstepped
    ⟨0, hattached, hrun, houtput⟩ (passive_conducted_rest 10 0) (by decide) 5 with
    ⟨goal, hpasses, -⟩ | ⟨fewer, outcome, goal, hfewer, -, ⟨hanswer, hnone, -, -, hlater⟩ | hlong⟩
  · rw [Rig.stepTimes_of_passes hpasses] at hfaults
    cases hfaults
  · refine ⟨⟨fewer + 1, hfewer, hanswer⟩, hnone, hlater [.step] ?_ 3⟩
    simp [Order.LeavesIdle, Order.Steady]
  · obtain ⟨halt, -, hmany, -⟩ := hlong
    rw [hsteps] at hmany
    have hmade := made_le_one outcome
    unfold greatestInteger at hmany
    omega

end Runner

end TapeRunner
