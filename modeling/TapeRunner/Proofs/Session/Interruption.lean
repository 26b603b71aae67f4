import TapeRunner.Proofs.Session.Reachable

/-!
# Stops in the midst of a run

An observer of the output that stops the session takes its engine and its timer away at once, but
not from the operation in whose midst it is called. A blocking run goes on to the halt of its
program, and a step to its end, as they would have without the stop; and what is reported then is
reported of a session that has been stopped before (`Runner.stop_leaves_run`).
-/

set_option autoImplicit false
set_option relaxedAutoImplicit false

namespace TapeRunner

open Activity

/-- Observers of the output that stop the session at calls of their choice. The others rest. -/
def stopsAt (decides : Nat → Runner → Bool) (sinks : List Nat) (position : Nat)
    (runner : Runner) : Conduct :=
  if position ∈ sinks ∧ decides position runner = true then .inTurn [.stop] else .rest

namespace Runner

variable {base runner last : Runner} {audience : Audience} {made limit : Nat} {stopped : Bool}
variable {decides : Nat → Runner → Bool} {sinks : List Nat} {patience depth position : Nat}
variable {program : String} {rig next : Rig}

/-- Who watches the output alone is nobody that an event is told. -/
theorem passiveIn_stopsAt {bus : Bus Observer}
    (hapart : ∀ sink ∈ sinks, ∀ type, .hook sink ∉ bus.recipients type)
    (decides : Nat → Runner → Bool) (patience depth : Nat) :
    (Audience.conducted (stopsAt decides sinks) patience (depth + 1)).PassiveIn bus :=
  passiveIn_conducted
    (fun type position _ hmem ↦ if_neg fun hsink ↦ hapart position hsink.1 type hmem) patience depth

/-- What is heard after other events is the last of all. -/
theorem exists_append_push {before recorded : Array Event} {kinds : List EventKind}
    (hrecorded : ∃ events : Array Event, recorded = before ++ events ∧
      events.toList.map Event.kind = kinds) (event : Event) :
    ∃ events : Array Event, recorded.push event = before ++ events ∧
      events.toList.map Event.kind = kinds ++ [event.kind] := by
  obtain ⟨events, rfl, rfl⟩ := hrecorded
  exact ⟨events.push event, Array.push_append, by simp⟩

/-- An active session has made some steps since it was at the base, and nothing else has happened to
it but that it may have been stopped, which has then been told. -/
structure Meanwhile (base : Runner) (made : Nat) (stopped : Bool) (runner : Runner) : Prop
    extends runner.Attended where
  bus_eq : runner.bus = base.bus
  sinks_eq : runner.sinks = base.sinks
  bench_eq : runner.bench = base.bench
  attached_eq : runner.attached = if stopped then none else base.attached
  current_eq : stopped = true → runner.current = none
  session_eq : runner.session =
    { base.session with
      active := !stopped
      status := if stopped then none else base.session.status
      steps := base.session.steps + made
      sequence := base.session.sequence + stopped.toNat }
  recorded : ∃ events : Array Event, runner.recorded = base.recorded ++ events ∧
    events.toList.map Event.kind = if stopped then [.stopped] else []

/-- At the base, nothing has happened. -/
theorem Attended.meanwhile (hattended : base.Attended) (hactive : base.session.active = true) :
    Meanwhile base 0 false base := by
  refine { hattended with
    bus_eq := rfl
    sinks_eq := rfl
    bench_eq := rfl
    attached_eq := rfl
    current_eq := nofun
    session_eq := ?_
    recorded := ⟨#[], Array.append_empty.symm, rfl⟩ }
  change base.session = { base.session with active := true }
  rw [← hactive]

namespace Meanwhile

/-- A stop is told, and takes away the engine and the timer, but no run and no output. -/
theorem yields_stop (hmeanwhile : Meanwhile base made stopped runner)
    (hpassive : audience.PassiveIn base.bus) (hsteps : base.session.steps + made ≤ limit) :
    Yields (fun halt _ ↦ halt.Overflows limit) (stop audience) runner fun _ last ↦
      Meanwhile base made true last ∧ last.runs = runner.runs ∧ last.output = runner.output := by
  cases stopped with
  | true =>
    have hinactive : runner.session.active = false := by
      rw [hmeanwhile.session_eq]
      rfl
    exact (ends_stop_of_inactive hinactive).mpr ⟨hmeanwhile, rfl, rfl⟩
  | false =>
    have hactive : runner.session.active = true := by
      rw [hmeanwhile.session_eq]
      rfl
    have hcount : runner.session.steps = base.session.steps + made := by
      rw [hmeanwhile.session_eq]
    refine Yields.mono (hmeanwhile.yields_stopped (hmeanwhile.bus_eq ▸ hpassive) hactive ?_) ?_
    · intro hlong error hrefusal _
      refine ⟨?_, error, rfl, hrefusal⟩
      omega
    · rintro _ _ ⟨hookCalls, lines, rfl⟩
      refine ⟨{ hmeanwhile with
        bound := Fields.plain_nil
        attached_eq := rfl
        current_eq := fun _ ↦ rfl
        session_eq := ?_
        recorded := ?_ }, rfl, rfl⟩
      · change { runner.session with
          active := false, status := none, sequence := runner.session.sequence + 1 } = _
        rw [hmeanwhile.session_eq]
        rfl
      · exact exists_append_push hmeanwhile.recorded (runner.ended.counted.eventOf .stopped)

/-- Whether observers of the output stop the session or not, they leave the runs and the output. -/
theorem yields_react (hmeanwhile : Meanwhile base made stopped runner)
    (hapart : ∀ sink ∈ sinks, ∀ type, .hook sink ∉ base.bus.recipients type)
    (hsteps : base.session.steps + made ≤ limit) (position : Nat) :
    Yields (fun halt _ ↦ halt.Overflows limit)
      ((Audience.conducted (stopsAt decides sinks) patience (depth + 2)).react position) runner
      fun _ last ↦ (∃ stopped, Meanwhile base made stopped last) ∧ last.runs = runner.runs ∧
        last.output = runner.output := by
  have hcalled : Meanwhile base made stopped (runner.calledAt position) := { hmeanwhile with }
  refine ends_react_conducted.mpr ?_
  unfold stopsAt
  split
  · have hstop := hcalled.yields_stop (passiveIn_stopsAt hapart decides patience depth) hsteps
    refine yields_perform_single (hstop.bind fun _ last hlast ↦ ?_) ?_
    · exact ⟨⟨true, hlast.1⟩, hlast.2⟩
    · rintro error last ⟨-, _, ⟨⟩, hrefusal⟩
      exact hrefusal
  · exact ⟨⟨stopped, hcalled⟩, rfl, rfl⟩

/-- A step is made, whether the session is stopped in its midst or not. -/
theorem yields_advance (hmeanwhile : Meanwhile base made stopped runner)
    (hapart : ∀ sink ∈ sinks, ∀ type, .hook sink ∉ base.bus.recipients type)
    (hsteps : base.session.steps + made ≤ limit) (hcarries : runner.Carries position program rig)
    (hstep : rig.step = .ok next) :
    Yields (fun halt _ ↦ halt.Overflows limit)
      (advance (.conducted (stopsAt decides sinks) patience (depth + 2)) position) runner
      fun _ last ↦ last.Carries position program next ∧
        ∃ stopped, Meanwhile base made stopped last := by
  refine hcarries.yields_advance_of_react hstep ⟨stopped, hmeanwhile⟩ ?_ fun sink _ runs output ↦ ?_
  · rintro middle runs output ⟨stopped, hmiddle⟩
    exact ⟨stopped, { hmiddle with }⟩
  · rintro middle ⟨⟨stopped, hmiddle⟩, hruns, houtput⟩
    refine Yields.mono (hmiddle.yields_react hapart hsteps sink) ?_
    rintro _ last ⟨hlast, hsame, hwritten⟩
    exact ⟨hlast, hsame.trans hruns, hwritten.trans houtput⟩

theorem stepCounted (hmeanwhile : Meanwhile base made stopped runner) :
    Meanwhile base (made + 1) stopped runner.stepCounted := by
  refine { hmeanwhile with session_eq := ?_ }
  rw [Runner.stepCounted, hmeanwhile.session_eq]
  rfl

/-- The loop of a blocking run goes on to the halt of the program, whether the session is stopped in
its midst or not. -/
theorem yields_attempt_blockingSteps {count : Nat} {fault? : Option Fault} {goal : Rig}
    (hmeanwhile : Meanwhile base 0 stopped runner)
    (hapart : ∀ sink ∈ sinks, ∀ type, .hook sink ∉ base.bus.recipients type)
    (hspeed : base.session.speed = Speed.blocking) (hcarries : runner.Carries position program rig)
    (hhalts : rig.Halts count fault? goal) (hpatience : count < patience) :
    let audience := Audience.conducted (stopsAt decides sinks) patience (depth + 2)
    Yields (fun halt _ ↦ halt.Overflows (base.session.steps + count))
      (attempt (blockingSteps audience position patience)) runner fun outcome last ↦
        outcome = outcomeOf fault? ∧ last.Carries position program goal ∧
          ∃ stopped, Meanwhile base count stopped last := by
  intro audience
  let inv (made : Nat) (last : Runner) : Prop := ∃ stopped, Meanwhile base made stopped last
  have hloop : Yields (fun halt _ ↦ halt.Overflows (base.session.steps + count))
      (attempt (blockingSteps audience position patience)) runner fun outcome last ↦
        outcome = outcomeOf fault? ∧ last.Carries position program goal ∧ inv (0 + count) last := by
    refine Carries.yields_attempt_blockingSteps_of_advance
      (fun fault _ ↦ Halt.not_overflows_fault fault) ?_ hcarries ⟨stopped, hmeanwhile⟩ hhalts
        hpatience ?_
    · rintro made last ⟨_, hlast⟩
      rw [hlast.session_eq]
      exact hspeed
    · rintro made last rig next hmade ⟨_, hlast⟩ hcarried hstep
      refine Yields.mono (hlast.yields_advance hapart (by omega) hcarried hstep) ?_
      rintro _ after ⟨hnext, _, hafter⟩
      exact ⟨hnext, _, hafter.stepCounted⟩
  rwa [Nat.zero_add] at hloop

end Meanwhile

/-! ### What is reported all the same -/

/-- An operation on the attached run at a position has come to where a rig stands, made of the
session what it would have made of it anyway, and told events of these kinds in turn. A stop in its
midst has been told before, and makes no difference but that the session is not active and without
its engine and its timer. -/
structure Outlasted (position : Nat) (program : String) (goal : Rig) (session : Session)
    (kinds : List EventKind) (stopped : Bool) (runner last : Runner) : Prop
    extends last.Attended where
  bus_eq : last.bus = runner.bus
  carries : last.Carries position program goal
  attached_eq : last.attached = if stopped then none else some position
  current_eq : stopped = true → last.current = none
  session_eq : last.session =
    { session with active := !stopped, sequence := session.sequence + stopped.toNat }
  recorded : ∃ events : Array Event, last.recorded = runner.recorded ++ events ∧
    events.toList.map Event.kind = (if stopped then [.stopped] else []) ++ kinds

variable {goal : Rig} {session : Session} {kinds : List EventKind}

/-- Steps that nothing is said about yet. -/
theorem Meanwhile.outlasted (hmeanwhile : Meanwhile base made stopped runner)
    (hattached : base.attached = some position) (hcarries : runner.Carries position program goal)
    (hstatus : base.session.status = none) :
    Outlasted position program goal { base.session with steps := base.session.steps + made } []
      stopped base runner := by
  refine { hmeanwhile with
    carries := hcarries
    attached_eq := ?_
    session_eq := ?_
    recorded := ?_ }
  · rw [hmeanwhile.attached_eq, hattached]
  · rw [hmeanwhile.session_eq, hstatus]
    cases stopped <;> rfl
  · rw [List.append_nil]
    exact hmeanwhile.recorded

/-- The end of a stretch is reported. -/
theorem Meanwhile.yields_conclude (hmeanwhile : Meanwhile base made stopped runner)
    (hattached : base.attached = some position) (hcarries : runner.Carries position program goal)
    (hpassive : audience.PassiveIn base.bus) (outcome : Except Fault Unit)
    (hsteps : base.session.steps + made ≤ limit) :
    Yields (fun halt _ ↦ halt.Overflows limit) (conclude audience outcome) runner fun _ last ↦
      Outlasted position program goal (base.sessionClosed outcome made 1) [base.closing outcome]
        stopped base last := by
  have hcount : runner.session.steps = base.session.steps + made := by
    rw [hmeanwhile.session_eq]
  have helapsed : runner.elapsed = base.elapsed := by
    rw [elapsed, elapsed, hmeanwhile.bench_eq, hmeanwhile.session_eq]
  have hreport : runner.verdict outcome = base.verdict outcome ∧
      runner.closing outcome = base.closing outcome := by
    cases outcome <;> simp only [verdict, closing, helapsed, and_self]
  refine Yields.mono (hmeanwhile.yields_concluded (hmeanwhile.bus_eq ▸ hpassive) outcome ?_) ?_
  · exact fun hlong error hrefusal ↦ ⟨by omega, error, rfl, hrefusal⟩
  rintro _ _ ⟨hookCalls, lines, rfl⟩
  refine { hmeanwhile with
    carries := hcarries
    attached_eq := hattached ▸ hmeanwhile.attached_eq
    session_eq := ?_
    recorded := ?_ }
  · change { runner.session with
      speed := Speed.idle
      status := some (runner.verdict outcome)
      sequence := runner.session.sequence + 1 } = _
    rw [hreport.1, hmeanwhile.session_eq]
    cases stopped <;> rfl
  · rw [← hreport.2]
    exact exists_append_push hmeanwhile.recorded
      ((runner.idledWith (runner.verdict outcome)).counted.eventOf (runner.closing outcome))

namespace Outlasted

/-- A further event is told. -/
theorem yields_tell (houtlasted : Outlasted position program goal session kinds stopped base runner)
    (hpassive : audience.PassiveIn base.bus) (kind : EventKind) {halted : Halt → Runner → Prop} :
    Yields halted (tell audience kind) runner fun _ last ↦ Outlasted position program goal
      { session with sequence := session.sequence + 1 } (kinds ++ [kind]) stopped base last := by
  refine Yields.mono (houtlasted.yields_told (houtlasted.bus_eq ▸ hpassive) kind) ?_
  rintro _ _ ⟨hookCalls, lines, rfl⟩
  refine { houtlasted with session_eq := ?_, recorded := ?_ }
  · change { runner.session with sequence := runner.session.sequence + 1 } = _
    rw [houtlasted.session_eq]
    cases stopped <;> rfl
  · rw [← List.append_assoc]
    exact exists_append_push houtlasted.recorded (runner.counted.eventOf kind)

/-- Rearming an idle session makes no difference. -/
theorem yields_again
    (houtlasted : Outlasted position program goal session kinds stopped base runner)
    (hpatience : 0 < audience.patience) (speed : Int)
    (hidle : session.speed ≠ speed → session.speed = Speed.idle) {halted : Halt → Runner → Prop} :
    Yields halted (againUnless speed (rearm audience)) runner fun _ last ↦
      Outlasted position program goal session kinds stopped base last := by
  obtain ⟨bound, hbound⟩ : ∃ bound, audience.patience = bound + 1 :=
    ⟨audience.patience - 1, by omega⟩
  have hspeed : runner.session.speed = session.speed := by rw [houtlasted.session_eq]
  by_cases hsame : session.speed = speed
  · exact (ends_againUnless_of_same (hspeed.trans hsame)).mpr houtlasted
  · refine (ends_againUnless_of_other (hspeed ▸ hsame)).mpr ?_
    rw [rearm, hbound]
    refine Yields.mono (houtlasted.yields_rearm_of_idle (hspeed.trans (hidle hsame)) bound) ?_
    rintro _ _ ⟨lines, rfl⟩
    exact { houtlasted with current_eq := fun _ ↦ rfl }

end Outlasted

/-! ### Steps and blocking runs -/

/-- The session after a step that was made, and reported if it came to the end. -/
def sessionStepped (runner : Runner) (atEnd : Bool) : Session :=
  if atEnd then runner.sessionClosed (.ok ()) 1 2
  else
    { runner.session with
      status := none
      steps := runner.session.steps + 1
      sequence := runner.session.sequence + 1 }

/-- What is told of a step that was made. -/
def stepKinds (runner : Runner) (atEnd : Bool) : List EventKind :=
  (if atEnd then [runner.closing (.ok ())] else []) ++ [.stepped]

section Interrupted

variable {count : Nat} {fault? : Option Fault}
variable (hattended : runner.Attended) (hactive : runner.session.active = true)
variable (hapart : ∀ sink ∈ sinks, ∀ type, .hook sink ∉ runner.bus.recipients type)
variable (hattached : runner.attached = some position)
variable (hcarries : runner.Carries position program rig)
include hattended hactive hapart hattached hcarries

/-- A step in whose midst the session may be stopped is made, reported and told all the same. -/
theorem yields_step_outlasted (hstep : rig.step = .ok next) (hpatience : 0 < patience) :
    Yields (fun halt _ ↦ halt.Overflows (runner.session.steps + 1))
      (step (.conducted (stopsAt decides sinks) patience (depth + 2))) runner fun _ last ↦
        ∃ stopped, Outlasted position program next (runner.sessionStepped next.machine.atEnd)
          (runner.stepKinds next.machine.atEnd) stopped runner last := by
  let audience := Audience.conducted (stopsAt decides sinks) patience (depth + 2)
  have hpassive : audience.PassiveIn runner.bus :=
    passiveIn_stopsAt hapart decides patience (depth + 1)
  have hwiped : runner.wiped.Attended := { hattended with }
  have hadvance : Yields (fun halt _ ↦ halt.Overflows (runner.session.steps + 1))
      (advance audience position) runner.wiped _ :=
    (hwiped.meanwhile hactive).yields_advance hapart (Nat.le_succ _) hcarries hstep
  refine (ends_step hattached).mpr
    (Yields.bind (hadvance.attempt_ok fun fault _ ↦ Halt.not_overflows_fault fault) ?_)
  rintro _ middle ⟨_, rfl, hnext, stopped, hmiddle⟩
  have hcounted := hmiddle.stepCounted
  -- What comes after the report is the same, whether there was one or not.
  have htold (session : Session) (kinds : List EventKind) (reported : Runner)
      (hreported : Outlasted position program next session kinds stopped runner.wiped reported)
      (hidle : session.speed ≠ runner.session.speed → session.speed = Speed.idle) :
      Yields (fun halt _ ↦ halt.Overflows (runner.session.steps + 1)) (do
        tell audience .stepped
        againUnless runner.session.speed (rearm audience)) reported fun _ last ↦
          ∃ stopped, Outlasted position program next
            { session with sequence := session.sequence + 1 } (kinds ++ [.stepped]) stopped runner
            last := by
    refine (hreported.yields_tell hpassive .stepped).bind fun _ told htold ↦ ?_
    refine Yields.mono (htold.yields_again hpatience _ hidle) fun _ last hlast ↦ ?_
    exact ⟨stopped, { hlast with }⟩
  cases hend : next.machine.atEnd with
  | false =>
    refine (ends_bind _ _).mpr ((hnext.ends_concludeStep_of_pass hend).mpr ?_)
    exact htold _ [] _ (hcounted.outlasted hattached hnext rfl) fun hother ↦ absurd rfl hother
  | true =>
    have hreport : Yields (fun halt _ ↦ halt.Overflows (runner.session.steps + 1))
        (concludeStep audience position (.ok ())) middle _ :=
      (hnext.ends_concludeStep_of_end hend).mpr
        (hcounted.yields_conclude hattached hnext hpassive (.ok ()) (Nat.le_refl _))
    exact hreport.bind fun _ reported hreported ↦ htold _ _ _ hreported fun _ ↦ rfl

/-- A blocking run in whose midst the session may be stopped goes on to the halt of the program, and
is reported all the same. -/
theorem yields_runBlocking_outlasted (hspeed : runner.session.speed = Speed.blocking)
    (hhalts : rig.Halts count fault? goal) (hpatience : count < patience) :
    Yields (fun halt _ ↦ halt.Overflows (runner.session.steps + count))
      (runBlocking (.conducted (stopsAt decides sinks) patience (depth + 2))) runner fun _ last ↦
        ∃ stopped, Outlasted position program goal
          (runner.sessionClosed (outcomeOf fault?) count 1) [runner.closing (outcomeOf fault?)]
          stopped runner last := by
  let audience := Audience.conducted (stopsAt decides sinks) patience (depth + 2)
  have hpassive : audience.PassiveIn runner.bus :=
    passiveIn_stopsAt hapart decides patience (depth + 1)
  rw [Yields, runBlocking, ends_bind, ends_requireRun, hattached]
  simp only
  rw [blockingRun_eq, ends_bind, ends_get]
  refine Yields.bind (writes_of_plain hattended.bound
    (plain_nameField runner Fields.plain_nil) .info "session.blocking_run") ?_
  rintro _ _ ⟨lines, rfl⟩
  have hbegun : Meanwhile runner 0 false (runner.withLines lines) :=
    { hattended.meanwhile hactive with }
  have hlogged : (runner.withLines lines).Carries position program rig := hcarries
  refine Yields.bind
    (hbegun.yields_attempt_blockingSteps hapart hspeed hlogged hhalts hpatience) ?_
  rintro _ middle ⟨rfl, hgoal, stopped, hmiddle⟩
  have hconcluded := hmiddle.yields_conclude hattached hgoal hpassive (outcomeOf fault?)
    (Nat.le_refl _)
  refine hconcluded.bind fun _ reported hreported ↦ ?_
  refine Yields.mono (hreported.yields_again (Nat.zero_lt_of_lt hpatience)
    runner.session.speed fun _ ↦ rfl) ?_
  exact fun _ last hlast ↦ ⟨stopped, hlast⟩

end Interrupted

/-- A stop does not end what is going on. At whatever moment of whatever run an active session is
stepped or run to the end, and its observers of the output stop it in the midst of an instruction,
the instruction is followed by all that follows it anyway: in a step, by its report and the event
about it; in a blocking run, by all further instructions up to the halt of the program, with all
that they write, and by the report of the end, whose verdict the stopped session keeps. Only a line
for more steps than fit into it can come in between. -/
theorem stop_leaves_run {bench : Bench} {hooks : List Hook} {journal : Journal} {start : Runner}
    (hstart : fresh bench hooks journal = .ok start) (hbound : journal.context.Plain)
    (hhooks : 2 * (hooks.length + 2 : Int) ≤ greatestInteger)
    (hreachable : start.Reachable runner) (hactive : runner.session.active = true)
    (hattached : runner.attached = some position) (hcarries : runner.Carries position program rig)
    (decides : Nat → Runner → Bool) (depth : Nat) (hpatience : 0 < patience) :
    let audience := Audience.conducted (stopsAt decides runner.sinks) patience (depth + 2)
    (∀ next, rig.step = .ok next →
      let ended := runFrom (step audience) runner
      (ended.1 = .ok () ∧ ∃ stopped, Outlasted position program next
          (runner.sessionStepped next.machine.atEnd) (runner.stepKinds next.machine.atEnd) stopped
          runner ended.2) ∨
        ∃ halt, ended.1 = .error halt ∧ halt.Overflows (runner.session.steps + 1)) ∧
    ∀ count fault? goal, runner.session.speed = Speed.blocking → rig.Halts count fault? goal →
      count < patience →
      let ended := runFrom (runBlocking audience) runner
      (ended.1 = .ok () ∧ ∃ stopped, Outlasted position program goal
          (runner.sessionClosed (outcomeOf fault?) count 1) [runner.closing (outcomeOf fault?)]
          stopped runner ended.2) ∨
        ∃ halt, ended.1 = .error halt ∧ halt.Overflows (runner.session.steps + count) := by
  have hfounded := upheldThroughout_founded.reachable hreachable
    (founded_of_fresh hstart hbound hhooks)
  have hapart := apart_of_reachable hstart hreachable
  intro audience
  constructor
  · intro next hstep ended
    rcases (yields_step_outlasted hfounded.toAttended hactive hapart hattached hcarries hstep
      hpatience).ended with ⟨_, hanswer, hlast⟩ | ⟨halt, hanswer, hoverflows⟩
    · exact .inl ⟨hanswer, hlast⟩
    · exact .inr ⟨halt, hanswer, hoverflows⟩
  · intro count fault? goal hspeed hhalts henough ended
    rcases (yields_runBlocking_outlasted hfounded.toAttended hactive hapart hattached hcarries
      hspeed hhalts henough).ended with ⟨_, hanswer, hlast⟩ | ⟨halt, hanswer, hoverflows⟩
    · exact .inl ⟨hanswer, hlast⟩
    · exact .inr ⟨halt, hanswer, hoverflows⟩

/-- A session that is to run to the end is stopped at its first byte. It writes the second one,
counts both steps, and is then reported as finished. -/
theorem stop_leaves_run_writing :
    ∃ start runner rig goal, fresh ⟨.tape, 2, "", 0, .empty⟩
        [⟨.output, [], []⟩, ⟨.event "session.started", [], []⟩] .initial = .ok start ∧
      start.Reachable runner ∧ runner.Carries 0 ".." rig ∧ rig.Halts 2 none goal ∧
      let ended := runFrom (runBlocking (.conducted (stopsAt (fun _ _ ↦ true) runner.sinks) 10 2))
        runner
      ended.1 = .ok () ∧ ended.2.output.bytes.size = 2 ∧
        Outlasted 0 ".." goal (runner.sessionClosed (.ok ()) 2 1) [runner.closing (.ok ())] true
          runner ended.2 := by
  let hooks : List Hook := [⟨.output, [], []⟩, ⟨.event "session.started", [], []⟩]
  obtain ⟨start, hstart⟩ : ∃ start, fresh ⟨.tape, 2, "", 0, .empty⟩ hooks .initial = .ok start :=
    ⟨_, rfl⟩
  -- The run is cut off when the start is told, before the blocking run.
  let cast : Cast := ⟨fun _ _ ↦ .rest, 10, 1, .inTurn [.start ".." ⟨true, true⟩]⟩
  let runner := cast.moment start fun _ ↦ true
  let rig : Rig := ⟨.load ".." 2, .ofText "", .empty⟩
  have hbefore : (decide (runner.session.active = true ∧ runner.session.speed = Speed.blocking ∧
      runner.session.steps = 0 ∧ runner.attached = some 0 ∧ runner.output = rig.output ∧
      runner.runs[0]? = some ⟨"..", .tape rig.machine, rig.supply⟩)) = true := by
    cases hstart
    decide +kernel
  obtain ⟨hactive, hspeed, hsteps, hattached, houtput, hrun⟩ := of_decide_eq_true hbefore
  have hhalts : rig.Halts 2 none (Rig.stepTimes 2 rig).2 :=
    ⟨Prod.ext (by decide +kernel) rfl, by decide +kernel⟩
  have hreachable : start.Reachable runner := ⟨cast, _, rfl⟩
  let ended := runFrom (runBlocking
    (.conducted (stopsAt (fun _ _ ↦ true) runner.sinks) 10 2)) runner
  have hafter : (decide (ended.2.session.active = false ∧
      ended.2.output.bytes.size = 2)) = true := by
    cases hstart
    decide +kernel
  obtain ⟨hinactive, hbytes⟩ := of_decide_eq_true hafter
  refine ⟨start, runner, rig, _, hstart, hreachable, ⟨hrun, houtput⟩, hhalts, ?_⟩
  rcases (stop_leaves_run hstart Fields.plain_nil (by decide) hreachable hactive hattached
    ⟨hrun, houtput⟩ (fun _ _ ↦ true) 0 (by decide : 0 < 10)).2 2 none _ hspeed hhalts
      (by decide) with ⟨hanswer, stopped, hlast⟩ | ⟨halt, -, hmany, -⟩
  · obtain rfl : stopped = true := by
      have hsame := hlast.session_eq ▸ hinactive
      simpa using hsame
    exact ⟨hanswer, hbytes, hlast⟩
  · rw [hsteps] at hmany
    exact absurd hmany (by decide)

end Runner

end TapeRunner
