import TapeRunner.Proofs.Session.Generations

/-!
# A blocking run is exact and silent

Before observers that only listen, a session that is turned to the blocking speed makes the steps up
to the halt of its program and no more, and tells of nothing but the change of speed and the end of
the run (`Runner.blocking_run_exact`). The run itself counts the steps and tells of its end only
(`Runner.Attended.yields_blockingRun`). What comes before it is a line that holds the speed so far,
and a speed from outside of the limits may be too large for that (`Runner.blocking_run_refused`).
-/

set_option autoImplicit false
set_option relaxedAutoImplicit false

namespace TapeRunner

open Activity

namespace Runner

variable {runner : Runner} {audience : Audience} {program : String} {rig goal : Rig}
variable {position count : Nat} {fault? : Option Fault}

/-- A blocking run makes the steps up to the halt, tells of nothing but its end, and leaves the
session idle and without a timer. -/
theorem Attended.yields_blockingRun (hattended : runner.Attended) (hpassive : audience.Passive)
    (hattached : runner.attached = some position) (hcarries : runner.Carries position program rig)
    (hspeed : runner.session.speed = Speed.blocking) (hhalts : rig.Halts count fault? goal)
    (hpatience : count < audience.patience) (bound : Nat) :
    Yields (fun halt _ ↦ halt.Overflows (runner.session.steps + count))
      (blockingRun audience (rearmWithin audience (bound + 1)) position) runner
      fun _ last ↦ last.current = none ∧
        Brought program goal (runner.sessionClosed (outcomeOf fault?) count 1)
          [runner.closing (outcomeOf fault?)] runner last := by
  rw [Yields, blockingRun_eq, ends_bind, ends_get]
  have hplain := plain_nameField runner Fields.plain_nil
  refine Yields.bind (writes_of_plain hattended.bound hplain .info "session.blocking_run") ?_
  rintro _ _ ⟨lines, rfl⟩
  have hwritten : (runner.withLines lines).Carries position program rig := hcarries
  refine Yields.bind
    (hwritten.yields_attempt_blockingSteps hpassive hspeed hhalts hpatience) ?_
  rintro _ counted ⟨rfl, hgoal, runs, output, hookCalls, rfl⟩
  have hcounted : Attended
      { runner.withLines lines with
        session := { runner.session with steps := runner.session.steps + count }
        runs, output, hookCalls } :=
    { hattended with }
  refine Yields.bind (hcounted.yields_conclude hpassive (outcomeOf fault?) ?_) ?_
  · exact fun hlong error hrefusal ↦ ⟨hlong, error, rfl, hrefusal⟩
  rintro _ _ ⟨events, hookCalls, lines, hkinds, rfl⟩
  refine (ends_againUnless_of_other ?_).mpr ?_
  · change Speed.idle ≠ runner.session.speed
    rw [hspeed]
    decide
  · refine Yields.mono (Chronicled.yields_rearm_of_idle ?_ rfl bound) ?_
    · exact { hattended.toChronicled with }
    · rintro _ _ ⟨lines, rfl⟩
      exact ⟨rfl, ⟨position, hattached, hgoal⟩, rfl, rfl, events, rfl, hkinds⟩

/-- The line about the change to the blocking speed is written if it can hold the speed before. -/
theorem Attended.writes_blocking {halted : Halt → Runner → Prop} (hattended : runner.Attended)
    (hleast : 0 ≤ runner.session.speed) (hgreatest : runner.session.speed ≤ greatestInteger) :
    (runner.withSpeed Speed.blocking).Writes halted
      [("previous_speed", .whole runner.session.speed), ("speed", .whole Speed.blocking)] := by
  have hprevious : (Value.whole runner.session.speed).Simple := by
    refine ⟨?_, hgreatest⟩
    unfold leastInteger
    omega
  have hspeed := Value.simple_speed (Int.le_refl Speed.blocking) (by decide)
  exact writes_of_plain hattended.bound <| Fields.plain_cons (by decide) hprevious <|
    Fields.plain_cons (by decide) hspeed Fields.plain_nil

/-- To turn to the blocking speed is to tell so, to disarm and to make a blocking run. -/
theorem Attended.yields_superSpeed (hattended : runner.Attended) (hpassive : audience.Passive)
    (hactive : runner.session.active = true) (hleast : 0 ≤ runner.session.speed)
    (hgreatest : runner.session.speed ≤ greatestInteger)
    (hattachedTo : runner.AttachedTo program rig) (hhalts : rig.Halts count fault? goal)
    (hpatience : count + 1 < audience.patience) :
    Yields (fun halt _ ↦ halt.Overflows (runner.session.steps + count)) (superSpeed audience) runner
      fun _ last ↦ last.current = none ∧
        Brought program goal (runner.sessionClosed (outcomeOf fault?) count 2)
          [.speedChanged runner.session.speed, runner.closing (outcomeOf fault?)] runner last := by
  obtain ⟨position, hattached, hcarries⟩ := hattachedTo
  obtain ⟨bound, hbound⟩ : ∃ bound, audience.patience = bound + 1 + 1 :=
    ⟨audience.patience - 2, by omega⟩
  have hother : Speed.blocking ≠ runner.session.speed := by
    unfold Speed.blocking
    omega
  refine (ends_setSpeed_of_other hother).mpr ?_
  refine Yields.bind (hattended.writes_blocking hleast hgreatest .info "session.speed_changed") ?_
  rintro _ written ⟨lines, hwritten⟩
  have hturned : written.Attended := hwritten ▸ { hattended with }
  have hstill : written.session.active = true := hwritten ▸ hactive
  refine Yields.bind ((ends_tellChange_of_active hstill).mpr (hturned.yields_tell hpassive _)) ?_
  rintro _ _ ⟨events, hookCalls, lines, hkinds, rfl⟩
  -- One bound is for this rearming, and the other for the one after the blocking run.
  rw [rearm, hbound, rearmWithin_succ]
  subst hwritten
  refine Yields.bind (yields_clear (writes_of_plain hattended.bound Fields.plain_nil)) ?_
  rintro _ middle ⟨lines, hmiddle⟩
  have hbrought : Brought program rig
      { runner.session with speed := Speed.blocking, sequence := runner.session.sequence + 1 }
      [.speedChanged runner.session.speed] runner middle := by
    subst hmiddle
    exact ⟨⟨position, hattached, hcarries⟩, rfl, rfl, events, rfl, hkinds⟩
  obtain ⟨hcleared, hplace, hcarried, hrunning, hspeed, hsteps⟩ :
      middle.Attended ∧ middle.attached = some position ∧ middle.Carries position program rig ∧
        middle.session.active = true ∧ middle.session.speed = Speed.blocking ∧
        middle.session.steps = runner.session.steps := by
    subst hmiddle
    exact ⟨{ hattended with }, hattached, hcarries, hactive, rfl, rfl⟩
  have hrun := hcleared.yields_blockingRun hpassive hplace hcarried hspeed hhalts (by omega) bound
  obtain ⟨hverdict, hclosing⟩ := hbrought.report_eq rfl (outcomeOf fault?)
  have hclosed : middle.sessionClosed (outcomeOf fault?) count 1 =
      runner.sessionClosed (outcomeOf fault?) count 2 := by
    simp only [sessionClosed, hverdict, hbrought.session_eq]
  rw [hclosed, hclosing, hsteps] at hrun
  refine (ends_engage_of_blocking hrunning hplace (hspeed ▸ by decide)).mpr (Yields.mono hrun ?_)
  rintro _ last ⟨hnone, hlast⟩
  exact ⟨hnone, hbrought.trans hlast⟩

/-- A blocking run is exact and silent. At whatever moment of whatever run a session is turned to
the blocking speed, being active, attached, and idle or stepped at a speed that fits into a line, it
makes the steps up to the halt of its rig, tells of the change and of the end and of nothing else,
and is then idle, without a timer, where the rig halts. Only a line for more steps than fit into it
can come in between. -/
theorem blocking_run_exact {bench : Bench} {hooks : List Hook} {journal : Journal} {start : Runner}
    (hstart : fresh bench hooks journal = .ok start) (hbound : journal.context.Plain)
    (hhooks : 2 * (hooks.length + 2 : Int) ≤ greatestInteger)
    (hreachable : start.Reachable runner) (hactive : runner.session.active = true)
    (hleast : 0 ≤ runner.session.speed) (hgreatest : runner.session.speed ≤ greatestInteger)
    (hattached : runner.AttachedTo program rig) (hhalts : rig.Halts count fault? goal)
    (hpassive : audience.Passive) (hpatience : count + 1 < audience.patience) :
    let ended := runFrom (superSpeed audience) runner
    (ended.1 = .ok () ∧ ended.2.current = none ∧ Timer.live ended.2.timers = [] ∧
        Brought program goal (runner.sessionClosed (outcomeOf fault?) count 2)
          [.speedChanged runner.session.speed, runner.closing (outcomeOf fault?)]
          runner ended.2) ∨
      ∃ halt, ended.1 = .error halt ∧ halt.Overflows (runner.session.steps + count) := by
  intro ended
  have hfounded := upheldThroughout_founded.reachable hreachable
    (founded_of_fresh hstart hbound hhooks)
  have hsole := upheldThroughout_sole.reachable hreachable (sole_of_fresh hstart)
  have hreact (position : Nat) : Preserves Sole (audience.react position) :=
    keeps_react_of_passive (hpassive position) fun _ _ hsole ↦ { hsole with }
  have hstays : Preserves Sole (superSpeed audience) :=
    upheldThroughout_sole.preserves_setSpeed hreact fun _ hsole ↦ { hsole with }
  have hlast : ended.2.Sole := (hstays runner hsole).last
  have hrun := hfounded.yields_superSpeed hpassive hactive hleast hgreatest hattached hhalts
    hpatience
  rcases hrun.ended with ⟨_, hanswer, hnone, hbrought⟩ | ⟨halt, hanswer, hoverflows⟩
  · exact .inl ⟨hanswer, hnone, hlast.live_eq_nil hnone, hbrought⟩
  · exact .inr ⟨halt, hanswer, hoverflows⟩

/-- A session that has ticked once is turned to the blocking speed and makes two steps more, up to
the one that leaves the tape. -/
theorem blocking_run_exact_underflow :
    ∃ start runner, fresh ⟨.tape, 2, "", 0, .empty⟩ [] .initial = .ok start ∧
      start.Reachable runner ∧ runner.session.speed = Speed.top ∧
      let ended := runFrom (superSpeed (.conducted (fun _ _ ↦ .rest) 10 1)) runner
      ended.1 = .ok () ∧ Timer.live ended.2.timers = [] ∧
        ended.2.session = runner.sessionClosed (.error .underflow) 2 2 := by
  obtain ⟨start, hstart⟩ :
      ∃ start, fresh ⟨.tape, 2, "", 0, .empty⟩ [] .initial = .ok start := ⟨_, rfl⟩
  let audience := Audience.conducted (fun _ _ ↦ .rest) 10 1
  let runner := (runFrom ((Conduct.inTurn
    [.start "+><<" ⟨true, false⟩, .fire 1]).perform audience) start).2
  let rig := (Rig.stepTimes 1 ⟨.load "+><<" 2, .ofText "", .empty⟩).2
  have hticks : (decide (runner.session.active = true ∧ runner.session.speed = Speed.top ∧
      runner.session.steps = 1 ∧ runner.attached = some 0 ∧ runner.output = rig.output ∧
      runner.runs[0]? = some ⟨"+><<", .tape rig.machine, rig.supply⟩)) = true := by
    cases hstart
    decide +kernel
  obtain ⟨hactive, hspeed, hsteps, hattached, houtput, hrun⟩ := of_decide_eq_true hticks
  have hreachable : start.Reachable runner := reachable_perform _ 10 1 _ start
  have hhalts : rig.Halts 2 (some .underflow) (Rig.stepTimes 2 rig).2 :=
    ⟨Prod.ext (by decide +kernel) rfl, by decide +kernel, by rfl⟩
  refine ⟨start, runner, hstart, hreachable, hspeed, ?_⟩
  rcases blocking_run_exact hstart Fields.plain_nil (by decide) hreachable hactive
    (hspeed ▸ by decide) (hspeed ▸ by decide) ⟨0, hattached, hrun, houtput⟩ hhalts
    (passive_conducted_rest 10 0) (by decide) with
    ⟨hanswer, -, hlive, hbrought⟩ | ⟨halt, -, hmany, -⟩
  · exact ⟨hanswer, hlive, hbrought.session_eq⟩
  · rw [hsteps] at hmany
    exact absurd hmany (by decide)

/-- A speed that is too large for a line stands in the way: it can be set, but when the session is
then turned to the blocking speed, the line about that is refused, and no step is made. -/
theorem blocking_run_refused :
    ∃ start runner rig goal, fresh ⟨.tape, 2, "", 0, .empty⟩ [] .initial = .ok start ∧
      start.Reachable runner ∧ runner.session.active = true ∧ 0 ≤ runner.session.speed ∧
      runner.AttachedTo "+" rig ∧ rig.Halts 1 none goal ∧
      let ended := runFrom (superSpeed (.conducted (fun _ _ ↦ .rest) 10 1)) runner
      ended.1.isOk = false ∧ ended.2.session.speed = Speed.blocking ∧
        ended.2.session.steps = 0 ∧ ended.2.recorded = runner.recorded := by
  obtain ⟨start, hstart⟩ :
      ∃ start, fresh ⟨.tape, 2, "", 0, .empty⟩ [] .initial = .ok start := ⟨_, rfl⟩
  let audience := Audience.conducted (fun _ _ ↦ .rest) 10 1
  let runner := (runFrom ((Conduct.inTurn
    [.start "+" ⟨false, false⟩, .setSpeed 18446744073709551616]).perform audience) start).2
  let rig : Rig := ⟨.load "+" 2, .ofText "", .empty⟩
  have hhalts : rig.Halts 1 none (Rig.stepTimes 1 rig).2 :=
    ⟨Prod.ext (by decide +kernel) rfl, by decide +kernel⟩
  have hrefused : (decide (runner.session.active = true ∧ 0 ≤ runner.session.speed ∧
      runner.attached = some 0 ∧ runner.output = rig.output ∧
      runner.runs[0]? = some ⟨"+", .tape rig.machine, rig.supply⟩)) = true := by
    cases hstart
    decide +kernel
  obtain ⟨hactive, hleast, hattached, houtput, hrun⟩ := of_decide_eq_true hrefused
  refine ⟨start, runner, rig, _, hstart, reachable_perform _ 10 1 _ start, hactive, hleast,
    ⟨0, hattached, hrun, houtput⟩, hhalts, ?_⟩
  cases hstart
  decide +kernel

end Runner

end TapeRunner
