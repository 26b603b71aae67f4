import TapeRunner.Proofs.Machine.Stepping
import TapeRunner.Proofs.Session.Passive

/-!
# On the way to a halt

A program that comes to a halt takes a session along: whatever moved it there, the attached run is
the fresh rig after as many steps as the session has counted (`Runner.OnCourse`). Such a session
arrives if it stands where the rig halts, idle, without a timer and with the status of the halt
(`Runner.Arrived`), and this says all that can be seen of it (`Runner.Arrived.standing_eq`).

The loop of a blocking run that is given patience for all of the way comes to the halt
(`Runner.OnCourse.yields_attempt_blockingSteps`), and the blocking run arrives
(`Runner.OnCourse.leads_blockingRun`). Its only early end is the refusal of a line that is to count
more steps than fit into it, and this comes after everything else (`Runner.LeadsTo`).
-/

set_option autoImplicit false
set_option relaxedAutoImplicit false

namespace TapeRunner

open Activity

/-- A session's way from a fresh rig to its halt: where its run stands among the runs, its program,
the clock, and how the rig halts. -/
structure Course where
  position : Nat
  program : String
  clock : Float
  origin : Rig
  count : Nat
  fault? : Option Fault
  goal : Rig
  halts : origin.Halts count fault? goal

namespace Course

/-- How a blocking run to the halt turns out. -/
def ending (course : Course) : Except Fault Unit :=
  match course.fault? with
  | none => .ok ()
  | some fault => .error fault

/-- The status of a session that has arrived. -/
def arrival (course : Course) : Status :=
  match course.fault? with
  | none => .finished (course.clock - course.clock)
  | some fault => .failed fault

/-- An early end that is allowed for: a line was refused, and there are more steps to be counted
than fit into a line. -/
def Refuses (course : Course) (halt : Halt) : Prop :=
  greatestInteger < course.count ∧ ∃ error, halt = .raised error ∧ error.isRefusal = true

end Course

namespace Runner

/-- What the caller can see of a session: its run, its pending input, its output, its count of
steps, its speed, whether it is active, whether a timer steps it, and its status. -/
structure Standing where
  run? : Option Run
  pending? : Option Supply
  output : Output
  steps : Nat
  speed : Int
  active : Bool
  armed : Bool
  status : Option Status

/-- What can be seen of the session of a runner. -/
def standing (runner : Runner) : Standing where
  run? := runner.run?
  pending? := runner.supply?
  output := runner.output
  steps := runner.session.steps
  speed := runner.session.speed
  active := runner.session.active
  armed := runner.armed
  status := runner.session.status

/-- The attached run is the fresh rig of the course after as many steps as the session has counted,
whatever the session's speed, timers and status. -/
structure OnCourse (course : Course) (runner : Runner) : Prop extends runner.Chronicled where
  active : runner.session.active = true
  attached : runner.attached = some course.position
  supplied : runner.supplied = some course.position
  carries : ∃ rig, runner.Carries course.position course.program rig ∧
    course.origin.stepTimes runner.session.steps = (none, rig)
  least : Speed.blocking ≤ runner.session.speed
  greatest : runner.session.speed ≤ Speed.top
  begun : runner.session.startedAt = course.clock
  clock : runner.bench.clock = course.clock

/-- The session stands at the halt, idle, without a timer and with the status of the halt. -/
structure Arrived (course : Course) (runner : Runner) : Prop extends OnCourse course runner where
  idle : runner.session.speed = Speed.idle
  disarmed : runner.current = none
  steps : runner.session.steps = course.count
  status : runner.session.status = some course.arrival

/-- An early end that is allowed for, and comes after everything that is required of a regular
end. -/
def Overlong (course : Course) (inv : Runner → Prop) (halt : Halt) (last : Runner) : Prop :=
  inv last ∧ course.Refuses halt

/-- Whatever is required is reached by the activity, also if a line is refused for the number of
steps. -/
abbrev LeadsTo {Result : Type} (course : Course) (required : Runner → Prop)
    (activity : Action Result) (runner : Runner) : Prop :=
  Yields (Overlong course required) activity runner fun _ ↦ required

variable {course : Course} {runner last : Runner} {audience : Audience}

section LeadsTo

variable {Result : Type} {activity : Action Result} {required weaker : Runner → Prop}

/-- What is reached can be less. -/
theorem LeadsTo.mono (hleads : LeadsTo course required activity runner)
    (hweaker : ∀ last, required last → weaker last) : LeadsTo course weaker activity runner := by
  refine Yields.allow (Yields.mono hleads fun _ ↦ hweaker) ?_
  exact fun _ last hlong ↦ ⟨hweaker last hlong.1, hlong.2⟩

/-- What an activity is shown to reach holds after it, however it ends, and an early end is one that
is allowed for. -/
theorem LeadsTo.reached (hleads : LeadsTo course required activity runner) :
    required (runFrom activity runner).2 ∧
      ∀ halt, .error halt = (runFrom activity runner).1 → course.Refuses halt := by
  rcases hleads.ended with ⟨_, hanswer, hlast⟩ | ⟨halt, hanswer, hlast, hrefuses⟩
  · exact ⟨hlast, fun _ hhalt ↦ nomatch hhalt.trans hanswer⟩
  · refine ⟨hlast, fun found hfound ↦ ?_⟩
    obtain rfl := Except.error.inj (hfound.trans hanswer)
    exact hrefuses

end LeadsTo

/-- Whoever has arrived can be seen to stand in one way only. -/
theorem Arrived.standing_eq (harrived : Arrived course runner) : runner.standing =
    ⟨some ⟨course.program, .tape course.goal.machine, course.goal.supply⟩, some course.goal.supply,
      course.goal.output, course.count, Speed.idle, true, false, some course.arrival⟩ := by
  obtain ⟨rig, hcarries, hsteps⟩ := harrived.carries
  rw [harrived.steps] at hsteps
  obtain rfl : rig = course.goal := congrArg Prod.snd (hsteps.symm.trans course.halts.1)
  simp only [standing, run?, supply?, armed, harrived.attached, harrived.supplied, hcarries.1,
    hcarries.2, harrived.steps, harrived.idle, harrived.active, harrived.disarmed,
    harrived.status, Option.bind_some, Option.map_some]

/-! ### What keeps the course -/

namespace OnCourse

variable (hon : OnCourse course runner)
include hon

theorem noted (hnoted : runner.Noted last) : OnCourse course last := by
  obtain ⟨_, _, _, _, rfl⟩ := hnoted
  exact { hon with }

theorem disarmed (generation : Nat) (timers : Array (Timer Nat)) :
    OnCourse course (runner.disarmed generation timers) :=
  { hon with }

theorem armedAt (cadence : Float) : OnCourse course (runner.armedAt cadence) :=
  { hon with }

theorem withSpeed {speed : Int} (hleast : Speed.blocking ≤ speed)
    (hgreatest : speed ≤ Speed.top) : OnCourse course (runner.withSpeed speed) :=
  { hon with least := hleast, greatest := hgreatest }

theorem idledWith (status : Status) : OnCourse course (runner.idledWith status) :=
  { hon with
    least := show Speed.blocking ≤ Speed.idle by decide
    greatest := show Speed.idle ≤ Speed.top by decide }

end OnCourse

/-! ### Steps on the course -/

/-- A step takes the session one step along its course. At the halt it is a fault that changes
nothing. -/
theorem OnCourse.ends_advance (hon : OnCourse course runner) (hpassive : audience.Passive) :
    Ends (advance audience course.position) runner fun outcome last ↦
      match outcome with
      | .ok _ => OnCourse course last.stepCounted ∧ last.session = runner.session
      | .error halt => last = runner ∧ ∃ fault, halt = .raised (.fault fault) := by
  obtain ⟨rig, hcarries, hsteps⟩ := hon.carries
  rcases course.halts.progress hsteps with ⟨-, hgoal⟩ | ⟨next, hstep, hfurther⟩
  · obtain ⟨fault, hstop⟩ := course.halts.exists_fault
    rw [← hgoal] at hstop
    exact (hcarries.ends_advance_of_stop hstop).mpr ⟨rfl, fault, rfl⟩
  · have hyields : Yields (fun _ _ ↦ False) (advance audience course.position) runner _ :=
      hcarries.yields_advance hpassive hstep
    refine Ends.mono hyields ?_
    intro outcome last hlast
    rcases outcome with halt | _
    · exact hlast.elim
    · obtain ⟨hnext, runs, output, hookCalls, rfl⟩ := hlast
      exact ⟨{ hon with carries := ⟨next, hnext, hfurther⟩ }, rfl⟩

/-! ### Arriving -/

/-- A session that reports its end at the halt has arrived. -/
theorem OnCourse.arrived_idledWith (hon : OnCourse course runner) (hcurrent : runner.current = none)
    (hsteps : runner.session.steps = course.count) :
    Arrived course (runner.idledWith (runner.verdict course.ending)) := by
  have hverdict : runner.verdict course.ending = course.arrival := by
    unfold Course.ending Course.arrival
    cases course.fault? with
    | some fault => rfl
    | none =>
      show Status.finished (runner.bench.clock - runner.session.startedAt) = _
      rw [hon.begun, hon.clock]
  rw [hverdict]
  exact { hon.idledWith course.arrival with
    idle := rfl
    disarmed := hcurrent
    steps := hsteps
    status := rfl }

theorem Arrived.noted (harrived : Arrived course runner) (hnoted : runner.Noted last) :
    Arrived course last := by
  have hon := harrived.toOnCourse.noted hnoted
  obtain ⟨_, _, _, _, rfl⟩ := hnoted
  exact ⟨hon, harrived.idle, harrived.disarmed, harrived.steps, harrived.status⟩

/-- Disarming leaves the session on its course, without a timer. -/
theorem OnCourse.yields_disarm {halted : Halt → Runner → Prop} (hon : OnCourse course runner) :
    Yields halted disarm runner fun _ last ↦
      OnCourse course last ∧ last.current = none ∧ last.session = runner.session := by
  refine Yields.mono (Runner.yields_disarm fun _ _ ↦ writes_of_plain hon.bound Fields.plain_nil) ?_
  rintro _ _ ⟨generation, timers, lines, rfl⟩
  exact ⟨(hon.disarmed generation timers).noted (noted_withLines _ lines), rfl, rfl⟩

/-- Rearming an idle session only disarms it. -/
theorem OnCourse.yields_rearm_of_idle {halted : Halt → Runner → Prop} (hon : OnCourse course runner)
    (hidle : runner.session.speed = Speed.idle) (bound : Nat) :
    Yields halted (rearmWithin audience (bound + 1)) runner fun _ last ↦
      OnCourse course last ∧ last.current = none ∧ last.session = runner.session := by
  refine Yields.mono (hon.toChronicled.yields_rearm_of_idle hidle bound) ?_
  rintro _ _ ⟨lines, rfl⟩
  exact ⟨(hon.disarmed _ _).noted (noted_withLines _ lines), rfl, rfl⟩

/-- Whoever attempts the loop of a blocking run, with patience for all of the way, is at the halt,
with the ending of the course. -/
theorem OnCourse.yields_attempt_blockingSteps {halted : Halt → Runner → Prop}
    (hon : OnCourse course runner) (hpassive : audience.Passive)
    (hspeed : runner.session.speed = Speed.blocking)
    (hpatience : course.count < audience.patience) :
    Yields halted (attempt (blockingSteps audience course.position audience.patience)) runner
      fun outcome last ↦ outcome = course.ending ∧ OnCourse course last ∧
        last.session.steps = course.count ∧ last.current = runner.current := by
  obtain ⟨rig, hcarries, hsteps⟩ := hon.carries
  obtain ⟨rest, hcount, hhalts⟩ := course.halts.of_stepTimes hsteps
  refine Yields.mono (hcarries.yields_attempt_blockingSteps hpassive hspeed hhalts (by omega)) ?_
  rintro _ _ ⟨rfl, hgoal, runs, output, hookCalls, rfl⟩
  refine ⟨?_, { hon with carries := ⟨course.goal, hgoal, ?_⟩ }, hcount.symm, rfl⟩
  · unfold outcomeOf Course.ending
    cases course.fault? <;> rfl
  · rw [← hcount]
    exact course.halts.1

/-- A blocking run without a timer arrives. -/
theorem OnCourse.leads_blockingRun (hon : OnCourse course runner) (hpassive : audience.Passive)
    (hspeed : runner.session.speed = Speed.blocking) (hcurrent : runner.current = none)
    (hpatience : course.count < audience.patience) (bound : Nat) :
    LeadsTo course (Arrived course)
      (blockingRun audience (rearmWithin audience (bound + 1)) course.position) runner := by
  rw [LeadsTo, Yields, blockingRun_eq, ends_bind, ends_get]
  have hplain := plain_nameField runner Fields.plain_nil
  refine Yields.bind (hon.yields_log .info "session.blocking_run" hplain) ?_
  intro _ middle hmiddle
  obtain ⟨hrunning, hdisarmed⟩ : middle.session.speed = Speed.blocking ∧ middle.current = none := by
    obtain ⟨_, _, _, _, rfl⟩ := hmiddle
    exact ⟨hspeed, hcurrent⟩
  have honward := hon.noted hmiddle
  refine Yields.bind (honward.yields_attempt_blockingSteps hpassive hrunning hpatience) ?_
  rintro _ last ⟨rfl, hlaston, hcount, hkept⟩
  have harrived := hlaston.arrived_idledWith (hkept.trans hdisarmed) hcount
  have hreport : LeadsTo course (Arrived course) (conclude audience course.ending) last := by
    refine Yields.mono (hlaston.yields_conclude hpassive course.ending ?_) ?_
    · exact fun hlong error hrefusal ↦ ⟨harrived, hcount ▸ hlong, error, rfl, hrefusal⟩
    · exact fun _ _ hnoted ↦ harrived.noted hnoted
  refine hreport.bind ?_
  intro _ reported hreported
  have hagain : reported.session.speed ≠ runner.session.speed := by
    rw [hreported.idle, hspeed]
    decide
  refine (ends_againUnless_of_other hagain).mpr ?_
  refine Yields.mono (hreported.toOnCourse.yields_rearm_of_idle hreported.idle bound) ?_
  rintro _ final ⟨hfinal, hsilent, hsame⟩
  exact ⟨hfinal, hsame ▸ hreported.idle, hsilent, hsame ▸ hreported.steps, hsame ▸ hreported.status⟩

end Runner

end TapeRunner
