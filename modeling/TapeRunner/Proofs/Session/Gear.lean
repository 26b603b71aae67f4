import TapeRunner.Proofs.Session.Control

/-!
# The timer fits the speed

The gear of a session is what moves it on: whether it is on, its speed, and the interval of its live
timer. The timer fits if it is what the speed asks for, and the gear is settled if, besides, no
blocking speed is left waiting. In the middle of an operation it is not: a report turns the session
idle and leaves the timer for later, and observers are called in between. What holds all the time is
that whoever gives orders from some gear leaves that gear, or one that suits (`Runner.WithinAs`),
where every settled gear suits. The parts of the operations do so if the observers do
(`Audience.SteadyAs`), and rearming leaves a gear that suits, whatever it finds
(`Runner.yields_rearm`).
-/

set_option autoImplicit false
set_option relaxedAutoImplicit false

namespace TapeRunner

open Activity

/-- Whether a session is on, its speed, and the interval of its live timer. -/
structure Gear where
  on : Bool
  speed : Int
  beat : Option Float

namespace Gear

/-- Just a stepped session that is on has a timer, at the interval of its speed. -/
def Fits (gear : Gear) : Prop :=
  gear.beat = if gear.on then (Speed.cadence? gear.speed).map Speed.interval else none

/-- Just a stepped session that is on has a timer, at the interval of its speed, and no session that
is on waits for a blocking run. -/
structure Settled (gear : Gear) : Prop where
  beat_eq : gear.beat = if gear.on then (Speed.cadence? gear.speed).map Speed.interval else none
  speed_nonneg : gear.on = true → 0 ≤ gear.speed

variable {gear : Gear}

theorem Settled.fits (hsettled : gear.Settled) : gear.Fits := hsettled.beat_eq

/-- Without a timer, a speed that asks for none fits. -/
theorem Fits.of_not_stepped (hspeed : gear.speed ≤ 0) (hbeat : gear.beat = none) : gear.Fits := by
  have hcadence : Speed.cadence? gear.speed = none := if_pos hspeed
  rw [Fits, hbeat, hcadence]
  split <;> rfl

theorem Settled.of_off (hoff : gear.on = false) (hbeat : gear.beat = none) : gear.Settled where
  beat_eq := by rw [hbeat, hoff]; rfl
  speed_nonneg := fun hon ↦ absurd (hoff.symm.trans hon) Bool.false_ne_true

theorem Settled.of_idle (hspeed : gear.speed = 0) (hbeat : gear.beat = none) : gear.Settled where
  beat_eq := by
    rw [hbeat, hspeed]
    split <;> rfl
  speed_nonneg := fun _ ↦ Int.le_of_eq hspeed.symm

/-- The gear once the session has turned idle. -/
def idled (gear : Gear) : Gear := { gear with speed := Speed.idle }

theorem idled_eq_self (hspeed : gear.speed = Speed.idle) : gear.idled = gear := by
  rw [idled, ← hspeed]

end Gear

namespace Runner

/-- The interval of the current timer, if it is live. -/
def beat? (runner : Runner) : Option Float :=
  ((runner.current.bind (runner.timers[·]?)).filter (!·.cancelled)).map (·.interval)

/-- The gear of the session. -/
def gear (runner : Runner) : Gear :=
  ⟨runner.session.active && runner.attached.isSome, runner.session.speed, runner.beat?⟩

/-- Nobody watches the output, no engine can fail but by a fault, and the speed is in its range. -/
structure Orderly (runner : Runner) : Prop where
  sinks_nil : runner.sinks = []
  crashes_nil : runner.bench.script.crashes = []
  speed_mem : Speed.blocking ≤ runner.session.speed ∧ runner.session.speed ≤ Speed.top
  run_sound : ∀ (position : Nat) (run : Run), runner.runs[position]? = some run → run.Sound
  attached_lt : ∀ position, runner.attached = some position → position < runner.runs.size

/-- In order, and in a settled gear. -/
structure Ready (runner : Runner) : Prop where
  orderly : runner.Orderly
  settled : runner.gear.Settled

/-- In order, and in a gear that suits. -/
def Suited (suits : Gear → Prop) (runner : Runner) : Prop := runner.Orderly ∧ suits runner.gear

/-- In order, and in a gear that suits or in the given one. -/
def WithinAs (suits : Gear → Prop) (gear : Gear) (runner : Runner) : Prop :=
  runner.Orderly ∧ (suits runner.gear ∨ runner.gear = gear)

/-- An operation ends early if it is cut off, or in a gear that suits. -/
def spared (suits : Gear → Prop) (halt : Halt) (last : Runner) : Prop :=
  halt.CutsOff ∨ last.Suited suits

/-- In order, and in a settled gear or in the given one. -/
def Within (gear : Gear) (runner : Runner) : Prop :=
  runner.Orderly ∧ (runner.gear.Settled ∨ runner.gear = gear)

variable {runner last : Runner} {gear : Gear} {position : Nat}

variable {suits : Gear → Prop}

theorem Orderly.within (horderly : runner.Orderly) : WithinAs suits runner.gear runner :=
  ⟨horderly, .inr rfl⟩

theorem Suited.within (hsuited : runner.Suited suits) (gear : Gear) :
    WithinAs suits gear runner :=
  ⟨hsuited.1, .inl hsuited.2⟩

/-- Order is a matter of the observers of the output, the script, the speed, the runs and where the
session is attached. -/
theorem Orderly.of_inside (horderly : runner.Orderly) (hsinks : last.sinks = runner.sinks)
    (hscript : last.bench.script = runner.bench.script)
    (hspeed : last.session.speed = runner.session.speed) (hruns : last.runs = runner.runs)
    (hinside : ∀ position, last.attached = some position → position < runner.runs.size) :
    last.Orderly where
  sinks_nil := hsinks ▸ horderly.sinks_nil
  crashes_nil := hscript ▸ horderly.crashes_nil
  speed_mem := hspeed ▸ horderly.speed_mem
  run_sound := hruns ▸ horderly.run_sound
  attached_lt := hruns ▸ hinside

theorem Orderly.of_same (horderly : runner.Orderly) (hsinks : last.sinks = runner.sinks)
    (hscript : last.bench.script = runner.bench.script)
    (hspeed : last.session.speed = runner.session.speed) (hruns : last.runs = runner.runs)
    (hattached : last.attached = runner.attached) : last.Orderly :=
  horderly.of_inside hsinks hscript hspeed hruns fun position hposition ↦
    horderly.attached_lt position (hattached ▸ hposition)

theorem Orderly.withLines (horderly : runner.Orderly) (lines : Array Line) :
    (runner.withLines lines).Orderly :=
  horderly.of_same rfl rfl rfl rfl rfl

/-- A change of one run that leaves it sound. -/
theorem Orderly.changeRun (horderly : runner.Orderly) {change : Run → Run}
    (hchange : ∀ run, runner.runs[position]? = some run → (change run).Sound) :
    (runner.changeRun position change).Orderly where
  sinks_nil := horderly.sinks_nil
  crashes_nil := horderly.crashes_nil
  speed_mem := horderly.speed_mem
  run_sound := RunsSound.changeRun horderly.run_sound fun run hrun _ ↦ hchange run hrun
  attached_lt := by
    intro other hother
    rw [Runner.changeRun, Array.size_modify]
    exact horderly.attached_lt other hother

theorem Orderly.settled (horderly : runner.Orderly) {run : Run} {effect : Effect}
    (hrun : runner.runs[position]? = some run) (htouches : run.Touches effect) :
    (runner.settled position effect).Orderly := by
  have hchanged : (runner.changeRun position (·.settle effect)).Orderly := by
    apply horderly.changeRun
    intro found hfound
    obtain rfl := Option.some.inj (hrun.symm.trans hfound)
    exact (horderly.run_sound position run hrun).settle htouches
  exact hchanged.of_same rfl rfl rfl rfl rfl

end Runner

/-- The observers leave every gear as they find it, or settled, and raise nothing of their own. -/
def Audience.Steady (audience : Audience) : Prop :=
  ∀ position gear, Keeps (Runner.Within gear) Runner.cutOff (audience.react position)

/-- Every settled gear suits, and the observers leave every gear as they find it, or one that suits;
whatever they raise of their own, they raise in a gear that suits. -/
structure Audience.SteadyAs (audience : Audience) (suits : Gear → Prop) : Prop where
  of_settled : ∀ gear : Gear, gear.Settled → suits gear
  keeps : ∀ position gear,
    Keeps (Runner.WithinAs suits gear) (Runner.spared suits) (audience.react position)

theorem Audience.Steady.steadyAs {audience : Audience} (hsteady : audience.Steady) :
    audience.SteadyAs Gear.Settled where
  of_settled _ hsettled := hsettled
  keeps position gear runner hwithin :=
    Yields.allow (hsteady position gear runner hwithin) fun _ _ hcut ↦ .inl hcut

namespace Runner

variable {audience : Audience} {runner last : Runner} {gear : Gear} {position : Nat}
variable {suits : Gear → Prop}

/-! ### Lines, events and reports -/

/-- What can only be cut off is spared. -/
theorem yields_spared {Result : Type} {activity : Action Result}
    {required : Result → Runner → Prop} (hyields : Yields cutOff activity runner required) :
    Yields (spared suits) activity runner required :=
  Yields.allow hyields fun _ _ hcut ↦ .inl hcut

theorem writes_spared (runner : Runner) (fields : Fields) : runner.Writes (spared suits) fields :=
  writes_of_refusal fun _ hrefusal ↦ .inl hrefusal

theorem WithinAs.withLines (hwithin : WithinAs suits gear runner) (lines : Array Line) :
    WithinAs suits gear (runner.withLines lines) :=
  ⟨hwithin.1.withLines lines, hwithin.2⟩

theorem keeps_log_within (level : Level) (event : String) (fields : Fields) (gear : Gear) :
    Keeps (WithinAs suits gear) (spared suits) (log level event fields) :=
  keeps_log level event (fun runner _ ↦ writes_spared runner fields)
    fun _ lines hwithin ↦ hwithin.withLines lines

theorem keeps_tell_within (hsteady : audience.SteadyAs suits) (kind : EventKind) (gear : Gear) :
    Keeps (WithinAs suits gear) (spared suits) (tell audience kind) := by
  refine keeps_tell kind (fun runner _ ↦ writes_spared runner _) ?_ ?_ ?_ ?_
  · exact fun runner lines hwithin ↦ hwithin.withLines lines
  · exact fun runner hwithin ↦ ⟨hwithin.1.of_same rfl rfl rfl rfl rfl, hwithin.2⟩
  · exact fun _ runner _ hwithin ↦ ⟨hwithin.1.of_same rfl rfl rfl rfl rfl, hwithin.2⟩
  · exact fun position ↦ hsteady.keeps position gear

theorem Orderly.withSpeed (horderly : runner.Orderly) {speed : Int}
    (hspeed : Speed.blocking ≤ speed ∧ speed ≤ Speed.top) : (runner.withSpeed speed).Orderly :=
  ⟨horderly.sinks_nil, horderly.crashes_nil, hspeed, horderly.run_sound, horderly.attached_lt⟩

/-- A report leaves the timer for later. -/
theorem Orderly.idledWith (horderly : runner.Orderly) (status : Status) :
    WithinAs suits runner.gear.idled (runner.idledWith status) :=
  ⟨(horderly.withSpeed (by decide)).of_same rfl rfl rfl rfl rfl, .inr rfl⟩

theorem yields_conclude (hsteady : audience.SteadyAs suits) (horderly : runner.Orderly)
    (outcome : Except Fault Unit) :
    Yields (spared suits) (conclude audience outcome) runner
      fun _ ↦ WithinAs suits runner.gear.idled := by
  rcases outcome with fault | _
  · refine (ends_reportFault fault).mpr ?_
    exact (keeps_log_within _ _ _ _).bind (fun _ ↦ keeps_tell_within hsteady _ _) _
      (horderly.idledWith _)
  · refine ends_reportEnd.mpr ?_
    exact (keeps_log_within _ _ _ _).bind (fun _ ↦ keeps_tell_within hsteady _ _) _
      (horderly.idledWith _)

/-! ### Steps of the engine -/

/-- In order, in a gear, and with a run at a position. -/
structure Driven (gear : Gear) (position : Nat) (runner : Runner) : Prop where
  orderly : runner.Orderly
  gear_eq : runner.gear = gear
  inside : position < runner.runs.size

theorem Driven.exists_run (hdriven : Driven gear position runner) :
    ∃ run, runner.runs[position]? = some run :=
  ⟨_, Array.getElem?_eq_getElem hdriven.inside⟩

theorem Driven.settled (hdriven : Driven gear position runner) {run : Run} {effect : Effect}
    (hrun : runner.runs[position]? = some run) (htouches : run.Touches effect) :
    Driven gear position (runner.settled position effect) where
  orderly := hdriven.orderly.settled hrun htouches
  gear_eq := hdriven.gear_eq
  inside := by simpa [Runner.settled] using hdriven.inside

theorem Driven.resumeAt (hdriven : Driven gear position runner) (counter : Nat) :
    Driven gear position (runner.changeRun position (·.resumeAt counter)) where
  orderly := hdriven.orderly.changeRun fun run hrun ↦
    (hdriven.orderly.run_sound position run hrun).resumeAt counter
  gear_eq := hdriven.gear_eq
  inside := by simpa [Runner.changeRun] using hdriven.inside

theorem Driven.stepCounted (hdriven : Driven gear position runner) :
    Driven gear position runner.stepCounted :=
  ⟨hdriven.orderly.of_same rfl rfl rfl rfl rfl, hdriven.gear_eq, hdriven.inside⟩

theorem yields_settleAny_driven (hdriven : Driven gear position runner) {run : Run}
    {effect? : Option Effect} (hrun : runner.runs[position]? = some run)
    (htouches : ∀ effect ∈ effect?, run.Touches effect) :
    Yields (fun _ _ ↦ False) (settleAny audience position effect?) runner
      fun _ ↦ Driven gear position := by
  refine yields_settleAny (fun _ ↦ hdriven) (fun effect heffect ↦ ?_) ?_
  · exact hdriven.settled hrun (htouches effect heffect)
  · rw [hdriven.orderly.sinks_nil]
    exact fun _ hsink ↦ absurd hsink List.not_mem_nil

/-- A step of the engine is no matter of the gear, and nothing but a fault can end it. -/
theorem yields_advance (hdriven : Driven gear position runner) :
    Yields (orFault (Driven gear position) cutOff) (advance audience position) runner
      fun _ ↦ Driven gear position := by
  obtain ⟨run, hrun⟩ := hdriven.exists_run
  refine (ends_advance hrun).mpr ?_
  rcases (hdriven.orderly.run_sound position run hrun).turn_cases hdriven.orderly.crashes_nil with
    ⟨fault, hfault⟩ | ⟨effect?, counter, hturn, htouches⟩
  · simp only [hfault]
    exact hdriven
  · simp only [hturn]
    refine Ends.mono (yields_settleAny_driven hdriven hrun htouches) ?_
    intro outcome middle hends
    rcases outcome with halt | _
    · exact hends.elim
    · exact hends.resumeAt counter

theorem yields_blockingSteps_driven (patience : Nat) (hdriven : Driven gear position runner) :
    Yields cutOff (attempt (blockingSteps audience position patience)) runner
      fun _ ↦ Driven gear position := by
  refine Yields.attempt (Yields.mono (yields_blockingSteps (fun _ _ ↦ trivial)
    (fun _ hinside hlost ↦ ?_) (fun _ _ hinside _ _ _ ↦ ?_) patience hdriven) ?_)
  · obtain ⟨run, hrun⟩ := hinside.exists_run
    exact absurd (hrun.symm.trans hlost) nofun
  · exact Yields.mono (yields_advance hinside) fun _ _ hafter ↦ hafter.stepCounted
  · exact fun _ _ hlast ↦ hlast.1

/-! ### Rearming -/

/-- Whoever goes on at another speed ends up in a gear that suits; whoever does not was in one, or
the speed was the one of the gear that was left. -/
theorem yields_againUnless {again : Action Unit}
    (hagain : ∀ runner, Orderly runner → Yields (spared suits) again runner fun _ ↦ Suited suits)
    (hwithin : WithinAs suits gear runner) (speed : Int) :
    Yields (spared suits) (againUnless speed again) runner fun _ last ↦ last.Orderly ∧
      (suits last.gear ∨ gear.speed = speed ∧ last.gear = gear) := by
  rw [Yields, againUnless, ends_bind, ends_get]
  by_cases hspeed : runner.session.speed = speed
  · simp only [hspeed, ne_eq, not_true_eq_false, if_false]
    refine ⟨hwithin.1, hwithin.2.imp_right fun hsame ↦ ⟨?_, hsame⟩⟩
    rw [← hsame]
    exact hspeed
  · simp only [ne_eq, hspeed, not_false_eq_true, if_true]
    exact Yields.mono (hagain runner hwithin.1) fun _ _ hsuited ↦ ⟨hsuited.1, .inl hsuited.2⟩

/-- A blocking run leaves a gear that suits, save that an idle session may keep the gear it had. -/
theorem yields_blockingRun {again : Action Unit} (hsteady : audience.SteadyAs suits)
    (hagain : ∀ runner, Orderly runner → Yields (spared suits) again runner fun _ ↦ Suited suits)
    (horderly : runner.Orderly) (hinside : position < runner.runs.size) :
    Yields (spared suits) (blockingRun audience again position) runner fun _ last ↦
      last.Orderly ∧
        (suits last.gear ∨ runner.session.speed = Speed.idle ∧ last.gear = runner.gear) := by
  rw [Yields, blockingRun_eq, ends_bind, ends_get]
  refine Yields.bind (writes_spared runner _ _ _) ?_
  rintro _ _ ⟨lines, rfl⟩
  have hdriven : Driven runner.gear position (runner.withLines lines) :=
    ⟨horderly.of_same rfl rfl rfl rfl rfl, rfl, hinside⟩
  refine (yields_spared (yields_blockingSteps_driven _ hdriven)).bind ?_
  intro outcome middle hmiddle
  refine (yields_conclude hsteady hmiddle.orderly outcome).bind ?_
  intro _ after hafter
  rw [hmiddle.gear_eq] at hafter
  refine Yields.mono (yields_againUnless hagain hafter _) fun _ last hlast ↦ ⟨hlast.1, ?_⟩
  refine hlast.2.imp_right fun hidled ↦ ⟨hidled.1.symm, ?_⟩
  rw [hidled.2]
  exact Gear.idled_eq_self hidled.1.symm

theorem beat?_armedAt (runner : Runner) (cadence : Float) :
    (runner.armedAt cadence).beat? = some (Speed.interval cadence) := by
  simp only [beat?, armedAt, Option.bind_some, Array.getElem?_push_size]
  rfl

/-- A stepped session that is on is settled by a timer of its cadence. -/
theorem settled_armedAt {cadence : Float}
    (hon : (runner.session.active && runner.attached.isSome) = true)
    (hstepped : 0 < runner.session.speed)
    (hcadence : Speed.cadence? runner.session.speed = some cadence) :
    (runner.armedAt cadence).gear.Settled where
  beat_eq := by
    show (runner.armedAt cadence).beat? =
      if runner.session.active && runner.attached.isSome then
        (Speed.cadence? runner.session.speed).map Speed.interval else none
    rw [beat?_armedAt, if_pos hon, hcadence]
    rfl
  speed_nonneg _ := Int.le_of_lt hstepped

/-- Without a timer, what the session goes on with leaves a gear that suits. -/
theorem yields_engage {again : Action Unit} (hsteady : audience.SteadyAs suits)
    (hagain : ∀ runner, Orderly runner → Yields (spared suits) again runner fun _ ↦ Suited suits)
    (horderly : runner.Orderly) (hbeat : runner.beat? = none) :
    Yields (spared suits) (engage audience again) runner fun _ ↦ Suited suits := by
  by_cases hon : (runner.session.active && runner.attached.isSome) = true
  · refine ends_engage (fun hoff ↦ absurd (hon.symm.trans hoff) nofun)
      (fun hidle ↦ ⟨horderly, hsteady.of_settled _ (.of_idle hidle hbeat)⟩)
      (fun hstepped cadence hcadence ↦ ?_) fun hblocking position _ hattached ↦ ?_
    · obtain ⟨found, hfound, hinterval⟩ := Speed.interval_pos hstepped horderly.speed_mem.2
      obtain rfl := Option.some.inj (hcadence.symm.trans hfound)
      refine Yields.mono (yields_arm hinterval (writes_spared _ _)) ?_
      rintro _ _ ⟨lines, rfl⟩
      exact ⟨horderly.of_same rfl rfl rfl rfl rfl,
        hsteady.of_settled _ (settled_armedAt hon hstepped hcadence)⟩
    · have hrun := yields_blockingRun hsteady hagain horderly
        (horderly.attached_lt position hattached)
      refine Yields.mono hrun fun _ last hlast ↦ ⟨hlast.1, ?_⟩
      exact hlast.2.resolve_right fun h ↦ Int.ne_of_lt hblocking h.1
  · have hoff := Bool.eq_false_iff.mpr hon
    exact (ends_engage_of_off hoff).mpr ⟨horderly, hsteady.of_settled _ (.of_off hoff hbeat)⟩

/-- Rearming leaves a gear that suits, whatever it was before. -/
theorem yields_rearmWithin (hsteady : audience.SteadyAs suits) (bound : Nat)
    (horderly : runner.Orderly) :
    Yields (spared suits) (rearmWithin audience bound) runner fun _ ↦ Suited suits := by
  induction bound generalizing runner with
  | zero => exact .inl trivial
  | succ bound ih =>
    rw [rearmWithin_succ]
    refine Yields.bind (yields_disarm fun _ _ ↦ writes_spared _ _) ?_
    rintro _ _ ⟨generation, timers, lines, rfl⟩
    exact yields_engage hsteady (fun _ ↦ ih) (horderly.of_same rfl rfl rfl rfl rfl) rfl

theorem yields_rearm (hsteady : audience.SteadyAs suits) (horderly : runner.Orderly) :
    Yields (spared suits) (rearm audience) runner fun _ ↦ Suited suits :=
  yields_rearmWithin hsteady _ horderly

end Runner

end TapeRunner
