import TapeRunner.Proofs.Session.Generations
import TapeRunner.Proofs.Session.Timing

/-!
# What an error of an observer leaves

An event is told between a change of speed and the rearming that follows it, and an observer that
raises an error there ends the operation. Nothing is rearmed any more: the gear is left as it was
told (`Runner.AbandonedAs`). So the timer fits after an error just if it fitted when the error was
raised. As long as observers raise errors only where it does, the timer fits after every order, and
whatever they do besides (`Runner.suited_carryOut`); but a change of speed that is abandoned leaves
the new speed with the old timer (`Runner.timed_unless_abandoned`).
-/

set_option autoImplicit false
set_option relaxedAutoImplicit false

namespace TapeRunner

open Activity

namespace Runner

variable {audience : Audience} {runner : Runner}

/-! ### Errors where the timer fits -/

/-- An observer may pass on the refusal of a line, and may raise anything where the timer fits. -/
def MayRaise (error : Error) (runner : Runner) : Prop := error.isRefusal = true ∨ runner.InTime

/-- Observers that raise errors only where the timer fits leave every gear as they find it, or one
that fits. -/
theorem steadyAs_conducted {conduct : Nat → Runner → Conduct}
    (hminds : ∀ position runner, (conduct position runner).Minds MayRaise runner)
    (patience depth : Nat) : (Audience.conducted conduct patience depth).SteadyAs Gear.Fits where
  of_settled _ hsettled := hsettled.fits
  keeps := keeps_react_conducted (fun _ hsettled ↦ hsettled.fits) (fun _ _ hcut ↦ .inl hcut)
    (fun _ _ horderly hmay ↦ hmay.imp_right fun hinTime ↦ ⟨horderly, inTime_iff_fits.mp hinTime⟩)
    (fun _ _ hspared ↦ hspared) hminds patience depth

/-- There is a live timer just if the session is active, attached and stepped, and every live timer
has the interval of the current speed. -/
structure Timed (runner : Runner) : Prop where
  live_iff : Timer.live runner.timers ≠ [] ↔
    runner.session.active = true ∧ runner.attached.isSome = true ∧ 0 < runner.session.speed
  interval_eq : ∀ index ∈ Timer.live runner.timers, ∃ timer, runner.timers[index]? = some timer ∧
    (Speed.cadence? runner.session.speed).map Speed.interval = some timer.interval

theorem Sole.timed (hsole : runner.Sole) (hinTime : runner.InTime) : runner.Timed := by
  cases harmed : runner.armed with
  | false =>
    have hnone : Timer.live runner.timers = [] := by simp [hsole.live_eq, harmed]
    rw [← Bool.not_eq_true, hinTime.armed_iff] at harmed
    exact ⟨by simp [hnone, harmed], by simp [hnone]⟩
  | true =>
    obtain ⟨place, hcurrent, hone⟩ := hsole.exists_live harmed
    obtain ⟨interval, hbeat⟩ := Option.isSome_iff_exists.mp ((armed_eq runner).symm.trans harmed)
    obtain ⟨same, timer, hsame, htimer, hlive, -⟩ := exists_live_of_beat? hbeat
    obtain rfl : place = same := Option.some.inj (hcurrent.symm.trans hsame)
    refine ⟨by simp [hone, hinTime.armed_iff.mp harmed], fun index hindex ↦ ?_⟩
    obtain rfl : index = place := by simpa [hone] using hindex
    exact ⟨timer, htimer, hinTime.interval_eq index timer hcurrent htimer hlive⟩

/-! ### Errors where it does not -/

/-- In order, and in the given gear. -/
def Geared (gear : Gear) (runner : Runner) : Prop := runner.Orderly ∧ runner.gear = gear

/-- An error of an observer leaves a gear as described. -/
def AbandonedAs (left : Gear → Prop) (halt : Halt) (last : Runner) : Prop :=
  ∀ message, halt = .raised (.raised message) → left last.gear

end Runner

/-- The observers leave every gear as they find it, whatever they raise. -/
def Audience.Aloof (audience : Audience) : Prop :=
  ∀ position gear, Preserves (Runner.Geared gear) (audience.react position)

namespace Runner

variable {audience : Audience} {runner last : Runner} {gear : Gear} {position : Nat}
variable {left : Gear → Prop} {Result : Type}

theorem writes_abandoned (runner : Runner) (fields : Fields) :
    runner.Writes (AbandonedAs left) fields := by
  refine writes_of_refusal fun error hrefusal message hraised ↦ ?_
  cases hraised
  exact absurd hrefusal Bool.false_ne_true

/-- A refusal for want of a session is no error of an observer. -/
theorem abandonedAs_noSession (operation : String) (runner : Runner) :
    AbandonedAs left (.raised (.noSession operation)) runner := by
  rintro message ⟨⟩

/-- What can only be cut off is not abandoned. -/
theorem yields_unabandoned {activity : Action Result} {required : Result → Runner → Prop}
    (hyields : Yields cutOff activity runner required) :
    Yields (AbandonedAs left) activity runner required := by
  refine Yields.allow hyields ?_
  rintro _ _ hcut message rfl
  exact absurd hcut Bool.false_ne_true

theorem yields_abandoned_mono {activity : Action Result} {required : Result → Runner → Prop}
    {more : Gear → Prop} (hyields : Yields (AbandonedAs left) activity runner required)
    (hmore : ∀ gear, left gear → more gear) :
    Yields (AbandonedAs more) activity runner required :=
  Yields.allow hyields fun _ _ habandoned message hraised ↦ hmore _ (habandoned message hraised)

theorem Geared.withLines (hgeared : Geared gear runner) (lines : Array Line) :
    Geared gear (runner.withLines lines) :=
  ⟨hgeared.1.withLines lines, hgeared.2⟩

theorem keeps_log_geared (level : Level) (event : String) (fields : Fields) :
    Keeps (Geared gear) (AbandonedAs left) (log level event fields) :=
  keeps_log level event (fun runner _ ↦ writes_abandoned runner fields)
    fun _ lines hgeared ↦ hgeared.withLines lines

/-- What is told is told in a gear, and abandoned in it. -/
theorem keeps_tell_geared (haloof : audience.Aloof) (kind : EventKind) :
    Keeps (Geared gear) (AbandonedAs (· = gear)) (tell audience kind) := by
  refine keeps_tell kind (fun runner _ ↦ writes_abandoned runner _) ?_ ?_ ?_ ?_
  · exact fun runner lines hgeared ↦ hgeared.withLines lines
  · exact fun runner hgeared ↦ ⟨hgeared.1.of_same rfl rfl rfl rfl rfl, hgeared.2⟩
  · exact fun _ runner _ hgeared ↦ ⟨hgeared.1.of_same rfl rfl rfl rfl rfl, hgeared.2⟩
  · exact fun position runner hgeared ↦
      Yields.allow (haloof position gear runner hgeared) fun _ _ hlast _ _ ↦ hlast.2

theorem yields_conclude_geared (haloof : audience.Aloof) (hgeared : Geared gear runner)
    (outcome : Except Fault Unit) :
    Yields (AbandonedAs (· = gear.idled)) (conclude audience outcome) runner
      fun _ ↦ Geared gear.idled := by
  have hidled (status : Status) : Geared gear.idled (runner.idledWith status) :=
    ⟨(hgeared.1.withSpeed (by decide)).of_same rfl rfl rfl rfl rfl,
      congrArg Gear.idled hgeared.2⟩
  rcases outcome with fault | _
  · refine (ends_reportFault fault).mpr ?_
    exact (keeps_log_geared _ _ _).bind (fun _ ↦ keeps_tell_geared haloof _) _ (hidled _)
  · refine ends_reportEnd.mpr ?_
    exact (keeps_log_geared _ _ _).bind (fun _ ↦ keeps_tell_geared haloof _) _ (hidled _)

theorem Geared.driven (hgeared : Geared gear runner) (hattached : runner.attached = some position) :
    Driven gear position runner :=
  ⟨hgeared.1, hgeared.2, hgeared.1.attached_lt position hattached⟩

/-! ### Rearming -/

/-- An idle session is rearmed without telling anything. -/
theorem yields_rearmWithin_idle (audience : Audience) (bound : Nat) (hgeared : Geared gear runner)
    (hidle : gear.speed = Speed.idle) :
    Yields (AbandonedAs left) (rearmWithin audience bound) runner fun _ _ ↦ True := by
  cases bound with
  | zero => exact nofun
  | succ bound =>
    rw [rearmWithin_succ]
    refine Yields.bind (yields_disarm fun _ _ ↦ writes_abandoned _ _) ?_
    rintro _ _ ⟨generation, timers, lines, rfl⟩
    have hspeed : ((runner.disarmed generation timers).withLines lines).session.speed =
        Speed.idle := (congrArg Gear.speed hgeared.2).trans hidle
    rw [Yields, ends_engage_of_idle hspeed]
    trivial

/-- Whether a session that has turned idle is rearmed or not, nothing is told. -/
theorem yields_againUnless_idle (audience : Audience) (bound : Nat) (speed : Int)
    (hidled : Geared gear.idled runner) :
    Yields (AbandonedAs left) (againUnless speed (rearmWithin audience bound)) runner
      fun _ _ ↦ True := by
  by_cases hspeed : runner.session.speed = speed
  · rw [Yields, ends_againUnless_of_same hspeed]
    trivial
  · refine (ends_againUnless_of_other hspeed).mpr ?_
    exact yields_rearmWithin_idle audience bound hidled rfl

/-- A blocking run is abandoned, if at all, when its end or its fault is told. -/
theorem yields_blockingRun_geared (haloof : audience.Aloof) (hgeared : Geared gear runner)
    (hattached : runner.attached = some position) (bound : Nat) :
    Yields (AbandonedAs (· = gear.idled))
      (blockingRun audience (rearmWithin audience bound) position) runner fun _ _ ↦ True := by
  rw [Yields, blockingRun_eq, ends_bind, ends_get]
  refine Yields.bind (writes_abandoned runner _ _ _) ?_
  rintro _ _ ⟨lines, rfl⟩
  have hdriven : Driven gear position (runner.withLines lines) :=
    (hgeared.withLines lines).driven hattached
  refine (yields_unabandoned (yields_blockingSteps_driven _ hdriven)).bind ?_
  intro outcome middle hmiddle
  exact (yields_conclude_geared haloof ⟨hmiddle.orderly, hmiddle.gear_eq⟩ outcome).bind
    fun _ _ hafter ↦ yields_againUnless_idle audience bound _ hafter

/-- Rearming is abandoned, if at all, by the blocking run that it makes. -/
theorem yields_rearm_geared (haloof : audience.Aloof) (hgeared : Geared gear runner) (bound : Nat) :
    Yields (AbandonedAs fun left ↦ gear.speed < 0 ∧ left = ⟨true, Speed.idle, none⟩)
      (rearmWithin audience bound) runner fun _ _ ↦ True := by
  cases bound with
  | zero => exact nofun
  | succ bound =>
    rw [rearmWithin_succ]
    refine Yields.bind (yields_disarm fun _ _ ↦ writes_abandoned _ _) ?_
    rintro _ _ ⟨generation, timers, lines, rfl⟩
    have hspeed : runner.session.speed = gear.speed := congrArg Gear.speed hgeared.2
    have hdisarmed : Orderly ((runner.disarmed generation timers).withLines lines) :=
      hgeared.1.of_same rfl rfl rfl rfl rfl
    refine ends_engage (fun _ ↦ trivial) (fun _ ↦ trivial) (fun hstepped cadence hcadence ↦ ?_)
      fun hnegative position hactive hattached ↦ ?_
    · by_cases hinterval : Speed.interval cadence ≤ 0
      · exact (ends_arm_of_refused hinterval).mpr nofun
      · exact Yields.mono (yields_arm hinterval (writes_abandoned _ _)) fun _ _ _ ↦ trivial
    · have hon : Geared ⟨true, gear.speed, none⟩
          ((runner.disarmed generation timers).withLines lines) := by
        refine ⟨hdisarmed, ?_⟩
        show Gear.mk (runner.session.active && runner.attached.isSome) runner.session.speed none = _
        rw [hspeed, show runner.session.active = true from hactive,
          show runner.attached = some position from hattached]
        rfl
      exact yields_abandoned_mono (yields_blockingRun_geared haloof hon hattached bound)
        fun _ hleft ↦ ⟨hspeed ▸ hnegative, hleft⟩

end Runner

/-- No instruction beside the program ends with the error of an observer. -/
theorem Run.ne_raised_of_aside (run : Run) (script : Script) (instruction message : String) :
    run.aside script instruction ≠ .error (.raised message) := by
  unfold Run.aside
  cases run.engine with
  | tape machine =>
    simp only
    split
    · next stop _ => cases stop <;> nofun
    · nofun
  | scripted counter =>
    simp only [Script.errorOf]
    split
    · next error hfound =>
      split at hfound
      · cases hfound
        nofun
      · split at hfound
        · cases hfound
          nofun
        · cases hfound
    · nofun

namespace Runner

variable {audience : Audience} {runner last : Runner} {gear : Gear} {position : Nat}

/-! ### The operations -/

/-- No engine is refused with the error of an observer. -/
theorem ne_raised_of_build {bench : Bench} (program message : String) :
    bench.build program ≠ .error (.raised message) := by
  unfold Bench.build
  split
  · nofun
  · split <;> nofun

/-- What is counted and reported after a step is abandoned, if at all, by an idle session. -/
theorem yields_concludeStep_geared (haloof : audience.Aloof) (hdriven : Driven gear position runner)
    (outcome : Except Fault Unit) :
    Yields (AbandonedAs (· = gear.idled)) (concludeStep audience position outcome) runner
      fun _ last ↦ Geared gear last ∨ Geared gear.idled last := by
  rcases outcome with fault | _
  · have hreport := yields_conclude_geared haloof ⟨hdriven.orderly, hdriven.gear_eq⟩ (.error fault)
    exact Yields.mono hreport fun _ _ hlast ↦ .inr hlast
  · have hcounted := hdriven.stepCounted
    obtain ⟨run, hrun⟩ := hdriven.exists_run
    refine (ends_concludeStep hrun).mpr ?_
    split
    · have hreport := yields_conclude_geared haloof ⟨hcounted.orderly, hcounted.gear_eq⟩ (.ok ())
      exact Yields.mono hreport fun _ _ hlast ↦ .inr hlast
    · exact .inl ⟨hcounted.orderly, hcounted.gear_eq⟩

/-- What is logged and told before rearming is abandoned in the gear in which it is told, or in the
midst of a blocking run. -/
theorem yields_announce_abandoned (haloof : audience.Aloof) (hgeared : Geared gear runner)
    (level : Level) (event : String) (fields : Fields) {told : Action Unit}
    (htold : Keeps (Geared gear) (AbandonedAs (· = gear)) told) :
    Yields (AbandonedAs fun left ↦ left = gear ∨ gear.speed < 0 ∧ left = ⟨true, Speed.idle, none⟩)
      (do log level event fields; told; rearm audience) runner fun _ _ ↦ True := by
  refine (keeps_log_geared level event fields runner hgeared).bind fun _ middle hmiddle ↦ ?_
  have hmore : Yields (AbandonedAs fun left ↦ left = gear ∨
      gear.speed < 0 ∧ left = ⟨true, Speed.idle, none⟩) told middle fun _ ↦ Geared gear :=
    yields_abandoned_mono (htold middle hmiddle) fun _ hleft ↦ .inl hleft
  refine hmore.bind fun _ after hafter ↦ ?_
  exact yields_abandoned_mono (yields_rearm_geared haloof hafter _) fun _ hleft ↦ .inr hleft

section Operations

variable (haloof : audience.Aloof) (horderly : runner.Orderly)
include haloof horderly

/-- A blocking run is abandoned idle, with the timer that it has found. -/
theorem yields_runBlocking_abandoned :
    Yields (AbandonedAs (· = runner.gear.idled)) (runBlocking audience) runner fun _ _ ↦ True := by
  rw [Yields, runBlocking, ends_bind, ends_requireRun]
  cases hattached : runner.attached with
  | none => exact abandonedAs_noSession _ _
  | some position => exact yields_blockingRun_geared haloof ⟨horderly, rfl⟩ hattached _

/-- A step is abandoned with the timer that it has found, at the speed that it has found or idle. -/
theorem yields_step_abandoned :
    Yields (AbandonedAs fun left ↦ left = runner.gear ∨ left = runner.gear.idled) (step audience)
      runner fun _ _ ↦ True := by
  cases hattached : runner.attached with
  | none =>
    rw [Yields, step_eq, ends_bind, ends_requireRun, hattached]
    exact abandonedAs_noSession _ _
  | some position =>
    refine (ends_step hattached).mpr ?_
    have hwiped : Geared runner.gear runner.wiped := ⟨horderly.of_same rfl rfl rfl rfl rfl, rfl⟩
    have hadvanced : Yields cutOff (attempt (advance audience position)) runner.wiped
        fun _ ↦ Driven runner.gear position :=
      Yields.attempt (yields_advance (hwiped.driven hattached))
    refine (yields_unabandoned hadvanced).bind fun outcome middle hmiddle ↦ ?_
    have hconcluded := yields_concludeStep_geared haloof hmiddle outcome
    refine (yields_abandoned_mono hconcluded fun _ hleft ↦ .inr hleft).bind fun _ after hafter ↦ ?_
    rcases hafter with hsame | hidled
    · have htell := keeps_tell_geared haloof .stepped after hsame
      refine (yields_abandoned_mono htell fun _ hleft ↦ .inl hleft).bind fun _ told htold ↦ ?_
      have hspeed : told.session.speed = runner.session.speed := congrArg Gear.speed htold.2
      rw [Yields, ends_againUnless_of_same hspeed]
      trivial
    · have htell := keeps_tell_geared haloof .stepped after hidled
      refine (yields_abandoned_mono htell fun _ hleft ↦ .inr hleft).bind fun _ told htold ↦ ?_
      exact yields_againUnless_idle audience _ _ htold

/-- The call of a timer is abandoned as its step is. -/
theorem yields_callTimer_abandoned (index : Nat) :
    Yields (AbandonedAs fun left ↦ left = runner.gear ∨ left = runner.gear.idled)
      (callTimer audience index) runner fun _ _ ↦ True := by
  rw [Yields, callTimer, ends_bind, ends_get]
  simp only
  split
  · rw [tick, ends_bind, ends_get]
    simp only
    split
    · exact yields_step_abandoned haloof horderly
    · trivial
  · rintro message ⟨⟩

/-- A change of speed is abandoned at the new speed with the timer that it has found, or in the
midst of a blocking run that it has begun. -/
theorem yields_setSpeed_abandoned {speed : Int}
    (hspeed : Speed.blocking ≤ speed ∧ speed ≤ Speed.top) :
    Yields (AbandonedAs fun left ↦ left = { runner.gear with speed } ∨
        speed < 0 ∧ left = ⟨true, Speed.idle, none⟩)
      (setSpeed audience speed) runner fun _ _ ↦ True := by
  rw [Yields, setSpeed_eq, ends_bind, ends_get]
  simp only
  split
  · rw [modifySession, ends_bind, ends_modify]
    refine yields_announce_abandoned haloof ⟨horderly.withSpeed hspeed, rfl⟩ _ _ _ ?_
    refine Keeps.get_bind fun shown hshown ↦ ?_
    split
    · exact keeps_tell_geared haloof _ shown hshown
    · exact hshown
  · trivial

/-- A start is abandoned with its speed and without a timer, or in the midst of a blocking run. -/
theorem yields_start_abandoned (program : String) (options : StartOptions) :
    Yields (AbandonedAs fun left ↦ left = ⟨true, options.initialSpeed, none⟩ ∨
        options.initialSpeed < 0 ∧ left = ⟨true, Speed.idle, none⟩)
      (start audience program options) runner fun _ _ ↦ True := by
  cases hbuild : runner.bench.build program with
  | error error =>
    refine (ends_start_of_unbuilt hbuild).mpr ?_
    rintro message ⟨⟩
    exact absurd hbuild (ne_raised_of_build program message)
  | ok run =>
    refine yields_start_of_writes hbuild (fun _ _ ↦ writes_abandoned _ _) fun lines ↦ ?_
    have hbegun : Geared ⟨true, options.initialSpeed, none⟩
        ((runner.begun options run).withLines lines) :=
      ⟨(horderly.begun hbuild).withLines lines, rfl⟩
    exact yields_announce_abandoned haloof hbegun _ _ _ (keeps_tell_geared haloof _)

/-- A stop is abandoned once the session is over. -/
theorem yields_stop_abandoned :
    Yields (AbandonedAs (· = ⟨false, runner.session.speed, none⟩)) (stop audience) runner
      fun _ _ ↦ True := by
  cases hactive : runner.session.active with
  | false =>
    rw [Yields, ends_stop_of_inactive hactive]
    trivial
  | true =>
    refine yields_stop_of_writes hactive (fun _ _ ↦ writes_abandoned _ _) fun lines ↦ ?_
    have hended : Geared ⟨false, runner.session.speed, none⟩ (runner.ended.withLines lines) :=
      ⟨horderly.ended.withLines lines, rfl⟩
    refine (keeps_log_geared _ _ _ _ hended).bind fun _ middle hmiddle ↦ ?_
    exact (keeps_tell_geared haloof _ middle hmiddle).bind fun _ _ _ ↦ trivial

/-- An injection is abandoned without a change. -/
theorem yields_inject_abandoned (instruction : String) :
    Yields (AbandonedAs (· = runner.gear)) (inject audience instruction) runner
      fun _ _ ↦ True := by
  rw [Yields, inject_eq, ends_bind, ends_requireRun]
  cases hattached : runner.attached with
  | none => exact abandonedAs_noSession _ _
  | some position =>
    have hdriven : Driven runner.gear position runner :=
      ⟨horderly, rfl, horderly.attached_lt position hattached⟩
    have hexecuted : Yields (orFault (Driven runner.gear position) (AbandonedAs (· = runner.gear)))
        (execute audience position instruction) runner fun _ ↦ Driven runner.gear position := by
      refine yields_execute hdriven instruction fun run error haside message hraised ↦ ?_
      cases hraised
      exact absurd haside (run.ne_raised_of_aside _ _ _)
    refine (Yields.attempt hexecuted).bind fun outcome middle hmiddle ↦ ?_
    have haccept : Keeps (Geared runner.gear) (AbandonedAs (· = runner.gear))
        (acceptance instruction outcome) := by
      rcases outcome with fault | _
      · exact Keeps.bind (keeps_log_geared _ _ _) fun _ ↦ Keeps.pure false
      · exact Keeps.pure true
    refine (haccept middle ⟨hmiddle.orderly, hmiddle.gear_eq⟩).bind fun accepted after hafter ↦ ?_
    exact (keeps_tell_geared haloof _ after hafter).bind fun _ _ _ ↦ trivial

end Operations

/-- An activity ends with an error of an observer. -/
def Abandons {Result : Type} (activity : Action Result) (runner last : Runner) : Prop :=
  ∃ message, runFrom activity runner = (.error (.raised (.raised message)), last)

theorem Abandons.leaves {Result : Type} {activity : Action Result} {left : Gear → Prop}
    {required : Result → Runner → Prop} (habandons : Abandons activity runner last)
    (hyields : Yields (AbandonedAs left) activity runner required) : left last.gear := by
  obtain ⟨message, hrun⟩ := habandons
  exact hyields.of_runFrom hrun message rfl

/-- The gears in which the operations are left by an error of an observer. None of them has a timer
that was not there before. -/
structure LeftByErrors (audience : Audience) (runner : Runner) : Prop where
  start : ∀ program options last, Abandons (start audience program options) runner last →
    last.gear = ⟨true, options.initialSpeed, none⟩ ∨
      options.initialSpeed < 0 ∧ last.gear = ⟨true, Speed.idle, none⟩
  stop : ∀ last, Abandons (stop audience) runner last →
    last.gear = ⟨false, runner.session.speed, none⟩
  step : ∀ last, Abandons (step audience) runner last →
    last.gear = runner.gear ∨ last.gear = runner.gear.idled
  callTimer : ∀ index last, Abandons (callTimer audience index) runner last →
    last.gear = runner.gear ∨ last.gear = runner.gear.idled
  runBlocking : ∀ last, Abandons (runBlocking audience) runner last →
    last.gear = runner.gear.idled
  setSpeed : ∀ speed last, Speed.blocking ≤ speed ∧ speed ≤ Speed.top →
    Abandons (setSpeed audience speed) runner last →
      last.gear = { runner.gear with speed } ∨
        speed < 0 ∧ last.gear = ⟨true, Speed.idle, none⟩
  inject : ∀ instruction last, Abandons (inject audience instruction) runner last →
    last.gear = runner.gear

/-- Observers that keep away from the gear leave an operation as it was when they raised. -/
theorem leftByErrors (haloof : audience.Aloof) (horderly : runner.Orderly) :
    LeftByErrors audience runner where
  start program options _ habandons :=
    habandons.leaves (yields_start_abandoned haloof horderly program options)
  stop _ habandons := habandons.leaves (yields_stop_abandoned haloof horderly)
  step _ habandons := habandons.leaves (yields_step_abandoned haloof horderly)
  callTimer index _ habandons := habandons.leaves (yields_callTimer_abandoned haloof horderly index)
  runBlocking _ habandons := habandons.leaves (yields_runBlocking_abandoned haloof horderly)
  setSpeed _ _ hspeed habandons :=
    habandons.leaves (yields_setSpeed_abandoned haloof horderly hspeed)
  inject instruction _ habandons :=
    habandons.leaves (yields_inject_abandoned haloof horderly instruction)

/-- A change to a stepped speed that is abandoned is in time just if the timer that was there has
the interval of the new speed. -/
theorem LeftByErrors.inTime_setSpeed_iff (hleft : LeftByErrors audience runner)
    (hon : runner.gear.on = true) {speed : Int} (hstepped : 0 < speed) (htop : speed ≤ Speed.top)
    (habandons : Abandons (Runner.setSpeed audience speed) runner last) :
    last.InTime ↔ runner.beat? = (Speed.cadence? speed).map Speed.interval := by
  have hblocking : Speed.blocking ≤ speed := by
    unfold Speed.blocking
    omega
  have hgear : last.gear = { runner.gear with speed } :=
    (hleft.setSpeed speed last ⟨hblocking, htop⟩ habandons).resolve_right fun h ↦ by omega
  rw [inTime_iff_fits, hgear, Gear.Fits, if_pos hon]
  exact Iff.rfl

/-- When errors of observers put the timer out of time. If observers raise errors only where the
timer fits, it fits after every order, be it abandoned or not, and whatever lawful orders the
observers give besides. But an error ends an operation where it is raised, and nothing is rearmed
any more: whatever an operation has done to the speed, it leaves the timer that it has found, or
none. So a change to a stepped speed that is abandoned is in time only if it changes nothing for the
timer. -/
theorem timed_unless_abandoned {start : Runner} {bench : Bench} {hooks : List Hook}
    {journal : Journal} (hstart : fresh bench hooks journal = .ok start)
    (hplain : ∀ hook ∈ hooks, hook.trigger ≠ .output) (hcrashes : bench.script.crashes = []) :
    (∀ conduct : Nat → Runner → Conduct,
      (∀ position runner, (conduct position runner).Minds MayRaise runner) →
      ∀ patience depth orders, (∀ order ∈ orders, Order.Lawful order) →
        let carried := carryOut (.conducted conduct patience depth) orders start
        (∀ halt, .error halt ∈ carried.1 → ¬ halt.CutsOff) → carried.2.Timed) ∧
    ∀ audience runner, Audience.Aloof audience → Orderly runner →
      LeftByErrors audience runner ∧
        ∀ speed last, runner.gear.on = true → 0 < speed → speed ≤ Speed.top →
          Abandons (setSpeed audience speed) runner last →
            (last.InTime ↔ runner.beat? = (Speed.cadence? speed).map Speed.interval) := by
  constructor
  · intro conduct hminds patience depth orders horders carried hwhole
    have hready := ready_of_fresh hstart hplain hcrashes
    have hsuited := suited_carryOut (steadyAs_conducted hminds patience depth) horders
      ⟨hready.orderly, hready.settled.fits⟩ hwhole
    have hreact (position : Nat) :
        Preserves Sole ((Audience.conducted conduct patience depth).react position) := by
      have hkept :=
        upheldThroughout_sole.preserves_react (fun _ ↦ false) conduct patience depth
      rw [Audience.conductedUntil_never] at hkept
      exact hkept position
    have hsole : carried.2.Sole := preserved_carryOut
      (fun order _ ↦ upheldThroughout_sole.preserves_obey hreact order) (sole_of_fresh hstart)
    exact hsole.timed (inTime_iff_fits.mpr hsuited.2)
  · intro audience runner haloof horderly
    have hleft := leftByErrors haloof horderly
    exact ⟨hleft, fun speed last hon hstepped htop habandons ↦
      hleft.inTime_setSpeed_iff hon hstepped htop habandons⟩

/-- Raises an error wherever there is no timer and the speed asks for none. -/
def raisesUntimed (_ : Nat) (runner : Runner) : Conduct :=
  if runner.session.speed ≤ 0 ∧ runner.armed = false then .raise (.raised "boom") else .rest

theorem minds_raisesUntimed (position : Nat) (runner : Runner) :
    (raisesUntimed position runner).Minds MayRaise runner := by
  unfold raisesUntimed
  split
  · next huntimed =>
    have hbeat : runner.beat? = none := by simpa [armed_eq] using huntimed.2
    exact .inr (inTime_iff_fits.mpr (.of_not_stepped huntimed.1 hbeat))
  · trivial

/-- Raises an error at every call. -/
def raisesAlways (_ : Nat) (_ : Runner) : Conduct := .raise (.raised "boom")

theorem aloof_raisesAlways (patience depth : Nat) :
    (Audience.conducted raisesAlways patience (depth + 1)).Aloof := by
  intro position gear runner hgeared
  refine ends_react_conducted.mpr ?_
  exact ⟨hgeared.1.of_same rfl rfl rfl rfl rfl, hgeared.2⟩

/-- The outcome of an order is not that it was cut off. -/
def goesThrough : Except Halt Reply → Bool
  | .error .unfinished => false
  | .error (.raised error) => !error.isRefusal
  | .ok _ => true

/-- The error of an observer, if an operation ends with one. -/
def raisedMessage? : Except Halt Unit → Option String
  | .error (.raised (.raised message)) => some message
  | _ => none

theorem eq_of_raisedMessage? {outcome : Except Halt Unit} {message : String}
    (hraised : raisedMessage? outcome = some message) :
    outcome = .error (.raised (.raised message)) := by
  unfold raisedMessage? at hraised
  split at hraised
  · rw [Option.some.inj hraised]
  · cases hraised

/-- An observer of the speed raises an error in the midst of a change to the blocking speed, and the
next change of speed goes through. An error in the midst of the one after that leaves a timer at the
interval of the speed before. -/
theorem timed_unless_abandoned_midway :
    ∃ start carried last, fresh ⟨.tape, 2, "", 0, .empty⟩
        [⟨.event "session.speed_changed", [], []⟩] .initial = .ok start ∧
      carried = carryOut (.conducted raisesUntimed 10 2)
        [.start "++" ⟨false, false⟩, .setSpeed (-1), .setSpeed 5] start ∧
      carried.1.map (·.isOk) = [true, false, true] ∧ carried.2.session.speed = 5 ∧
        carried.2.Timed ∧
      Abandons (setSpeed (.conducted raisesAlways 10 2) 7) carried.2 last ∧
        last.session.speed = 7 ∧ ¬ last.InTime := by
  obtain ⟨start, hstart⟩ : ∃ start, fresh ⟨.tape, 2, "", 0, .empty⟩
      [⟨.event "session.speed_changed", [], []⟩] .initial = .ok start := ⟨_, rfl⟩
  obtain ⟨orders, horders⟩ : ∃ orders : List Order,
      orders = [.start "++" ⟨false, false⟩, .setSpeed (-1), .setSpeed 5] := ⟨_, rfl⟩
  have hlawful : ∀ order ∈ orders, order.Lawful := by
    simp [horders, Order.Lawful, Speed.blocking, Speed.top]
  obtain ⟨carried, hcarried⟩ :
      ∃ carried, carried = carryOut (.conducted raisesUntimed 10 2) orders start := ⟨_, rfl⟩
  have hcarries : carried.1.map (·.isOk) = [true, false, true] ∧
      carried.1.all goesThrough = true ∧
      carried.2.session.speed = 5 ∧ carried.2.gear.on = true ∧
      carried.2.beat? ≠ (Speed.cadence? 7).map Speed.interval := by
    cases hstart
    subst hcarried horders
    decide +kernel
  obtain ⟨hanswers, hall, hspeed, hon, hother⟩ := hcarries
  have hwhole (halt : Halt) (hhalt : .error halt ∈ carried.1) : ¬ halt.CutsOff := by
    have hgoes := List.all_eq_true.mp hall _ hhalt
    rcases halt with error | _
    · simpa [goesThrough, Halt.CutsOff] using hgoes
    · cases hgoes
  -- Before the last change of speed, the session is in order.
  have hready := ready_of_fresh hstart (by decide) rfl
  have hsuited := suited_carryOut (steadyAs_conducted minds_raisesUntimed 10 2) hlawful
    ⟨hready.orderly, hready.settled.fits⟩ (hcarried ▸ hwhole)
  rw [← hcarried] at hsuited
  obtain ⟨ended, hended⟩ :
      ∃ ended, ended = runFrom (setSpeed (.conducted raisesAlways 10 2) 7) carried.2 := ⟨_, rfl⟩
  have hends : raisedMessage? ended.1 = some "boom" ∧ ended.2.session.speed = 7 := by
    cases hstart
    subst hended hcarried horders
    decide +kernel
  have habandons : Abandons (setSpeed (.conducted raisesAlways 10 2) 7) carried.2 ended.2 :=
    ⟨"boom", hended.symm.trans (Prod.ext (eq_of_raisedMessage? hends.1) rfl)⟩
  obtain ⟨htimed, habandoned⟩ := timed_unless_abandoned hstart (by decide) rfl
  have hcarriedTimed := htimed raisesUntimed minds_raisesUntimed 10 2 orders hlawful
    (hcarried ▸ hwhole)
  have hleft := (habandoned _ _ (aloof_raisesAlways 10 1) hsuited.1).2 7 ended.2 hon (by decide)
    (by decide) habandons
  exact ⟨start, carried, ended.2, hstart, horders ▸ hcarried, hanswers, hspeed,
    hcarried ▸ hcarriedTimed, habandons, hends.2, fun hinTime ↦ hother (hleft.mp hinTime)⟩

end Runner

end TapeRunner
