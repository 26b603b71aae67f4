import TapeRunner.Proofs.Session.Reachable
import TapeRunner.Proofs.Session.Timing

/-!
# Observers of the output that change the speed

A change of speed always rearms, so an observer of the output that does nothing else leaves a timer
that fits, in the midst of an instruction as well (`Runner.keeps_setSpeed_tuned`,
`Runner.keeps_react_tuned`). What comes after the instruction turns the session idle and leaves the
timer for later. A blocking run rearms in any case, since it is made at another speed than the idle
one (`Runner.yields_blockingRun_tuned`). But a step rearms only if the session was not idle when it
began: if an idle session is stepped to the end of its program and the observers have left a timer,
that timer stays (`Runner.yields_step_tuned`). In every other case the timer fits when the operation
returns (`Runner.in_time_unless_ended_armed`).
-/

set_option autoImplicit false
set_option relaxedAutoImplicit false

namespace TapeRunner

open Activity

/-- An order that changes the speed and nothing else. -/
def Order.Tunes : Order → Prop
  | .setSpeed _ | .faster | .slower | .pause | .superSpeed => True
  | _ => False

/-- An observer that does nothing but change the speed any number of times, and passes on what is
raised by that. -/
def Conduct.Tunes : Conduct → Prop
  | .rest => True
  | .raise _ => False
  | .give order next => order.Tunes ∧ (∀ reply after, (next (.ok reply) after).Tunes) ∧
      ∀ error after, next (.error error) after = .raise error

/-- Changes the speed to one after the other. -/
def Conduct.tuning : List Int → Conduct
  | [] => .rest
  | speed :: later => .give (.setSpeed speed) fun outcome _ ↦
    match outcome with
    | .ok _ => tuning later
    | .error error => .raise error

theorem Conduct.tunes_tuning (speeds : List Int) : (Conduct.tuning speeds).Tunes := by
  induction speeds with
  | nil => exact trivial
  | cons speed later ih => exact ⟨trivial, fun _ _ ↦ ih, fun _ _ ↦ rfl⟩

namespace Runner

/-- No fault is the end. -/
abbrev unfaulted (halt : Halt) (_ : Runner) : Prop := ∀ fault, halt ≠ .raised (.fault fault)

/-- The bus and where the session is attached are the given ones, and the gear is one that suits. -/
structure TunedAs (bus : Bus Observer) (attached : Option Nat) (suits : Gear → Prop)
    (runner : Runner) : Prop where
  bus_eq : runner.bus = bus
  attached_eq : runner.attached = attached
  suits_gear : suits runner.gear

end Runner

/-- Observers of events leave every gear alone, and all others leave a timer that fits if they find
one. -/
structure Audience.Tuning (audience : Audience) (bus : Bus Observer) : Prop where
  rests : ∀ type position, .hook position ∈ bus.recipients type → ∀ attached suits,
    Keeps (Runner.TunedAs bus attached suits) Runner.unfaulted (audience.react position)
  keeps : ∀ position attached, Keeps (Runner.TunedAs bus attached Gear.Fits) Runner.unfaulted
    (audience.react position)

namespace Runner

variable {audience : Audience} {runner last : Runner} {position : Nat} {bus : Bus Observer}
variable {attached : Option Nat} {suits : Gear → Prop} {gear : Gear}

theorem writes_unfaulted (runner : Runner) (fields : Fields) : runner.Writes unfaulted fields := by
  refine writes_of_refusal fun error hrefusal fault hfault ↦ ?_
  cases hfault
  exact absurd hrefusal Bool.false_ne_true

theorem unfaulted_unfinished (runner : Runner) : unfaulted .unfinished runner := by
  rintro fault ⟨⟩

theorem unfaulted_broken (table : Table) (runner : Runner) :
    unfaulted (.raised (.broken table)) runner := by
  rintro fault ⟨⟩

theorem unfaulted_noSession (operation : String) (runner : Runner) :
    unfaulted (.raised (.noSession operation)) runner := by
  rintro fault ⟨⟩

theorem TunedAs.same (htuned : TunedAs bus attached suits runner) (hbus : last.bus = runner.bus)
    (hattached : last.attached = runner.attached) (hgear : last.gear = runner.gear) :
    TunedAs bus attached suits last :=
  ⟨hbus.trans htuned.bus_eq, hattached.trans htuned.attached_eq, hgear ▸ htuned.suits_gear⟩

theorem TunedAs.at_gear (htuned : TunedAs bus attached suits runner) :
    TunedAs bus attached (· = runner.gear) runner :=
  ⟨htuned.bus_eq, htuned.attached_eq, rfl⟩

theorem TunedAs.mono (htuned : TunedAs bus attached (· = gear) runner) (hsuits : suits gear) :
    TunedAs bus attached suits runner :=
  ⟨htuned.bus_eq, htuned.attached_eq, htuned.suits_gear ▸ hsuits⟩

/-! ### Lines, events and reports -/

theorem keeps_log_tuned (level : Level) (event : String) (fields : Fields) :
    Keeps (TunedAs bus attached suits) unfaulted (log level event fields) :=
  keeps_log level event (fun runner _ ↦ writes_unfaulted runner fields)
    fun _ _ htuned ↦ htuned.same rfl rfl rfl

theorem keeps_tell_tuned (htuning : audience.Tuning bus) (kind : EventKind) :
    Keeps (TunedAs bus attached suits) unfaulted (tell audience kind) := by
  intro runner htuned
  refine yields_tell_of_recipients (fun runner _ ↦ writes_unfaulted runner _)
    (fun _ _ htuned ↦ htuned.same rfl rfl rfl) (fun _ _ htuned ↦ htuned.same rfl rfl rfl)
    (fun position hheard ↦ ?_) (htuned.same rfl rfl rfl)
  rw [htuned.bus_eq] at hheard
  exact htuning.rests _ position hheard attached suits

theorem yields_conclude_tuned (htuning : audience.Tuning bus)
    (htuned : TunedAs bus attached (· = gear) runner) (outcome : Except Fault Unit) :
    Yields unfaulted (conclude audience outcome) runner
      fun _ ↦ TunedAs bus attached (· = gear.idled) := by
  have hidled (status : Status) :
      TunedAs bus attached (· = gear.idled) (runner.idledWith status) :=
    ⟨htuned.bus_eq, htuned.attached_eq, congrArg Gear.idled htuned.suits_gear⟩
  rcases outcome with fault | _
  · refine (ends_reportFault fault).mpr ?_
    exact (keeps_log_tuned _ _ _).bind (fun _ ↦ keeps_tell_tuned htuning _) _ (hidled _)
  · refine ends_reportEnd.mpr ?_
    exact (keeps_log_tuned _ _ _).bind (fun _ ↦ keeps_tell_tuned htuning _) _ (hidled _)

/-! ### Steps of the engine -/

/-- An instruction that faults has changed nothing; any other leaves what its observers leave. -/
theorem yields_advance_tuned (htuning : audience.Tuning bus)
    (htuned : TunedAs bus attached Gear.Fits runner) :
    Yields (fun halt last ↦ ∀ fault, halt = .raised (.fault fault) → last = runner)
      (advance audience position) runner fun _ ↦ TunedAs bus attached Gear.Fits := by
  cases hrun : runner.runs[position]? with
  | none =>
    rw [Yields, advance, ends_bind, ends_runAt_iff, hrun]
    exact fun _ _ ↦ rfl
  | some run =>
    refine (ends_advance hrun).mpr ?_
    cases run.turn runner.bench.script with
    | error error => exact fun _ _ ↦ rfl
    | ok turned =>
      obtain ⟨effect?, counter⟩ := turned
      have hsettled : Yields unfaulted (settleAny audience position effect?) runner
          fun _ ↦ TunedAs bus attached Gear.Fits :=
        yields_settleAny (fun _ ↦ htuned) (fun _ _ ↦ htuned.same rfl rfl rfl)
          fun sink _ ↦ htuning.keeps sink attached
      refine Ends.mono hsettled fun outcome middle hmiddle ↦ ?_
      rcases outcome with halt | _
      · exact fun fault hfault ↦ absurd hfault (hmiddle fault)
      · exact hmiddle.same rfl rfl rfl

/-- After an attempt at an instruction, the timer fits; a fault has changed nothing. -/
theorem yields_attempt_advance_tuned (htuning : audience.Tuning bus)
    (htuned : TunedAs bus attached Gear.Fits runner) :
    Yields unfaulted (attempt (advance audience position)) runner fun outcome last ↦
      TunedAs bus attached Gear.Fits last ∧ ∀ fault, outcome = .error fault → last = runner := by
  refine ends_attempt.mpr (Ends.mono (yields_advance_tuned htuning htuned) ?_)
  intro outcome middle hmiddle
  rcases outcome with halt | _
  · rcases halt with error | _
    · cases error with
      | fault fault =>
        obtain rfl := hmiddle fault rfl
        exact ⟨htuned, fun _ _ ↦ rfl⟩
      | _ => nofun
    · nofun
  · exact ⟨hmiddle, nofun⟩

/-- The loop of a blocking run leaves a timer that fits. -/
theorem yields_blockingSteps_tuned (htuning : audience.Tuning bus) (patience : Nat)
    (htuned : TunedAs bus attached Gear.Fits runner) :
    Yields unfaulted (attempt (blockingSteps audience position patience)) runner
      fun _ ↦ TunedAs bus attached Gear.Fits := by
  refine Yields.attempt (Yields.mono (yields_blockingSteps (fun _ _ ↦ nofun) (fun _ _ _ ↦ nofun)
    (fun middle _ hmiddle _ _ _ ↦ ?_) patience htuned) fun _ _ hlast ↦ hlast.1)
  refine Yields.mono (Yields.allow (yields_advance_tuned htuning hmiddle)
    fun halt last hlast ↦ ?_) fun _ _ hlast ↦ hlast.same rfl rfl rfl
  rcases halt with error | _
  · cases error with
    | fault fault =>
      obtain rfl := hlast fault rfl
      exact hmiddle
    | _ => nofun
  · nofun

/-- The loop of a blocking run does nothing at another speed than the blocking one. -/
theorem yields_blockingSteps_of_other (hspeed : runner.session.speed ≠ Speed.blocking)
    (patience : Nat) :
    Yields unfaulted (attempt (blockingSteps audience position patience)) runner
      fun _ last ↦ last = runner := by
  have hstops : Yields (orFault (· = runner) unfaulted) (blockingSteps audience position patience)
      runner fun _ ↦ (· = runner) := by
    cases patience with
    | zero => exact unfaulted_unfinished runner
    | succ patience =>
      cases hrun : runner.runs[position]? with
      | none =>
        rw [Yields, blockingSteps, ends_bind, ends_runAt_iff, hrun]
        exact unfaulted_broken _ runner
      | some run => exact (ends_blockingSteps_of_stops hrun (.inl hspeed)).mpr rfl
  exact hstops.attempt

/-! ### Rearming -/

section Again

variable {again : Action Unit}
variable (hagain : ∀ runner, TunedAs bus attached (fun _ ↦ True) runner →
  Yields unfaulted again runner fun _ ↦ TunedAs bus attached Gear.Fits)
include hagain

/-- Whoever goes on at another speed leaves a timer that fits; whoever does not has left the gear
alone. -/
theorem yields_againUnless_tuned (htuned : TunedAs bus attached (· = gear) runner) (speed : Int) :
    Yields unfaulted (againUnless speed again) runner fun _ last ↦
      gear.speed ≠ speed ∧ TunedAs bus attached Gear.Fits last ∨
        gear.speed = speed ∧ TunedAs bus attached (· = gear) last := by
  have hgear : runner.session.speed = gear.speed := congrArg Gear.speed htuned.suits_gear
  by_cases hspeed : gear.speed = speed
  · exact (ends_againUnless_of_same (hgear.trans hspeed)).mpr (.inr ⟨hspeed, htuned⟩)
  · refine (ends_againUnless_of_other (hgear ▸ hspeed)).mpr ?_
    exact Yields.mono (hagain runner (htuned.mono trivial)) fun _ _ hlast ↦ .inl ⟨hspeed, hlast⟩

/-- A blocking run leaves a timer that fits: it rearms, or it was made by an idle session and has
changed nothing. -/
theorem yields_blockingRun_tuned (htuning : audience.Tuning bus)
    (htuned : TunedAs bus attached Gear.Fits runner) :
    Yields unfaulted (blockingRun audience again position) runner
      fun _ ↦ TunedAs bus attached Gear.Fits := by
  rw [Yields, blockingRun_eq, ends_bind, ends_get]
  refine Yields.bind (writes_unfaulted runner _ _ _) ?_
  rintro _ _ ⟨lines, rfl⟩
  have hlogged : TunedAs bus attached Gear.Fits (runner.withLines lines) := htuned.same rfl rfl rfl
  have hsteps : Yields unfaulted (attempt (blockingSteps audience position audience.patience))
      (runner.withLines lines) fun _ middle ↦ TunedAs bus attached Gear.Fits middle ∧
        (runner.session.speed = Speed.idle → middle.gear = runner.gear) := by
    by_cases hidle : runner.session.speed = Speed.idle
    · have hother : (runner.withLines lines).session.speed ≠ Speed.blocking :=
        fun hblocking ↦ absurd (hidle.symm.trans hblocking) (by decide)
      refine Yields.mono (yields_blockingSteps_of_other hother _) ?_
      rintro _ _ rfl
      exact ⟨hlogged, fun _ ↦ rfl⟩
    · exact Yields.mono (yields_blockingSteps_tuned htuning _ hlogged)
        fun _ _ hmiddle ↦ ⟨hmiddle, fun h ↦ absurd h hidle⟩
  refine hsteps.bind ?_
  rintro outcome middle ⟨hmiddle, hsame⟩
  refine (yields_conclude_tuned htuning hmiddle.at_gear outcome).bind ?_
  intro _ after hafter
  refine Yields.mono (yields_againUnless_tuned hagain hafter _) fun _ last hlast ↦ ?_
  rcases hlast with ⟨-, hrearmed⟩ | ⟨hspeed, hkept⟩
  · exact hrearmed
  · have hidled : runner.gear.idled = runner.gear := Gear.idled_eq_self hspeed.symm
    rw [hsame hspeed.symm, hidled] at hkept
    exact hkept.mono htuned.suits_gear

/-- Without a timer, what the session goes on with leaves a timer that fits. -/
theorem yields_engage_tuned (htuning : audience.Tuning bus)
    (htuned : TunedAs bus attached suits runner) (hbeat : runner.beat? = none) :
    Yields unfaulted (engage audience again) runner
      fun _ ↦ TunedAs bus attached Gear.Fits := by
  have hfits (h : runner.gear.Fits) : TunedAs bus attached Gear.Fits runner :=
    ⟨htuned.bus_eq, htuned.attached_eq, h⟩
  by_cases hon : (runner.session.active && runner.attached.isSome) = true
  · refine ends_engage (fun hoff ↦ absurd (hon.symm.trans hoff) nofun)
      (fun hidle ↦ hfits (.of_not_stepped (Int.le_of_eq hidle) hbeat))
      (fun hstepped cadence hcadence ↦ ?_) fun hnegative position _ _ ↦ ?_
    · by_cases hinterval : Speed.interval cadence ≤ 0
      · exact (ends_arm_of_refused hinterval).mpr nofun
      · refine Yields.mono (yields_arm hinterval (writes_unfaulted _ _)) ?_
        rintro _ _ ⟨lines, rfl⟩
        exact ⟨htuned.bus_eq, htuned.attached_eq, (settled_armedAt hon hstepped hcadence).fits⟩
    · exact yields_blockingRun_tuned hagain htuning
        (hfits (.of_not_stepped (Int.le_of_lt hnegative) hbeat))
  · have hoff := Bool.eq_false_iff.mpr hon
    exact (ends_engage_of_off hoff).mpr (hfits (Gear.Settled.of_off hoff hbeat).fits)

end Again

/-- Rearming leaves a timer that fits, whatever it finds. -/
theorem yields_rearm_tuned (htuning : audience.Tuning bus)
    (htuned : TunedAs bus attached suits runner) (bound : Nat) :
    Yields unfaulted (rearmWithin audience bound) runner
      fun _ ↦ TunedAs bus attached Gear.Fits := by
  induction bound generalizing runner suits with
  | zero => exact unfaulted_unfinished runner
  | succ bound ih =>
    rw [rearmWithin_succ]
    refine Yields.bind (yields_disarm fun _ _ ↦ writes_unfaulted _ _) ?_
    rintro _ _ ⟨generation, timers, lines, rfl⟩
    have hdisarmed : TunedAs bus attached (fun _ ↦ True)
        ((runner.disarmed generation timers).withLines lines) :=
      ⟨htuned.bus_eq, htuned.attached_eq, trivial⟩
    exact yields_engage_tuned (fun _ htuned ↦ ih htuned) htuning hdisarmed rfl

/-! ### Changes of speed -/

/-- Whoever changes the speed leaves a timer that fits. -/
theorem keeps_setSpeed_tuned (htuning : audience.Tuning bus) (speed : Int) :
    Keeps (TunedAs bus attached Gear.Fits) unfaulted (setSpeed audience speed) := by
  intro runner htuned
  rw [setSpeed_eq]
  refine Keeps.get_bind (fun runner htuned ↦ ?_) runner htuned
  split
  · rw [Yields, modifySession, ends_bind, ends_modify]
    have hchanged : TunedAs bus attached (fun _ ↦ True) (runner.withSpeed speed) :=
      ⟨htuned.bus_eq, htuned.attached_eq, trivial⟩
    refine (keeps_log_tuned _ _ _ _ hchanged).bind fun _ middle hmiddle ↦ ?_
    have htell : Keeps (TunedAs bus attached fun _ ↦ True) unfaulted
        (tellChange audience runner.session.speed) := by
      refine Keeps.get_bind fun shown hshown ↦ ?_
      split
      · exact keeps_tell_tuned htuning _ shown hshown
      · exact hshown
    exact (htell middle hmiddle).bind fun _ _ hafter ↦ yields_rearm_tuned htuning hafter _
  · exact htuned

theorem keeps_obey_tuned (htuning : audience.Tuning bus) {order : Order} (htunes : order.Tunes) :
    Keeps (TunedAs bus attached Gear.Fits) unfaulted (obey audience order) := by
  have hanswer {activity : Action Unit}
      (hkeeps : Keeps (TunedAs bus attached Gear.Fits) unfaulted activity) :
      Keeps (TunedAs bus attached Gear.Fits) unfaulted (do activity; return Reply.nothing) :=
    hkeeps.bind fun _ ↦ Keeps.pure _
  cases order with
  | setSpeed speed => exact hanswer (keeps_setSpeed_tuned htuning speed)
  | faster => exact hanswer (Keeps.get_bind fun _ ↦ keeps_setSpeed_tuned htuning _ _)
  | slower =>
    refine hanswer (Keeps.get_bind fun runner htuned ↦ ?_)
    simp only
    split
    · exact keeps_setSpeed_tuned htuning _ runner htuned
    · exact htuned
  | pause => exact hanswer (keeps_setSpeed_tuned htuning _)
  | superSpeed => exact hanswer (keeps_setSpeed_tuned htuning _)
  | _ => exact htunes.elim

/-- An observer that changes the speed leaves a timer that fits. -/
theorem keeps_perform_tuned (htuning : audience.Tuning bus) {conduct : Conduct}
    (htunes : conduct.Tunes) :
    Keeps (TunedAs bus attached Gear.Fits) unfaulted (conduct.perform audience) := by
  induction conduct with
  | rest => exact Keeps.pure ()
  | raise error => exact htunes.elim
  | give order next ih =>
    obtain ⟨horder, hnext, hpasses⟩ := htunes
    intro runner htuned
    rw [Yields, Conduct.perform, ends_bind, ends_caught]
    refine Ends.mono (keeps_obey_tuned htuning horder runner htuned) ?_
    intro outcome last hlast
    rcases outcome with halt | reply
    · rcases halt with error | _
      · simp only [ends_bind, ends_get, hpasses error last]
        exact hlast
      · exact unfaulted_unfinished last
    · exact ih _ last (hnext reply last) last hlast

/-- Observers that change the speed leave a timer that fits, to whatever depth a change of speed
calls them again. -/
theorem tuning_conducted {conduct : Nat → Runner → Conduct}
    (htunes : ∀ position runner, (conduct position runner).Tunes)
    (hrests : ∀ type position runner, .hook position ∈ bus.recipients type →
      conduct position runner = .rest) (patience depth : Nat) :
    (Audience.conducted conduct patience depth).Tuning bus := by
  induction depth with
  | zero =>
    exact ⟨fun _ _ _ _ _ runner _ ↦ unfaulted_unfinished runner,
      fun _ _ runner _ ↦ unfaulted_unfinished runner⟩
  | succ depth ih =>
    refine ⟨fun type position hheard attached suits runner htuned ↦ ?_,
      fun position attached runner htuned ↦ ?_⟩
    · refine ends_react_conducted.mpr ?_
      rw [hrests type position _ hheard]
      exact htuned.same rfl rfl rfl
    · refine ends_react_conducted.mpr ?_
      exact keeps_perform_tuned ih (htunes position _) _ (htuned.same rfl rfl rfl)

/-! ### What the operations leave -/

theorem keeps_runBlocking_tuned (htuning : audience.Tuning bus) :
    Keeps (TunedAs bus attached Gear.Fits) unfaulted (runBlocking audience) := by
  intro runner htuned
  rw [Yields, runBlocking, ends_bind, ends_requireRun]
  cases runner.attached with
  | none => exact unfaulted_noSession _ _
  | some position =>
    exact yields_blockingRun_tuned (fun _ hagain ↦ yields_rearm_tuned htuning hagain _) htuning
      htuned

/-- An idle session has made a step that has ended its program, and the observers of its output have
left a timer. -/
structure EndsArmed (runner : Runner) (position : Nat) (outcome : Except Fault Unit)
    (middle : Runner) : Prop where
  idle : runner.session.speed = Speed.idle
  succeeded : outcome = .ok ()
  ended : ∃ run, middle.runs[position]? = some run ∧ run.atEnd = true
  armed : middle.armed = true

/-- A step that has been attempted goes on as it is, or turns idle. -/
theorem yields_concludeStep_tuned (htuning : audience.Tuning bus) {outcome : Except Fault Unit}
    (htuned : TunedAs bus attached (· = gear) runner) :
    Yields unfaulted (concludeStep audience position outcome) runner fun _ last ↦
      outcome = .ok () ∧ (∃ run, runner.runs[position]? = some run ∧ run.atEnd = false) ∧
          TunedAs bus attached (· = gear) last ∨
        (outcome = .ok () → ∃ run, runner.runs[position]? = some run ∧ run.atEnd = true) ∧
          TunedAs bus attached (· = gear.idled) last := by
  rcases outcome with fault | _
  · have hfaulted : (.error fault : Except Fault Unit) ≠ .ok () := by simp
    refine Yields.mono (yields_conclude_tuned htuning htuned (.error fault)) ?_
    exact fun _ _ hlast ↦ .inr ⟨fun hsucceeded ↦ absurd hsucceeded hfaulted, hlast⟩
  · cases hrun : runner.runs[position]? with
    | none =>
      have hcounted : runner.stepCounted.runs[position]? = none := hrun
      rw [Yields, concludeStep, modifySession, ends_bind, ends_modify]
      show Ends (runAt position >>= _) runner.stepCounted _
      rw [ends_bind, ends_runAt_iff, hcounted]
      exact unfaulted_broken _ _
    | some run =>
      refine (ends_concludeStep hrun).mpr ?_
      have hcounted : TunedAs bus attached (· = gear) runner.stepCounted :=
        htuned.same rfl rfl rfl
      cases hend : run.atEnd with
      | false => exact .inl ⟨rfl, ⟨run, rfl, hend⟩, hcounted⟩
      | true =>
        refine Yields.mono (yields_conclude_tuned htuning hcounted (.ok ())) ?_
        exact fun _ _ hlast ↦ .inr ⟨fun _ ↦ ⟨run, rfl, hend⟩, hlast⟩

/-- A step leaves a timer that fits, unless it ends the program of an idle session for which the
observers of its output have left a timer. That one stays. -/
theorem yields_step_tuned (htuning : audience.Tuning bus)
    (htuned : TunedAs bus attached Gear.Fits runner) (hattached : runner.attached = some position) :
    Yields unfaulted (step audience) runner fun _ last ↦ ∃ outcome middle,
      runFrom (attempt (advance audience position)) runner.wiped = (.ok outcome, middle) ∧
        TunedAs bus attached Gear.Fits middle ∧
        (runner.EndsArmed position outcome middle ∧
            TunedAs bus attached (· = middle.gear.idled) last ∨
          ¬ runner.EndsArmed position outcome middle ∧ TunedAs bus attached Gear.Fits last) := by
  have hwiped : TunedAs bus attached Gear.Fits runner.wiped := htuned.same rfl rfl rfl
  refine (ends_step hattached).mpr ?_
  refine (yields_attempt_advance_tuned htuning hwiped).reached.bind ?_
  rintro outcome middle ⟨hadvanced, hmiddle, hfault⟩
  refine (yields_concludeStep_tuned htuning hmiddle.at_gear).bind ?_
  intro _ after hafter
  have hagain {gear : Gear} (htold : TunedAs bus attached (· = gear) after) :
      Yields unfaulted (tell audience .stepped >>= fun _ ↦
        againUnless runner.session.speed (rearm audience)) after fun _ last ↦
          gear.speed ≠ runner.session.speed ∧ TunedAs bus attached Gear.Fits last ∨
            gear.speed = runner.session.speed ∧ TunedAs bus attached (· = gear) last :=
    (keeps_tell_tuned htuning _ _ htold).bind fun _ _ htold ↦
      yields_againUnless_tuned (fun _ hagain ↦ yields_rearm_tuned htuning hagain _) htold _
  rcases hafter with ⟨-, ⟨run, hrun, hunended⟩, hgear⟩ | ⟨hended, hgear⟩
  · -- The program goes on, with the speed and the timer that the observers have left.
    refine Yields.mono (hagain hgear) fun _ last hlast ↦ ⟨outcome, middle, hadvanced, hmiddle, ?_⟩
    refine .inr ⟨fun harmed ↦ ?_, ?_⟩
    · obtain ⟨same, hsame, hend⟩ := harmed.ended
      obtain rfl := Option.some.inj (hrun.symm.trans hsame)
      exact Bool.false_ne_true (hunended.symm.trans hend)
    · rcases hlast with ⟨-, hrearmed⟩ | ⟨-, hkept⟩
      · exact hrearmed
      · exact hkept.mono hmiddle.suits_gear
  · -- The session has turned idle, which is no change of speed if it was idle before.
    refine Yields.mono (hagain hgear) fun _ last hlast ↦ ⟨outcome, middle, hadvanced, hmiddle, ?_⟩
    rcases hlast with ⟨hother, hrearmed⟩ | ⟨hidle, hkept⟩
    · exact .inr ⟨fun harmed ↦ hother harmed.idle.symm, hrearmed⟩
    · rcases outcome with fault | _
      · obtain rfl := hfault fault rfl
        have hsame : runner.wiped.gear.idled = runner.wiped.gear := Gear.idled_eq_self hidle.symm
        rw [hsame] at hkept
        have hfaulted : ¬ runner.EndsArmed position (.error fault) runner.wiped :=
          fun harmed ↦ absurd harmed.succeeded nofun
        exact .inr ⟨hfaulted, hkept.mono hwiped.suits_gear⟩
      · cases harmed : middle.armed with
        | true => exact .inl ⟨⟨hidle.symm, rfl, hended rfl, harmed⟩, hkept⟩
        | false =>
          have hbeat : middle.beat? = none := by simpa [armed_eq] using harmed
          refine .inr ⟨fun hends ↦ Bool.false_ne_true (harmed.symm.trans hends.armed), ?_⟩
          exact hkept.mono (.of_not_stepped Int.le_rfl hbeat)

/-- What a step and a blocking run leave if observers of the output change the speed any number of
times and nobody else acts. After a blocking run the timer fits, and so it does after a step, unless
the session was idle, its program has ended with this step, and the observers have left a timer.
Then the session is idle and that timer is still live. -/
theorem in_time_unless_ended_armed (hinTime : runner.InTime) {conduct : Nat → Runner → Conduct}
    (htunes : ∀ position middle, (conduct position middle).Tunes)
    (hrests : ∀ type position middle, .hook position ∈ runner.bus.recipients type →
      conduct position middle = .rest) (patience depth : Nat) :
    let audience := Audience.conducted conduct patience depth
    (∀ last, runFrom (runBlocking audience) runner = (.ok (), last) → last.InTime) ∧
    ∀ last, runFrom (step audience) runner = (.ok (), last) → ∃ position outcome middle,
      runner.attached = some position ∧
      runFrom (attempt (advance audience position)) runner.wiped = (.ok outcome, middle) ∧
      middle.InTime ∧
      (¬ runner.EndsArmed position outcome middle → last.InTime) ∧
      (runner.EndsArmed position outcome middle →
        last.session.active = true ∧ last.session.speed = Speed.idle ∧ last.armed = true ∧
          last.beat? = (Speed.cadence? middle.session.speed).map Speed.interval) := by
  intro audience
  have htuning := tuning_conducted htunes hrests patience depth
  have htuned : TunedAs runner.bus runner.attached Gear.Fits runner :=
    ⟨rfl, rfl, inTime_iff_fits.mp hinTime⟩
  refine ⟨fun last hrun ↦ ?_, fun last hstep ↦ ?_⟩
  · have hlast := (keeps_runBlocking_tuned htuning runner htuned).of_runFrom hrun
    exact inTime_iff_fits.mpr hlast.suits_gear
  · cases hattached : runner.attached with
    | none =>
      have hrefused : Ends (step audience) runner fun outcome _ ↦
          outcome = .error (.raised (.noSession "step")) := by
        rw [step_eq, ends_bind, ends_requireRun, hattached]
      exact absurd (hrefused.of_runFrom hstep) nofun
    | some position =>
      obtain ⟨outcome, middle, hadvanced, hmiddle, hlast⟩ :=
        (yields_step_tuned htuning htuned hattached).of_runFrom hstep
      have hbetween : middle.InTime := inTime_iff_fits.mpr hmiddle.suits_gear
      refine ⟨position, outcome, middle, rfl, hadvanced, hbetween, fun hnot ↦ ?_, fun hends ↦ ?_⟩
      · have hrearmed := (hlast.resolve_left fun hleft ↦ hnot hleft.1).2
        exact inTime_iff_fits.mpr hrearmed.suits_gear
      · have hkept := (hlast.resolve_right fun hright ↦ hright.1 hends).2
        obtain ⟨hactive, hsome, -⟩ := hbetween.armed_iff.mp hends.armed
        have hon : (middle.session.active && middle.attached.isSome) = true :=
          (Bool.and_eq_true _ _).mpr ⟨hactive, hsome⟩
        have honLast : (last.session.active && last.attached.isSome) = true :=
          (congrArg Gear.on hkept.suits_gear).trans hon
        have hbeat : last.beat? = middle.beat? := congrArg Gear.beat hkept.suits_gear
        refine ⟨((Bool.and_eq_true _ _).mp honLast).1, congrArg Gear.speed hkept.suits_gear, ?_, ?_⟩
        · rw [armed_eq, hbeat, ← armed_eq]
          exact hends.armed
        · exact (hbeat.trans hmiddle.suits_gear).trans (if_pos hon)

/-- An observer of the output raises the speed when it is called, and all others rest. -/
def raisesSpeed (position : Nat) (_ : Runner) : Conduct :=
  if position = 0 then .tuning [5] else .rest

/-- A caller who starts a session of one instruction, which writes a byte. -/
def writingCast : Cast := ⟨raisesSpeed, 10, 2, .inTurn [.start "." ⟨false, false⟩]⟩

/-- An idle session is stepped to the end of its program, and the observer of its output raises the
speed in the midst of that. The session is idle afterwards, and its timer is live. -/
theorem in_time_unless_ended_armed_writing :
    ∃ start last, fresh ⟨.tape, 2, "", 0, .empty⟩ [⟨.output, [], []⟩] .initial = .ok start ∧
      (writingCast.moment start fun _ ↦ false).InTime ∧
      runFrom (step (.conducted raisesSpeed 10 2)) (writingCast.moment start fun _ ↦ false) =
        (.ok (), last) ∧
      last.session.active = true ∧ last.session.speed = Speed.idle ∧ last.armed = true ∧
        last.beat? = (Speed.cadence? 5).map Speed.interval := by
  obtain ⟨start, hstart⟩ : ∃ start, fresh ⟨.tape, 2, "", 0, .empty⟩ [⟨.output, [], []⟩] .initial =
      .ok start := ⟨_, rfl⟩
  obtain ⟨runner, hrunner⟩ : ∃ runner, runner = writingCast.moment start fun _ ↦ false := ⟨_, rfl⟩
  have hbefore : (decide (runner.session.speed = Speed.idle ∧ runner.current = none ∧
      runner.attached = some 0 ∧ 0 ∈ runner.sinks)) = true := by
    cases hstart
    cases hrunner
    decide +kernel
  obtain ⟨hidle, hcurrent, hattached, hsink⟩ := of_decide_eq_true hbefore
  have hinTime : runner.InTime := by
    refine inTime_iff_fits.mpr (.of_not_stepped (Int.le_of_eq hidle) ?_)
    show runner.beat? = none
    rw [beat?, hcurrent]
    rfl
  have hrests (type : String) (position : Nat) (middle : Runner)
      (hheard : .hook position ∈ runner.bus.recipients type) :
      raisesSpeed position middle = .rest := by
    refine if_neg fun hwriter ↦ ?_
    subst hwriter
    exact apart_of_reachable hstart ⟨writingCast, _, hrunner⟩ 0 hsink type hheard
  have htunes (position : Nat) (middle : Runner) : (raisesSpeed position middle).Tunes := by
    unfold raisesSpeed
    split
    · exact Conduct.tunes_tuning [5]
    · trivial
  have hsteps : (
      let audience := Audience.conducted raisesSpeed 10 2
      let midway := runFrom (attempt (advance audience 0)) runner.wiped
      (runFrom (step audience) runner).1.isOk && midway.1.toOption.any (·.isOk) &&
        decide (midway.2.session.speed = 5) && (midway.2.runs[0]?.any (·.atEnd)) &&
        midway.2.armed) = true := by
    cases hstart
    cases hrunner
    decide +kernel
  simp only [Bool.and_eq_true, decide_eq_true_eq] at hsteps
  obtain ⟨⟨⟨⟨hreturns, hsucceeded⟩, hspeed⟩, hended⟩, harmed⟩ := hsteps
  generalize hstep : runFrom (step (.conducted raisesSpeed 10 2)) runner = ended at hreturns
  obtain ⟨halt | _, last⟩ := ended
  · cases hreturns
  obtain ⟨position, outcome, middle, hplace, hadvanced, -, -, hleft⟩ :=
    (in_time_unless_ended_armed hinTime htunes hrests 10 2).2 last hstep
  obtain rfl : 0 = position := Option.some.inj (hattached.symm.trans hplace)
  rw [hadvanced] at hsucceeded hspeed hended harmed
  obtain ⟨run, hrun, hend⟩ := (Option.any_eq_true _ _).mp hended
  obtain fault | _ := outcome
  · cases hsucceeded
  have hlast := hleft ⟨hidle, rfl, ⟨run, hrun, hend⟩, harmed⟩
  rw [hspeed] at hlast
  exact ⟨start, last, hstart, hrunner ▸ hinTime, hrunner ▸ hstep, hlast⟩

end Runner

end TapeRunner
