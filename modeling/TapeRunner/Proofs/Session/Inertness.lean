import TapeRunner.Proofs.Session.Repose
import TapeRunner.Proofs.Session.Ticks

/-!
# An inactive session is inert

What is at rest has nothing to move it: no engine, no supply and no timer, and every timer ever made
is cancelled and of an earlier generation (`Runner.AtRest`). So no order but a start does anything
to it (`Runner.AtRest.ends_obey`): operations on the engine and on the supply are refused, a stop
finds nothing to stop, no timer calls, and a change of speed has nothing to make fit and nobody to
tell. As what is left is at rest again, the same holds after any number of orders
(`Runner.AtRest.carryOut`), and as an inactive session is at rest at every moment of every run, it
holds from there on (`Runner.inactive_inert`).
-/

set_option autoImplicit false
set_option relaxedAutoImplicit false

namespace TapeRunner

open Activity

/-- An index names no place but inside of the sequence. -/
theorem lt_of_positionOf {size position : Nat} {index : Int}
    (hposition : positionOf size index = some position) : position < size := by
  unfold positionOf at hposition
  simp only [Option.ite_none_right_eq_some, Bool.and_eq_true, decide_eq_true_eq,
    Option.some.injEq] at hposition
  omega

/-- What a session can be asked but a start. -/
def Order.Ordinary : Order → Prop
  | .stop | .step | .runBlocking | .faster | .slower | .pause | .superSpeed | .shutdown
  | .setSpeed _ | .inject _ | .feed _ | .readInput | .fire _ | .callTimer _ | .rearm | .look => True
  | _ => False

namespace Runner

variable {runner middle last start : Runner} {audience : Audience}

/-- An inactive session with nothing to move it: no timer is live or counts any more. -/
structure AtRest (runner : Runner) : Prop where
  inactive : runner.session.active = false
  attached_eq : runner.attached = none
  supplied_eq : runner.supplied = none
  status_eq : runner.session.status = none
  current_eq : runner.current = none
  retired : ∀ (index : Nat) (timer : Timer Nat), runner.timers[index]? = some timer →
    timer.cancelled = true ∧ timer.task < runner.generation

/-- Nothing has changed but the speed, the count of generations and the lines of the journal:
nothing has been told or written, nobody called, and no timer, run or session touched. -/
def Unmoved (runner last : Runner) : Prop :=
  ∃ speed generation lines, runner.generation ≤ generation ∧ last =
    { runner with
      session := { runner.session with speed }
      generation
      journal := { runner.journal with lines } }

/-- Operations that need a session are refused, and those that do not find nothing to do. -/
structure Inert (audience : Audience) (runner : Runner) : Prop where
  step : runFrom (step audience) runner = (.error (.raised (.noSession "step")), runner)
  runBlocking : runFrom (runBlocking audience) runner =
    (.error (.raised (.noSession "run_blocking")), runner)
  inject : ∀ instruction, runFrom (inject audience instruction) runner =
    (.error (.raised (.noSession "inject_instruction")), runner)
  feed : ∀ content, runFrom (feed content) runner =
    (.error (.raised (.noSession "feed_input")), runner)
  stop : runFrom (stop audience) runner = (.ok (), runner)
  shutdown : runFrom (shutdown audience) runner =
    (.ok (), { runner with generation := runner.generation + 1 })
  fire : ∀ rounds, runFrom (fire audience rounds) runner = (.ok 0, runner)
  callTimer : ∀ index < runner.timers.size,
    runFrom (callTimer audience index) runner = (.ok (), runner)

/-! ### Nothing moves -/

namespace Unmoved

theorem refl (runner : Runner) : runner.Unmoved runner := ⟨_, _, _, Nat.le_refl _, rfl⟩

theorem trans (hfirst : runner.Unmoved middle) (hsecond : middle.Unmoved last) :
    runner.Unmoved last := by
  obtain ⟨_, _, _, hle, rfl⟩ := hfirst
  obtain ⟨speed, generation, lines, hlater, rfl⟩ := hsecond
  exact ⟨speed, generation, lines, Nat.le_trans hle hlater, rfl⟩

theorem recorded_eq (hunmoved : runner.Unmoved last) : last.recorded = runner.recorded := by
  obtain ⟨_, _, _, _, rfl⟩ := hunmoved
  rfl

end Unmoved

theorem AtRest.unmoved (hrest : runner.AtRest) (hunmoved : runner.Unmoved last) : last.AtRest := by
  obtain ⟨speed, generation, lines, hle, rfl⟩ := hunmoved
  refine { hrest with retired := fun index timer htimer ↦ ?_ }
  obtain ⟨hcancelled, hold⟩ := hrest.retired index timer htimer
  exact ⟨hcancelled, Nat.lt_of_lt_of_le hold hle⟩

/-- Without a current timer, disarming only begins another generation. -/
theorem ends_disarm_of_none (hcurrent : runner.current = none)
    {required : Except Halt Unit → Runner → Prop} :
    Ends disarm runner required ↔
      required (.ok ()) { runner with generation := runner.generation + 1 } := by
  rw [disarm, ends_bind, ends_modify]
  simp only [ends_bind, ends_get, hcurrent, ends_pure]

namespace AtRest

variable (hrest : runner.AtRest)
include hrest

theorem live_eq_nil : Timer.live runner.timers = [] := by
  refine Timer.live_eq_nil fun index ↦ ?_
  unfold Timer.isLive
  cases htimer : runner.timers[index]? with
  | none => rfl
  | some timer => simp only [(hrest.retired index timer htimer).1, Bool.not_true]

theorem runFrom_requireRun_bind {Result : Type} (operation : String) (next : Nat → Action Result) :
    runFrom (requireRun operation >>= next) runner =
      (.error (.raised (.noSession operation)), runner) := by
  simp only [requireRun, runFrom_bind, runFrom_get, hrest.attached_eq, runFrom_fail]

theorem runFrom_stop : runFrom (stop audience) runner = (.ok (), runner) := by
  rw [stop, runFrom_bind, runFrom_get]
  simp only [hrest.inactive, Bool.false_eq_true, if_false, runFrom_pure]

theorem runFrom_shutdown : runFrom (shutdown audience) runner =
    (.ok (), { runner with generation := runner.generation + 1 }) := by
  rw [shutdown, runFrom_bind, hrest.runFrom_stop]
  simp only [detach, disarm, runFrom_bind, runFrom_modify, runFrom_get, hrest.current_eq,
    runFrom_pure]
  rw [← hrest.attached_eq]

theorem inert (audience : Audience) : runner.Inert audience where
  step := by
    rw [step_eq]
    exact hrest.runFrom_requireRun_bind _ _
  runBlocking := hrest.runFrom_requireRun_bind _ _
  inject _ := hrest.runFrom_requireRun_bind _ _
  feed _ := by simp only [Runner.feed, runFrom_bind, runFrom_get, hrest.supplied_eq, runFrom_fail]
  stop := hrest.runFrom_stop
  shutdown := hrest.runFrom_shutdown
  fire _ := Timer.runFrom_fireRounds_of_none hrest.live_eq_nil
  callTimer index hindex := by
    refine runFrom_callTimer_of_resting (Array.getElem?_eq_getElem hindex) fun hactive ↦ ?_
    cases hrest.inactive.symm.trans hactive.1

/-! ### Orders to what is at rest -/

/-- Rearming only begins another generation. -/
theorem ends_rearm : Ends (rearm audience) runner fun _ last ↦ runner.Unmoved last := by
  rw [rearm]
  cases audience.patience with
  | zero => exact .refl runner
  | succ bound =>
    rw [rearmWithin_succ, ends_bind, ends_disarm_of_none hrest.current_eq]
    let next : Runner := { runner with generation := runner.generation + 1 }
    have hoff : (next.session.active && next.attached.isSome) = false := by
      rw [show next.session.active = false from hrest.inactive, Bool.false_and]
    exact (ends_engage_of_off hoff).mpr ⟨_, _, _, Nat.le_succ _, rfl⟩

/-- A new speed is written down, and that is all. -/
theorem ends_setSpeed (speed : Int) :
    Ends (setSpeed audience speed) runner fun _ last ↦ runner.Unmoved last := by
  by_cases hsame : speed = runner.session.speed
  · rw [setSpeed_eq, ends_bind, ends_get]
    simp only [if_neg (not_not_intro hsame), ends_pure]
    exact .refl runner
  · rw [ends_setSpeed_of_other hsame]
    have hchanged : runner.Unmoved (runner.withSpeed speed) := ⟨_, _, _, Nat.le_refl _, rfl⟩
    rw [ends_iff_yields]
    refine Yields.bind (writes_of_refusal (fun _ _ ↦ hchanged) _ _) ?_
    rintro _ _ ⟨lines, rfl⟩
    have hlogged : runner.Unmoved ((runner.withSpeed speed).withLines lines) :=
      ⟨_, _, _, Nat.le_refl _, rfl⟩
    have hinactive : ¬ ((runner.withSpeed speed).withLines lines).session.active = true :=
      Bool.eq_false_iff.mp hrest.inactive
    rw [Yields, tellChange, ends_bind, ends_bind, ends_get]
    simp only [if_neg hinactive, ends_pure]
    refine Ends.mono (hrest.unmoved hlogged).ends_rearm fun outcome last hlast ↦ ?_
    rcases outcome with halt | _ <;> exact hlogged.trans hlast

/-- No order but a start moves what is at rest, in whatever way it ends. -/
theorem ends_obey {order : Order} (hordinary : order.Ordinary) :
    Ends (obey audience order) runner fun _ last ↦ runner.Unmoved last := by
  have hsame {Result : Type} {activity : Action Result} {outcome : Except Halt Result}
      (hrun : runFrom activity runner = (outcome, runner)) :
      Ends activity runner fun _ last ↦ runner.Unmoved last := by
    rw [Ends, hrun]
    exact .refl runner
  have hanswer {Result : Type} {activity : Action Result}
      (hends : Ends activity runner fun _ last ↦ runner.Unmoved last) (reply : Result → Reply) :
      Ends (do return reply (← activity)) runner fun _ last ↦ runner.Unmoved last := by
    refine (ends_bind _ _).mpr (Ends.mono hends fun outcome last hlast ↦ ?_)
    rcases outcome with halt | result <;> exact hlast
  have hinert := hrest.inert audience
  cases order with
  | stop => exact hanswer (hsame hinert.stop) fun _ ↦ .nothing
  | step => exact hanswer (hsame hinert.step) fun _ ↦ .nothing
  | runBlocking => exact hanswer (hsame hinert.runBlocking) fun _ ↦ .nothing
  | faster => exact hanswer (hrest.ends_setSpeed _) fun _ ↦ .nothing
  | slower =>
    refine hanswer ?_ fun _ ↦ .nothing
    rw [slower, ends_bind, ends_get]
    simp only
    split
    · exact hrest.ends_setSpeed _
    · exact .refl runner
  | pause => exact hanswer (hrest.ends_setSpeed _) fun _ ↦ .nothing
  | superSpeed => exact hanswer (hrest.ends_setSpeed _) fun _ ↦ .nothing
  | shutdown =>
    refine hanswer ?_ fun _ ↦ .nothing
    rw [Ends, hinert.shutdown]
    exact ⟨_, _, _, Nat.le_succ _, rfl⟩
  | setSpeed speed => exact hanswer (hrest.ends_setSpeed speed) fun _ ↦ .nothing
  | inject instruction => exact hanswer (hsame (hinert.inject instruction)) .accepted
  | feed content => exact hanswer (hsame (hinert.feed content)) fun _ ↦ .nothing
  | readInput =>
    refine hanswer ?_ .byte
    rw [readInput, ends_bind, ends_get]
    simp only [hrest.supplied_eq, ends_fail]
    exact .refl runner
  | fire rounds => exact hanswer (hsame (hinert.fire rounds)) .calls
  | callTimer index =>
    show Ends (timerAt index >>= _) runner _
    rw [ends_bind, timerAt, ends_bind, ends_get]
    cases hposition : positionOf runner.timers.size index with
    | none =>
      simp only [hposition, ends_fail]
      exact .refl runner
    | some position =>
      simp only [hposition, ends_pure]
      exact hanswer (hsame (hinert.callTimer position (lt_of_positionOf hposition)))
        fun _ ↦ .nothing
  | rearm => exact hanswer hrest.ends_rearm fun _ ↦ .nothing
  | look => exact .refl runner
  | _ => exact hordinary.elim

/-- Nor do any number of them. -/
theorem carryOut {orders : List Order} (hordinary : ∀ order ∈ orders, order.Ordinary) :
    runner.Unmoved (carryOut audience orders runner).2 := by
  induction orders generalizing runner with
  | nil => exact .refl runner
  | cons order later ih =>
    have hfirst : runner.Unmoved (runFrom (obey audience order) runner).2 :=
      hrest.ends_obey (hordinary order List.mem_cons_self)
    exact hfirst.trans (ih (hrest.unmoved hfirst)
      fun other hother ↦ hordinary other (List.mem_cons_of_mem _ hother))

end AtRest

/-! ### Inactive sessions -/

/-- With the current timer gone, every timer is cancelled and of an earlier generation. -/
theorem Reposed.atRest {tactful : Prop} {sinks : List Nat}
    (hreposed : Reposed tactful False sinks runner) (htactful : tactful) (hsole : runner.Sole)
    (hinactive : runner.session.active = false) : runner.AtRest where
  inactive := hinactive
  attached_eq := hreposed.attached_eq hinactive
  supplied_eq := hreposed.supplied_eq hinactive
  status_eq := hreposed.status_eq htactful hinactive
  current_eq := hreposed.current_eq hinactive
  retired index timer htimer :=
    hsole.retired index timer htimer (hreposed.current_eq hinactive ▸ nofun)

/-- An inactive session is inert. At whatever moment of whatever run it is inactive, before the
first start or after a stop, it is at rest, and whatever is asked of it from there on but a start,
before whatever observers and in whatever order, nothing has changed then but the speed: the
operations that need a session are refused, and the others find nothing to do. -/
theorem inactive_inert {bench : Bench} {hooks : List Hook} {journal : Journal}
    (hstart : fresh bench hooks journal = .ok start) (hbound : journal.context.Plain) {cast : Cast}
    (hgenuine : cast.Genuine start) (htactful : cast.Tactful start.sinks) (cut : Runner → Bool) :
    let runner := cast.moment start cut
    runner.session.active = false → runner.AtRest ∧
      ∀ (audience : Audience) (later : List Order), (∀ order ∈ later, order.Ordinary) →
        let last := (Runner.carryOut audience later runner).2
        runner.Unmoved last ∧ last.AtRest ∧ Timer.live last.timers = [] ∧
          ∀ audience, last.Inert audience := by
  intro runner hinactive
  have hreposed := cast.reposed_moment hstart hbound hgenuine cut
  have hsole : runner.Sole :=
    upheldThroughout_sole.reachable ⟨cast, cut, rfl⟩ (sole_of_fresh hstart)
  have hrest : runner.AtRest := hreposed.atRest htactful hsole hinactive
  refine ⟨hrest, fun audience later hordinary ↦ ?_⟩
  have hunmoved : runner.Unmoved (Runner.carryOut audience later runner).2 :=
    hrest.carryOut hordinary
  have hlast := hrest.unmoved hunmoved
  exact ⟨hunmoved, hlast, hlast.live_eq_nil, hlast.inert⟩

/-- A session has had two timers, one of which made a step at fault, before it was stopped. Nothing
comes of it that it is set to other speeds, that either timer calls, or that it is stepped. -/
theorem inactive_inert_stopped :
    ∃ start runner last, fresh ⟨.tape, 2, "", 0, .empty⟩
        [⟨.event "session.stepped", [], []⟩] .initial = .ok start ∧
      runner = (⟨fun _ _ ↦ .rest, 10, 1, .inTurn
        [.start "<+" ⟨true, false⟩, .fire 1, .setSpeed 5, .stop]⟩ : Cast).moment start
          (fun _ ↦ false) ∧
      runner.timers.size = 2 ∧ runner.recorded.size = 5 ∧
      last = (Runner.carryOut (.conducted (fun _ _ ↦ .rest) 10 1)
        [.setSpeed 7, .fire 3, .callTimer 0, .callTimer (-1), .step, .shutdown, .superSpeed]
          runner).2 ∧
      last.session.speed = Speed.blocking ∧ last.recorded.size = 5 ∧ last.AtRest ∧
        last.Inert (.conducted (fun _ _ ↦ .rest) 10 1) := by
  obtain ⟨start, hstart⟩ : ∃ start, fresh ⟨.tape, 2, "", 0, .empty⟩
      [⟨.event "session.stepped", [], []⟩] .initial = .ok start := ⟨_, rfl⟩
  obtain ⟨cast, hcast⟩ : ∃ cast : Cast, cast = ⟨fun _ _ ↦ .rest, 10, 1, .inTurn
    [.start "<+" ⟨true, false⟩, .fire 1, .setSpeed 5, .stop]⟩ := ⟨_, rfl⟩
  obtain ⟨runner, hrunner⟩ : ∃ runner, runner = cast.moment start fun _ ↦ false := ⟨_, rfl⟩
  obtain ⟨last, hlast⟩ : ∃ last, last = (Runner.carryOut (.conducted (fun _ _ ↦ .rest) 10 1)
    [.setSpeed 7, .fire 3, .callTimer 0, .callTimer (-1), .step, .shutdown, .superSpeed]
      runner).2 := ⟨_, rfl⟩
  have hgenuine : cast.Genuine start := by
    rw [hcast]
    exact ⟨fun _ _ ↦ trivial, Conduct.gives_inTurn (by simp [Order.Genuine]) start⟩
  have htactful : cast.Tactful start.sinks := by
    rw [hcast]
    exact fun _ _ _ ↦ trivial
  have hbefore : (decide (runner.session.active = false ∧ runner.timers.size = 2 ∧
      runner.recorded.size = 5 ∧ last.session.speed = Speed.blocking)) = true := by
    rw [hlast, hrunner, hcast]
    cases hstart
    decide +kernel
  obtain ⟨hinactive, htimers, hrecorded, hspeed⟩ := of_decide_eq_true hbefore
  obtain ⟨hunmoved, hrest, -, hinert⟩ := (inactive_inert hstart Fields.plain_nil hgenuine
    htactful (fun _ ↦ false) (hrunner ▸ hinactive)).2 (.conducted (fun _ _ ↦ .rest) 10 1)
      [.setSpeed 7, .fire 3, .callTimer 0, .callTimer (-1), .step, .shutdown, .superSpeed]
        (by simp [Order.Ordinary])
  rw [← hrunner, ← hlast] at hunmoved hrest hinert
  exact ⟨start, runner, last, hstart, hcast ▸ hrunner, htimers, hrecorded, hlast, hspeed,
    hunmoved.recorded_eq ▸ hrecorded, hrest, hinert _⟩

end Runner

end TapeRunner
