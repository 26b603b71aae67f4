import TapeRunner.Proofs.Session.Gear

/-!
# Every operation leaves a gear that fits

Every operation leaves the gear that it finds, or one that suits, as long as the observers do
(`Runner.LeavesAs`). A step re-arms only where it has changed the speed, and then it leaves a gear
that suits (`Runner.leaves_step`); a change of speed and a start always re-arm
(`Runner.leaves_setSpeed`, `Runner.leaves_start`).
-/

set_option autoImplicit false
set_option relaxedAutoImplicit false

namespace TapeRunner

open Activity

namespace Runner

variable {audience : Audience} {runner last : Runner} {gear : Gear} {position : Nat}
variable {Result Next : Type} {suits : Gear → Prop}

theorem WithinAs.trans (hlast : WithinAs suits runner.gear last)
    (hrunner : WithinAs suits gear runner) : WithinAs suits gear last := by
  refine ⟨hlast.1, ?_⟩
  rcases hlast.2 with hsuits | hsame
  · exact .inl hsuits
  · rw [hsame]
    exact hrunner.2

theorem WithinAs.suited (hwithin : WithinAs suits gear runner) (hsuits : suits gear) :
    runner.Suited suits := by
  refine ⟨hwithin.1, ?_⟩
  rcases hwithin.2 with hfound | hsame
  · exact hfound
  · rw [hsame]
    exact hsuits

/-- An operation leaves the gear that it finds, or one that suits, at its end and after an error of
its own, unless it is cut off. -/
def LeavesAs (suits : Gear → Prop) (activity : Action Result) : Prop :=
  ∀ gear, Keeps (WithinAs suits gear)
    (fun halt last ↦ halt.CutsOff ∨ WithinAs suits gear last) activity

/-- To be spared is to be cut off or to leave a gear that suits. -/
theorem yields_of_spared {activity : Action Result} {required : Result → Runner → Prop}
    (hyields : Yields (spared suits) activity runner required) :
    Yields (fun halt last ↦ halt.CutsOff ∨ WithinAs suits gear last) activity runner required :=
  Yields.allow hyields fun _ _ hspared ↦ hspared.imp_right fun hsuited ↦ hsuited.within gear

theorem leaves_of_orderly {activity : Action Result} (hends : ∀ runner, Orderly runner →
    Yields (fun halt last ↦ halt.CutsOff ∨ WithinAs suits runner.gear last) activity runner
      fun _ ↦ WithinAs suits runner.gear) : LeavesAs suits activity := by
  intro gear runner hwithin
  have hmore := Yields.mono (hends runner hwithin.1) fun _ _ hlast ↦ hlast.trans hwithin
  exact Yields.allow hmore fun _ _ hhalted ↦ hhalted.imp_right fun hlast ↦ hlast.trans hwithin

theorem leaves_of_spared {activity : Action Result} (hends : ∀ runner, Orderly runner →
    Yields (spared suits) activity runner fun _ ↦ WithinAs suits runner.gear) :
    LeavesAs suits activity :=
  leaves_of_orderly fun runner horderly ↦ yields_of_spared (hends runner horderly)

/-- An error of an operation that changes nothing. -/
theorem leaves_fail (error : Error) : LeavesAs suits (fail error : Action Result) :=
  fun _ _ hwithin ↦ .inr hwithin

theorem leaves_pure (result : Result) : LeavesAs suits (pure result : Action Result) :=
  fun _ ↦ Keeps.pure result

theorem LeavesAs.bind {first : Action Result} {next : Result → Action Next}
    (hfirst : LeavesAs suits first) (hnext : ∀ result, LeavesAs suits (next result)) :
    LeavesAs suits (first >>= next) :=
  fun gear ↦ (hfirst gear).bind fun result ↦ hnext result gear

theorem LeavesAs.get_bind {next : Runner → Action Next}
    (hnext : ∀ runner, LeavesAs suits (next runner)) : LeavesAs suits (get >>= next) :=
  fun gear ↦ Keeps.get_bind fun runner hwithin ↦ hnext runner gear runner hwithin

/-- A change outside of the gear. -/
theorem leaves_modify {change : Runner → Runner}
    (hgear : ∀ runner, (change runner).gear = runner.gear)
    (horderly : ∀ runner, Orderly runner → (change runner).Orderly) :
    LeavesAs suits (modify change : Action Unit) := by
  apply leaves_of_spared
  intro runner hrunner
  exact ⟨horderly runner hrunner, .inr (hgear runner)⟩

/-! ### Moving on -/

theorem leaves_rearm (hsteady : audience.SteadyAs suits) : LeavesAs suits (rearm audience) :=
  leaves_of_spared fun _ horderly ↦
    Yields.mono (yields_rearm hsteady horderly) fun _ _ hsuited ↦ hsuited.within _

theorem leaves_runBlocking (hsteady : audience.SteadyAs suits) :
    LeavesAs suits (runBlocking audience) := by
  apply leaves_of_orderly
  intro runner horderly
  rw [Yields, runBlocking, ends_bind, ends_requireRun]
  cases hattached : runner.attached with
  | none => exact .inr horderly.within
  | some position =>
    have hrun := yields_blockingRun hsteady (fun _ ↦ yields_rearm hsteady) horderly
      (horderly.attached_lt position hattached)
    exact yields_of_spared <| Yields.mono hrun
      fun _ _ hlast ↦ ⟨hlast.1, hlast.2.imp_right And.right⟩

/-- A step that has been made leaves the gear as it is, or the session idle. -/
theorem yields_concludeStep (hsteady : audience.SteadyAs suits)
    (hdriven : Driven gear position runner) (outcome : Except Fault Unit) :
    Yields (spared suits) (concludeStep audience position outcome) runner
      fun _ last ↦ WithinAs suits gear last ∨ WithinAs suits gear.idled last := by
  rcases outcome with fault | _
  · have hreport := yields_conclude hsteady hdriven.orderly (.error fault)
    rw [hdriven.gear_eq] at hreport
    exact Yields.mono hreport fun _ _ hlast ↦ .inr hlast
  · have hcounted := hdriven.stepCounted
    obtain ⟨run, hrun⟩ := hdriven.exists_run
    refine (ends_concludeStep hrun).mpr ?_
    split
    · have hreport := yields_conclude hsteady hcounted.orderly (.ok ())
      rw [hcounted.gear_eq] at hreport
      exact Yields.mono hreport fun _ _ hlast ↦ .inr hlast
    · exact .inl ⟨hcounted.orderly, .inr hcounted.gear_eq⟩

/-- A step re-arms just where it has changed the speed. If the speed is the one it was, either
nothing has happened to the gear or it is one that suits. -/
theorem leaves_step (hsteady : audience.SteadyAs suits) : LeavesAs suits (step audience) := by
  apply leaves_of_orderly
  intro runner horderly
  cases hattached : runner.attached with
  | none =>
    rw [Yields, step_eq, ends_bind, ends_requireRun, hattached]
    exact .inr horderly.within
  | some position =>
    refine yields_of_spared ((ends_step hattached).mpr ?_)
    have hwiped : Driven runner.gear position runner.wiped :=
      ⟨horderly.of_same rfl rfl rfl rfl rfl, rfl, horderly.attached_lt position hattached⟩
    refine (yields_spared (Yields.attempt (yields_advance hwiped))).bind ?_
    intro outcome middle hmiddle
    refine (yields_concludeStep hsteady hmiddle outcome).bind ?_
    intro _ after hafter
    have htell : Yields (spared suits) (tell audience .stepped) after
        fun _ last ↦ WithinAs suits runner.gear last ∨ WithinAs suits runner.gear.idled last := by
      rcases hafter with hsame | hidled
      · exact Yields.mono (keeps_tell_within hsteady _ _ _ hsame) fun _ _ ↦ .inl
      · exact Yields.mono (keeps_tell_within hsteady _ _ _ hidled) fun _ _ ↦ .inr
    apply htell.bind
    intro _ told htold
    rcases htold with hsame | hidled
    · refine Yields.mono (yields_againUnless (fun _ ↦ yields_rearm hsteady) hsame _) ?_
      exact fun _ _ hlast ↦ ⟨hlast.1, hlast.2.imp_right And.right⟩
    · refine Yields.mono (yields_againUnless (fun _ ↦ yields_rearm hsteady) hidled _) ?_
      refine fun _ _ hlast ↦ ⟨hlast.1, hlast.2.imp_right fun hidle ↦ ?_⟩
      rw [hidle.2]
      exact Gear.idled_eq_self hidle.1.symm

theorem leaves_callTimer (hsteady : audience.SteadyAs suits) (index : Nat) :
    LeavesAs suits (callTimer audience index) := by
  apply LeavesAs.get_bind
  intro runner
  split
  · exact fun gear ↦ keeps_tick (leaves_step hsteady gear) _
  · exact leaves_fail _

theorem leaves_fire (hsteady : audience.SteadyAs suits) (rounds : Nat) :
    LeavesAs suits (fire audience rounds) :=
  fun gear ↦ keeps_fire (leaves_step hsteady gear) rounds

/-! ### Speed -/

/-- Whatever keeps the gear with the new speed is followed by rearming. -/
theorem leaves_setSpeed (hsteady : audience.SteadyAs suits) {speed : Int}
    (hspeed : Speed.blocking ≤ speed ∧ speed ≤ Speed.top) :
    LeavesAs suits (setSpeed audience speed) := by
  apply leaves_of_spared
  intro runner horderly
  rw [Yields, setSpeed_eq, ends_bind, ends_get]
  simp only
  split
  · rw [modifySession, ends_bind, ends_modify]
    refine (keeps_log_within _ _ _ _ _ (horderly.withSpeed hspeed).within).bind ?_
    intro _ middle hmiddle
    have htell : Keeps (WithinAs suits (runner.withSpeed speed).gear) (spared suits)
        (tellChange audience runner.session.speed) := by
      apply Keeps.get_bind
      intro shown hshown
      split
      · exact keeps_tell_within hsteady _ _ shown hshown
      · exact hshown
    refine (htell middle hmiddle).bind ?_
    intro _ after hafter
    exact Yields.mono (yields_rearm hsteady hafter.1) fun _ _ hsuited ↦ hsuited.within _
  · exact horderly.within

theorem leaves_faster (hsteady : audience.SteadyAs suits) : LeavesAs suits (faster audience) :=
  LeavesAs.get_bind fun _ ↦
    leaves_setSpeed hsteady ⟨Speed.blocking_le_clamp _, Speed.clamp_le_top _⟩

theorem leaves_slower (hsteady : audience.SteadyAs suits) : LeavesAs suits (slower audience) := by
  apply leaves_of_orderly
  intro runner horderly
  rw [Yields, slower, ends_bind, ends_get]
  simp only
  split
  · next hrunning =>
    refine leaves_setSpeed hsteady ⟨?_, ?_⟩ _ _ horderly.within
    · unfold Speed.blocking Speed.idle at *
      omega
    · have htop := horderly.speed_mem.2
      omega
  · exact horderly.within

/-! ### Lifecycle -/

/-- A run that is added sound. -/
theorem Orderly.push (horderly : runner.Orderly) {run : Run} (hsound : run.Sound) :
    Orderly { runner with runs := runner.runs.push run } where
  sinks_nil := horderly.sinks_nil
  crashes_nil := horderly.crashes_nil
  speed_mem := horderly.speed_mem
  run_sound := RunsSound.push horderly.run_sound hsound
  attached_lt := by
    intro position hattached
    rw [Array.size_push]
    exact Nat.lt_succ_of_lt (horderly.attached_lt position hattached)

/-- A session that begins with a run that is built for it is in order. -/
theorem Orderly.begun (horderly : runner.Orderly) {program : String} {options : StartOptions}
    {run : Run} (hbuild : runner.bench.build program = .ok run) :
    (runner.begun options run).Orderly := by
  have hpushed := (horderly.push (Run.sound_of_build hbuild)).withSpeed
    options.initialSpeed_mem_range
  refine hpushed.of_inside rfl rfl rfl rfl ?_
  rintro _ ⟨⟩
  show runner.runs.size < (runner.runs.push run).size
  simp

theorem Orderly.ended (horderly : runner.Orderly) : runner.ended.Orderly :=
  horderly.of_inside rfl rfl rfl rfl nofun

theorem yields_announce (hsteady : audience.SteadyAs suits) (level : Level) (event : String)
    (fields : Fields) (kind : EventKind) (horderly : runner.Orderly) :
    Yields (spared suits) (do log level event fields; tell audience kind; rearm audience) runner
      fun _ ↦ Suited suits := by
  refine (keeps_log_within level event fields _ _ horderly.within).bind ?_
  intro _ middle hmiddle
  refine (keeps_tell_within hsteady kind _ middle hmiddle).bind ?_
  intro _ after hafter
  exact yields_rearm hsteady hafter.1

theorem leaves_start (hsteady : audience.SteadyAs suits) (program : String)
    (options : StartOptions) : LeavesAs suits (start audience program options) := by
  apply leaves_of_orderly
  intro runner horderly
  cases hbuild : runner.bench.build program with
  | error error => exact (ends_start_of_unbuilt hbuild).mpr (.inr horderly.within)
  | ok run =>
    refine yields_of_spared ?_
    refine yields_start_of_writes hbuild (fun _ _ ↦ writes_spared _ _) fun lines ↦ ?_
    have hbegun : Orderly ((runner.begun options run).withLines lines) :=
      (horderly.begun hbuild).withLines lines
    exact Yields.mono (yields_announce hsteady _ _ _ _ hbegun) fun _ _ hsuited ↦ hsuited.within _

/-- Who lets go of the engine has nothing to move on. -/
theorem yields_detach (hsuits : ∀ gear : Gear, gear.Settled → suits gear)
    (horderly : runner.Orderly) :
    Yields (spared suits) detach runner fun _ ↦ Suited suits := by
  refine Yields.bind (yields_disarm fun _ _ ↦ writes_spared _ _) ?_
  rintro _ _ ⟨generation, timers, lines, rfl⟩
  refine ⟨horderly.of_inside rfl rfl rfl rfl nofun, hsuits _ (Gear.Settled.of_off ?_ rfl)⟩
  exact Bool.and_false _

theorem leaves_stop (hsteady : audience.SteadyAs suits) : LeavesAs suits (stop audience) := by
  apply leaves_of_spared
  intro runner horderly
  cases hactive : runner.session.active with
  | false => exact (ends_stop_of_inactive hactive).mpr horderly.within
  | true =>
    refine yields_stop_of_writes hactive (fun _ _ ↦ writes_spared _ _) fun lines ↦ ?_
    have hended : Suited suits (runner.ended.withLines lines) :=
      ⟨horderly.ended.withLines lines, hsteady.of_settled _ (.of_off rfl rfl)⟩
    refine (keeps_log_within _ _ _ _ _ (hended.within runner.gear)).bind ?_
    intro _ logged hlogged
    refine (keeps_tell_within hsteady _ _ logged hlogged).bind ?_
    exact fun _ _ hlast ↦ ⟨hlast.1.of_same rfl rfl rfl rfl rfl, hlast.2⟩

theorem leaves_shutdown (hsteady : audience.SteadyAs suits) :
    LeavesAs suits (shutdown audience) := by
  refine (leaves_stop hsteady).bind fun _ ↦ leaves_of_spared fun runner horderly ↦ ?_
  exact Yields.mono (yields_detach hsteady.of_settled horderly) fun _ _ hsuited ↦ hsuited.within _

/-! ### Beside the program -/

/-- An instruction beside the program is no matter of the gear, unless it ends with an error that is
no fault. -/
theorem yields_execute {halted : Halt → Runner → Prop} (hdriven : Driven gear position runner)
    (instruction : String)
    (hown : ∀ (run : Run) error, run.aside runner.bench.script instruction = .error error →
      halted (.raised error) runner) :
    Yields (orFault (Driven gear position) halted) (execute audience position instruction) runner
      fun _ ↦ Driven gear position := by
  obtain ⟨run, hrun⟩ := hdriven.exists_run
  refine (ends_execute hrun).mpr ?_
  cases haside : run.aside runner.bench.script instruction with
  | error error =>
    cases error with
    | fault fault => exact hdriven
    | _ => exact hown run _ haside
  | ok effect? =>
    have htouches : ∀ effect ∈ effect?, run.Touches effect := by
      intro effect heffect
      rw [Option.mem_def.mp heffect] at haside
      exact Run.touches_of_aside haside
    exact Yields.allow (yields_settleAny_driven hdriven hrun htouches) fun _ _ hfalse ↦ hfalse.elim

theorem leaves_inject (hsteady : audience.SteadyAs suits) (instruction : String) :
    LeavesAs suits (inject audience instruction) := by
  apply leaves_of_orderly
  intro runner horderly
  rw [Yields, inject_eq, ends_bind, ends_requireRun]
  cases hattached : runner.attached with
  | none => exact .inr horderly.within
  | some position =>
    have hdriven : Driven runner.gear position runner :=
      ⟨horderly, rfl, horderly.attached_lt position hattached⟩
    refine (Yields.attempt (yields_execute hdriven instruction fun _ _ _ ↦
      .inr ⟨horderly, .inr rfl⟩)).bind fun outcome middle hmiddle ↦ ?_
    refine yields_of_spared ?_
    have haccept : Keeps (WithinAs suits runner.gear) (spared suits)
        (acceptance instruction outcome) := by
      rcases outcome with fault | _
      · exact Keeps.bind (keeps_log_within _ _ _ _) fun _ ↦ Keeps.pure false
      · exact Keeps.pure true
    have haccepted := haccept middle ⟨hmiddle.orderly, .inr hmiddle.gear_eq⟩
    apply haccepted.bind
    intro accepted after hafter
    exact (keeps_tell_within hsteady _ _ after hafter).bind fun _ _ hlast ↦ hlast

/-- A change of the supply of a run. -/
theorem leaves_changeSupply (position : Nat) (supplyOf : Run → Supply) :
    LeavesAs suits (modifyRun position fun run ↦ { run with supply := supplyOf run }) :=
  leaves_modify (fun _ ↦ rfl) fun _ horderly ↦
    horderly.changeRun fun run hrun ↦ horderly.run_sound position run hrun

theorem leaves_feed (content : String) : LeavesAs suits (feed content) := by
  apply LeavesAs.get_bind
  intro runner
  split
  · exact leaves_fail _
  · exact leaves_changeSupply _ _

theorem leaves_runAt (position : Nat) : LeavesAs suits (runAt position) := by
  apply LeavesAs.get_bind
  intro runner
  split
  · exact leaves_pure _
  · exact leaves_fail _

theorem leaves_readInput : LeavesAs suits readInput := by
  apply LeavesAs.get_bind
  intro runner
  split
  · exact leaves_fail _
  · refine (leaves_runAt _).bind ?_
    intro run
    split
    · exact leaves_fail _
    · exact (leaves_changeSupply _ _).bind fun _ ↦ leaves_pure _

end Runner

end TapeRunner
