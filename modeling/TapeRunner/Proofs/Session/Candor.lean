import TapeRunner.Proofs.Session.Honesty

/-!
# Operations that keep a session honest

Every operation keeps a session honest, before an audience that does; a step because it reports the
end only at the end (`Runner.preserves_step`), and rearming because it begins a blocking run at the
blocking speed only (`Runner.preserves_rearm`). A blocking run that is asked for directly is not
among them.
-/

set_option autoImplicit false
set_option relaxedAutoImplicit false

namespace TapeRunner

open Activity

namespace Runner

variable {sinks : List Nat} {audience : Audience} {runner last : Runner} {position : Nat}

/-! ### Moving on -/

theorem preserves_disarm : Preserves (Honest sinks) disarm := by
  intro runner hhonest
  have hdisarmed (generation : Nat) (timers : Array (Timer Nat)) :
      Honest sinks (runner.disarmed generation timers) :=
    ⟨hhonest.1, hhonest.2, hhonest.3, hhonest.4⟩
  refine Yields.mono
    (yields_disarm fun generation timers ↦ (hdisarmed generation timers).writes []) ?_
  rintro _ _ ⟨generation, timers, lines, rfl⟩
  exact ⟨hhonest.1, hhonest.2, hhonest.3, hhonest.4⟩

theorem preserves_arm (speed : Int) (cadence : Float) :
    Preserves (Honest sinks) (arm speed cadence) := by
  apply Keeps.get_bind
  intro runner hhonest
  cases hevery : Timer.every runner.timers (Speed.interval cadence) runner.generation with
  | error error =>
    simp only [hevery]
    exact hhonest
  | ok timers =>
    simp only [hevery]
    rw [Yields, ends_bind, ends_set]
    exact preserves_log _ _ _ _ ⟨hhonest.1, hhonest.2, hhonest.3, hhonest.4⟩

theorem preserves_engage (hcandid : audience.Candid sinks) {again : Action Unit}
    (hagain : Preserves (Honest sinks) again) :
    Preserves (Honest sinks) (engage audience again) := by
  intro runner hhonest
  refine ends_engage (fun _ ↦ hhonest) (fun _ ↦ hhonest)
    (fun _ _ _ ↦ preserves_arm _ _ runner hhonest) fun hnegative position _ hattached ↦ ?_
  have hblocking : runner.session.speed = Speed.blocking := by
    have hleast := hhonest.speed_ge
    unfold Speed.blocking at *
    omega
  exact yields_blockingRun_honest hcandid hagain ⟨hhonest, hattached, .inl hblocking⟩

theorem preserves_rearm (hcandid : audience.Candid sinks) :
    Preserves (Honest sinks) (rearm audience) := by
  have hwithin (bound : Nat) : Preserves (Honest sinks) (rearmWithin audience bound) := by
    induction bound with
    | zero => exact fun _ hhonest ↦ hhonest
    | succ bound ih =>
      rw [rearmWithin_succ]
      exact preserves_disarm.bind fun _ ↦ preserves_engage hcandid ih
  exact hwithin _

/-- What an operation does once it has found the attached run. -/
theorem preserves_requireRun {Result : Type} (operation : String) {next : Nat → Action Result}
    (hnext : ∀ runner position, Honest sinks runner → runner.attached = some position →
      Yields (fun _ ↦ Honest sinks) (next position) runner fun _ ↦ Honest sinks) :
    Preserves (Honest sinks) (requireRun operation >>= next) := by
  intro runner hhonest
  rw [Yields, ends_bind, ends_requireRun]
  cases hattached : runner.attached with
  | none => exact hhonest
  | some position => exact hnext runner position hhonest hattached

/-- A step of a session with no status. -/
theorem yields_attempt_advance (hcandid : audience.Candid sinks) (hhonest : Honest sinks runner)
    (hattached : runner.attached = some position)
    (hstatus : ∀ elapsed, runner.session.status ≠ some (.finished elapsed)) :
    Yields (fun _ ↦ Honest sinks) (attempt (advance audience position)) runner
      fun _ last ↦ Honest sinks last ∧ last.attached = some position := by
  have hstepped {last : Runner} (hlast : Stepped runner last) :
      Honest sinks last ∧ last.attached = some position :=
    ⟨hlast.honest hhonest hstatus, hlast.attached_eq.trans hattached⟩
  refine Yields.attempt ?_
  cases hrun : runner.runs[position]? with
  | none =>
    rw [Yields, advance, ends_bind, ends_runAt_iff, hrun]
    exact hhonest
  | some run =>
    refine Yields.allow (Yields.mono (yields_advance_stepped hcandid hhonest.sinks_eq hrun)
      fun _ _ ↦ hstepped) fun halt _ hlast ↦ ?_
    cases halt with
    | raised error =>
      cases error with
      | fault fault => exact hstepped hlast
      | _ => exact (hstepped hlast).1
    | unfinished => exact (hstepped hlast).1

/-- The end is reported where the step came to the end of the attached run. -/
theorem yields_concludeStep_honest (hcandid : audience.Candid sinks) (hhonest : Honest sinks runner)
    (hattached : runner.attached = some position) (outcome : Except Fault Unit) :
    Yields (fun _ ↦ Honest sinks) (concludeStep audience position outcome) runner
      fun _ ↦ Honest sinks := by
  rcases outcome with fault | _
  · exact preserves_reportFault hcandid fault runner hhonest
  · have hcounted : Honest sinks runner.stepCounted :=
      ⟨hhonest.1, hhonest.2, hhonest.3, hhonest.4⟩
    cases hrun : runner.runs[position]? with
    | none =>
      rw [Yields, concludeStep, ends_bind, modifySession, ends_modify]
      show Ends (runAt position >>= _) runner.stepCounted _
      rw [ends_bind, ends_runAt_iff, show runner.stepCounted.runs[position]? = none from hrun]
      exact hcounted
    | some run =>
      refine (ends_concludeStep hrun).mpr ?_
      by_cases hend : run.atEnd = true
      · rw [if_pos hend]
        exact yields_reportEnd hcandid hcounted ⟨run, run?_eq_some hattached hrun, hend⟩
      · rw [if_neg hend]
        exact hcounted

theorem preserves_step (hcandid : audience.Candid sinks) :
    Preserves (Honest sinks) (step audience) := by
  rw [step_eq]
  refine preserves_requireRun _ ?_
  intro runner position hhonest hattached
  rw [Yields, ends_bind, ends_get]
  simp only [modifySession]
  rw [ends_bind, ends_modify]
  have hcleared : Honest sinks { runner with session := { runner.session with status := none } } :=
    hhonest.of_unfinished rfl hhonest.speed_ge rfl fun _ ↦ (Option.some_ne_none _).symm
  refine (yields_attempt_advance hcandid hcleared hattached
    fun _ ↦ (Option.some_ne_none _).symm).bind fun outcome middle hmiddle ↦ ?_
  refine (yields_concludeStep_honest hcandid hmiddle.1 hmiddle.2 outcome).bind
    fun _ after hafter ↦ ?_
  exact ((preserves_tell hcandid (by simp)).bind fun _ ↦
    preserves_againUnless (preserves_rearm hcandid) _) after hafter

theorem preserves_callTimer (hcandid : audience.Candid sinks) (index : Nat) :
    Preserves (Honest sinks) (callTimer audience index) := by
  apply Keeps.get_bind
  intro runner hhonest
  split
  · exact keeps_tick (preserves_step hcandid) _ runner hhonest
  · exact hhonest

theorem preserves_setSpeed (hcandid : audience.Candid sinks) {speed : Int}
    (hspeed : Speed.blocking ≤ speed) : Preserves (Honest sinks) (setSpeed audience speed) := by
  rw [setSpeed_eq]
  apply Keeps.get_bind
  intro runner hhonest
  split
  · rw [modifySession, Yields, ends_bind, ends_modify]
    have hchanged : Honest sinks (runner.withSpeed speed) :=
      ⟨hhonest.1, hspeed, hhonest.3, hhonest.4⟩
    have htell : Preserves (Honest sinks) (tellChange audience runner.session.speed) := by
      apply Keeps.get_bind
      intro shown hshown
      split
      · exact preserves_tell hcandid (by simp) shown hshown
      · exact hshown
    exact ((preserves_log _ _ _).bind fun _ ↦ htell.bind fun _ ↦ preserves_rearm hcandid) _ hchanged
  · exact hhonest

/-! ### Lifecycle -/

theorem preserves_start (hcandid : audience.Candid sinks) (program : String)
    (options : StartOptions) : Preserves (Honest sinks) (start audience program options) := by
  apply Keeps.get_bind
  intro runner hhonest
  cases hbuild : runner.bench.build program with
  | error error => exact hhonest
  | ok run =>
    have hspeed := options.initialSpeed_mem_range.1
    rw [Yields, ends_bind, ends_set]
    refine Yields.bind (yields_disarm fun _ _ ↦ ?_) ?_
    · refine Honest.writes ?_ _
      exact hhonest.of_unfinished rfl hspeed rfl fun _ ↦ (Option.some_ne_none _).symm
    · rintro _ _ ⟨generation, timers, lines, rfl⟩
      rw [Yields, ends_bind, ends_modify]
      refine ((preserves_log _ _ _).bind fun _ ↦ (preserves_tell hcandid (by simp)).bind
        fun _ ↦ preserves_rearm hcandid) _ ?_
      exact hhonest.of_unfinished rfl hspeed rfl fun _ ↦ (Option.some_ne_none _).symm

/-- Without an engine there is none that could be anywhere else than at its end. -/
theorem preserves_detach : Preserves (Honest sinks) detach :=
  preserves_disarm.bind fun _ ↦ Keeps.modify fun _ hhonest ↦
    ⟨hhonest.1, hhonest.2, hhonest.3, fun _ _ _ ↦ nofun⟩

theorem preserves_stop (hcandid : audience.Candid sinks) :
    Preserves (Honest sinks) (stop audience) := by
  apply Keeps.get_bind
  intro runner hhonest
  split
  · refine Keeps.bind (Keeps.modify fun _ h ↦ ?_) (fun _ ↦ ?_) runner hhonest
    · exact h.of_unfinished rfl h.speed_ge rfl fun _ ↦ nofun
    · refine preserves_detach.bind fun _ ↦ Keeps.bind (Keeps.modify ?_) fun _ ↦ ?_
      · exact fun _ h ↦ ⟨h.1, h.2, h.3, h.4⟩
      · apply Keeps.get_bind
        intro shown hshown
        refine ((preserves_log _ _ _).bind fun _ ↦ (preserves_tell hcandid (by simp)).bind
          fun _ ↦ Keeps.modify ?_) shown hshown
        exact fun _ h ↦ ⟨h.1, h.2, h.3, h.4⟩
  · exact hhonest

/-! ### Beside the program -/

/-- An instruction beside the program does not move the counter. -/
theorem yields_execute_beside (hcandid : audience.Candid sinks) (hsinks : runner.sinks = sinks)
    {run : Run} (hrun : runner.runs[position]? = some run) (instruction : String) :
    Yields (fun _ ↦ Beside runner) (execute audience position instruction) runner
      fun _ ↦ Beside runner := by
  refine (ends_execute hrun).mpr ?_
  cases haside : run.aside runner.bench.script instruction with
  | error error => exact .refl runner
  | ok effect? =>
    refine yields_settleAny (fun _ ↦ .refl runner) (fun effect heffect ↦ ?_) fun sink hsink ↦ ?_
    · rw [Option.mem_def.mp heffect] at haside
      have hbeside : Beside runner (runner.changeRun position (·.settle effect)) := by
        refine beside_changeRun runner ?_
        intro found hfound
        obtain rfl := Option.some.inj (hrun.symm.trans hfound)
        exact (Run.touches_of_aside haside).atEnd_settle
      exact ⟨hbeside.1, hbeside.2, hbeside.3, hbeside.4, hbeside.5⟩
    · exact hcandid.beside sink (hsinks ▸ hsink) runner

theorem preserves_inject (hcandid : audience.Candid sinks) (instruction : String) :
    Preserves (Honest sinks) (inject audience instruction) := by
  rw [inject_eq]
  refine preserves_requireRun _ ?_
  intro runner position hhonest _
  have hexecute : Yields (fun _ ↦ Honest sinks) (execute audience position instruction) runner
      fun _ ↦ Honest sinks := by
    cases hrun : runner.runs[position]? with
    | none =>
      rw [Yields, execute, ends_bind, ends_runAt_iff, hrun]
      exact hhonest
    | some run =>
      have hbeside := yields_execute_beside hcandid hhonest.sinks_eq hrun instruction
      exact Yields.allow (Yields.mono hbeside fun _ _ ↦ hhonest.of_beside)
        fun _ _ ↦ hhonest.of_beside
  refine Yields.bind (Yields.attempt (Yields.allow hexecute fun halt _ hlast ↦ ?_))
    fun outcome middle hmiddle ↦ ?_
  · unfold orFault
    split <;> exact hlast
  · have haccept : Preserves (Honest sinks) (acceptance instruction outcome) := by
      rcases outcome with fault | _
      · exact (preserves_log _ _ _).bind fun _ ↦ Keeps.pure false
      · exact Keeps.pure true
    exact (haccept.bind fun accepted ↦ (preserves_tell hcandid (by simp)).bind
      fun _ ↦ Keeps.pure accepted) middle hmiddle

/-! ### Timers on their own -/

theorem preserves_timerAt (index : Int) : Preserves (Honest sinks) (timerAt index) := by
  apply Keeps.get_bind
  intro runner hhonest
  split <;> exact hhonest

theorem preserves_modifyContext (change : Fields → Fields) :
    Preserves (Honest sinks) (modifyContext change) :=
  Keeps.modify fun _ h ↦ ⟨h.1, h.2, h.3, h.4⟩

theorem preserves_cancel (index : Nat) : Preserves (Honest sinks)
    (modify fun runner ↦ { runner with timers := Timer.cancel runner.timers index }) :=
  Keeps.modify fun _ h ↦ ⟨h.1, h.2, h.3, h.4⟩

/-- A timer may call on its own thread, whatever becomes of its call. -/
theorem preserves_callAside (hcandid : audience.Candid sinks) (index : Nat) :
    Preserves (Honest sinks) (callAside audience index) := by
  apply Keeps.get_bind
  intro runner hhonest
  refine ((preserves_modifyContext _).bind fun _ ↦ ?_) runner hhonest
  refine (preserves_callTimer hcandid index).survives.bind ?_
  intro survived
  split
  · refine (preserves_cancel index).bind fun _ ↦ Keeps.get_bind fun after hafter ↦ ?_
    split
    · exact ((preserves_log _ _ _).bind fun _ ↦ preserves_modifyContext _) after hafter
    · exact preserves_modifyContext _ after hafter
  · exact preserves_modifyContext _

theorem preserves_drainWithin (hcandid : audience.Candid sinks) (bound : Nat) :
    Preserves (Honest sinks) (drainWithin audience bound) := by
  induction bound with
  | zero => exact fun _ hhonest ↦ hhonest
  | succ bound ih =>
    apply Keeps.get_bind
    intro runner hhonest
    split
    · exact hhonest
    · exact ((preserves_callAside hcandid _).bind fun _ ↦ ih) runner hhonest

end Runner

end TapeRunner
