import TapeRunner.Proofs.Session.Control

/-!
# Honest sessions

A session is honest if every completion that was told is truthful and its own status is: whoever is
said to have finished is at the end of the program. A report of the end keeps the session honest
where the attached run is at its end (`yields_reportEnd`). So does a blocking run that begins at the
blocking speed or at the end of the program, as long as the observers of the output leave the
session alone (`yields_blockingRun_honest`): then its loop cannot stop short.
-/

set_option autoImplicit false
set_option relaxedAutoImplicit false

namespace TapeRunner

open Activity

/-- If an event tells of a completion, it shows the session with that status and an engine at the
end of its program. -/
def Event.Truthful (event : Event) : Prop :=
  ∀ elapsed, event.kind = .finished elapsed →
    event.session.status = some (.finished elapsed) ∧
      ∃ view, event.engine = some view ∧ view.atEnd = true

namespace Runner

/-- The events that were heard are truthful, the attached run of a finished session is at its end,
and no speed is below the blocking one. -/
structure Honest (sinks : List Nat) (runner : Runner) : Prop where
  sinks_eq : runner.sinks = sinks
  speed_ge : Speed.blocking ≤ runner.session.speed
  events : ∀ event ∈ runner.recorded, event.Truthful
  status : ∀ elapsed, runner.session.status = some (.finished elapsed) →
    ∀ run, runner.run? = some run → run.atEnd = true

/-- The attached run is at the end of its program. -/
def AtEnd (runner : Runner) : Prop := ∃ run, runner.run? = some run ∧ run.atEnd = true

/-- A runner whose session, events and ends of programs are those of another one. -/
structure Beside (base runner : Runner) : Prop where
  sinks_eq : runner.sinks = base.sinks
  session_eq : runner.session = base.session
  recorded_eq : runner.recorded = base.recorded
  attached_eq : runner.attached = base.attached
  atEnd_eq : ∀ position : Nat,
    (runner.runs[position]?).map Run.atEnd = (base.runs[position]?).map Run.atEnd

end Runner

/-- The observers keep the session honest, and those of the output leave it alone. -/
structure Audience.Candid (sinks : List Nat) (audience : Audience) : Prop where
  honest : ∀ position, Preserves (Runner.Honest sinks) (audience.react position)
  beside : ∀ sink ∈ sinks, ∀ base, Preserves (Runner.Beside base) (audience.react sink)

namespace Runner

variable {sinks : List Nat} {audience : Audience} {runner base last : Runner} {position : Nat}
variable {run : Run}

/-! ### What an honest session allows for -/

/-- Without a claim to have finished there is nothing to be honest about. -/
theorem Honest.of_unfinished (hhonest : Honest sinks runner) (hsinks : last.sinks = runner.sinks)
    (hspeed : Speed.blocking ≤ last.session.speed) (hrecorded : last.recorded = runner.recorded)
    (hstatus : ∀ elapsed, last.session.status ≠ some (.finished elapsed)) : Honest sinks last where
  sinks_eq := hsinks.trans hhonest.sinks_eq
  speed_ge := hspeed
  events := hrecorded ▸ hhonest.events
  status := fun elapsed hfinished ↦ absurd hfinished (hstatus elapsed)

/-- A session that is not at the end does not claim to have finished. -/
theorem Honest.not_finished (hhonest : Honest sinks runner) (hrun : runner.run? = some run)
    (hend : run.atEnd = false) (elapsed : Float) :
    runner.session.status ≠ some (.finished elapsed) := by
  intro hfinished
  rw [hhonest.status elapsed hfinished run hrun] at hend
  exact absurd hend Bool.noConfusion

theorem Beside.refl (runner : Runner) : Beside runner runner := ⟨rfl, rfl, rfl, rfl, fun _ ↦ rfl⟩

theorem Honest.of_beside (hhonest : Honest sinks base) (hbeside : Beside base runner) :
    Honest sinks runner where
  sinks_eq := hbeside.sinks_eq.trans hhonest.sinks_eq
  speed_ge := hbeside.session_eq ▸ hhonest.speed_ge
  events := hbeside.recorded_eq ▸ hhonest.events
  status := by
    intro elapsed hfinished run hrun
    rw [hbeside.session_eq] at hfinished
    obtain ⟨position, hattached, hfound⟩ := Option.bind_eq_some_iff.mp hrun
    have hsame := hbeside.atEnd_eq position
    rw [show runner.runs[position]? = some run from hfound] at hsame
    obtain ⟨old, hold, hend⟩ := Option.map_eq_some_iff.mp hsame.symm
    rw [← hend]
    exact hhonest.status elapsed hfinished old
      (run?_eq_some (hbeside.attached_eq ▸ hattached) hold)

/-- A change of one run that does not move its end. -/
theorem beside_changeRun (runner : Runner) {change : Run → Run}
    (hchange : ∀ run, runner.runs[position]? = some run → (change run).atEnd = run.atEnd) :
    Beside runner (runner.changeRun position change) where
  sinks_eq := rfl
  session_eq := rfl
  recorded_eq := rfl
  attached_eq := rfl
  atEnd_eq := by
    intro other
    rw [changeRun, Array.getElem?_modify]
    split
    · next hsame =>
      subst hsame
      cases hrun : runner.runs[position]? with
      | none => rfl
      | some run => exact congrArg some (hchange run hrun)
    · rfl

/-! ### Lines and events -/

theorem Honest.writes (hhonest : Honest sinks runner) (fields : Fields) :
    runner.Writes (fun _ ↦ Honest sinks) fields :=
  writes_of_refusal fun _ _ ↦ hhonest

theorem preserves_log (level : Level) (event : String) (fields : Fields) :
    Preserves (Honest sinks) (log level event fields) :=
  keeps_log level event (fun _ hhonest ↦ hhonest.writes fields)
    fun _ _ hhonest ↦ ⟨hhonest.1, hhonest.2, hhonest.3, hhonest.4⟩

theorem Honest.withEvent (hhonest : Honest sinks runner) {event : Event} (htrue : event.Truthful) :
    Honest sinks (runner.withEvent event) where
  sinks_eq := hhonest.sinks_eq
  speed_ge := hhonest.speed_ge
  events := by
    intro found hfound
    rcases Array.mem_push.mp hfound with hold | rfl
    · exact hhonest.events found hold
    · exact htrue
  status := hhonest.status

/-- An event that is truthful at its moment can be told. -/
theorem yields_tell_honest (hcandid : audience.Candid sinks) (hhonest : Honest sinks runner)
    {kind : EventKind} (htrue : (runner.counted.eventOf kind).Truthful) :
    Yields (fun _ ↦ Honest sinks) (tell audience kind) runner fun _ ↦ Honest sinks :=
  yields_tell kind (fun _ hlater ↦ hlater.writes _)
    (fun _ _ hlater ↦ ⟨hlater.1, hlater.2, hlater.3, hlater.4⟩)
    ⟨hhonest.1, hhonest.2, hhonest.3, hhonest.4⟩ (fun _ hlater ↦ hlater.withEvent htrue)
    hcandid.honest

/-- An event other than a completion can always be told. -/
theorem preserves_tell (hcandid : audience.Candid sinks) {kind : EventKind}
    (hkind : ∀ elapsed, kind ≠ .finished elapsed) :
    Preserves (Honest sinks) (tell audience kind) :=
  fun _ hhonest ↦ yields_tell_honest hcandid hhonest fun elapsed hfinished ↦
    absurd hfinished (hkind elapsed)

/-! ### Reports -/

theorem preserves_reportFault (hcandid : audience.Candid sinks) (fault : Fault) :
    Preserves (Honest sinks) (reportFault audience fault) := by
  intro runner hhonest
  refine (ends_reportFault fault).mpr ?_
  have hidled : Honest sinks (runner.idledWith (.failed fault)) :=
    hhonest.of_unfinished rfl (by show Speed.blocking ≤ Speed.idle; decide) rfl
      fun _ ↦ nofun
  exact (preserves_log _ _ _).bind (fun _ ↦ preserves_tell hcandid (by simp)) _ hidled

/-- The end may be reported where it is reached. -/
theorem yields_reportEnd (hcandid : audience.Candid sinks) (hhonest : Honest sinks runner)
    (hend : runner.AtEnd) :
    Yields (fun _ ↦ Honest sinks) (reportEnd audience) runner fun _ ↦ Honest sinks := by
  obtain ⟨run, hrun, hatEnd⟩ := hend
  have hidled : Honest sinks (runner.idledWith (.finished runner.elapsed)) := by
    refine ⟨hhonest.sinks_eq, by show Speed.blocking ≤ Speed.idle; decide, hhonest.events, ?_⟩
    intro _ _ found hfound
    obtain rfl := Option.some.inj (hrun.symm.trans hfound)
    exact hatEnd
  refine ends_reportEnd.mpr (Yields.bind (hidled.writes _ _ _) ?_)
  rintro _ _ ⟨lines, rfl⟩
  have hlogged : Honest sinks ((runner.idledWith (.finished runner.elapsed)).withLines lines) :=
    ⟨hidled.1, hidled.2, hidled.3, hidled.4⟩
  refine yields_tell_honest hcandid hlogged ?_
  rintro _ ⟨⟩
  exact ⟨rfl, run.view, congrArg (Option.map Run.view) hrun, hatEnd⟩

/-! ### Steps of the engine -/

/-- After a step of the engine the session is the one before it. -/
structure Stepped (base runner : Runner) : Prop where
  sinks_eq : runner.sinks = base.sinks
  session_eq : runner.session = base.session
  recorded_eq : runner.recorded = base.recorded
  attached_eq : runner.attached = base.attached

theorem Beside.stepped (hbeside : Beside base runner) : Stepped base runner :=
  ⟨hbeside.sinks_eq, hbeside.session_eq, hbeside.recorded_eq, hbeside.attached_eq⟩

theorem Stepped.trans (hfirst : Stepped base runner) (hsecond : Stepped runner last) :
    Stepped base last where
  sinks_eq := hsecond.sinks_eq.trans hfirst.sinks_eq
  session_eq := hsecond.session_eq.trans hfirst.session_eq
  recorded_eq := hsecond.recorded_eq.trans hfirst.recorded_eq
  attached_eq := hsecond.attached_eq.trans hfirst.attached_eq

theorem Stepped.honest (hstepped : Stepped base runner) (hhonest : Honest sinks base)
    (hstatus : ∀ elapsed, base.session.status ≠ some (.finished elapsed)) : Honest sinks runner :=
  hhonest.of_unfinished hstepped.sinks_eq (hstepped.session_eq ▸ hhonest.speed_ge)
    hstepped.recorded_eq (hstepped.session_eq ▸ hstatus)

/-- Observers that leave the session alone do so in the middle of a step. -/
theorem preserves_stepped (hcandid : audience.Candid sinks) (base : Runner) {sink : Nat}
    (hsink : sink ∈ sinks) : Preserves (Stepped base) (audience.react sink) := by
  intro runner hstepped
  have hends := hcandid.beside sink hsink runner runner (.refl runner)
  refine Yields.allow (Yields.mono hends ?_) ?_
  · exact fun _ _ hlast ↦ hstepped.trans hlast.stepped
  · exact fun _ _ hlast ↦ hstepped.trans hlast.stepped

/-- A step of an engine leaves the session alone, however it ends. -/
theorem yields_advance_stepped (hcandid : audience.Candid sinks) (hsinks : runner.sinks = sinks)
    (hrun : runner.runs[position]? = some run) :
    Yields (fun _ ↦ Stepped runner) (advance audience position) runner fun _ ↦ Stepped runner := by
  have hself : Stepped runner runner := ⟨rfl, rfl, rfl, rfl⟩
  refine (ends_advance hrun).mpr ?_
  cases hturn : run.turn runner.bench.script with
  | error error => exact hself
  | ok turn =>
    obtain ⟨effect?, counter⟩ := turn
    have hsettle : Yields (fun _ ↦ Stepped runner) (settleAny audience position effect?) runner
        fun _ ↦ Stepped runner := by
      refine yields_settleAny (fun _ ↦ hself) (fun effect _ ↦ ⟨rfl, rfl, rfl, rfl⟩) ?_
      exact fun sink hsink ↦ preserves_stepped hcandid runner (hsinks ▸ hsink)
    refine Ends.mono hsettle ?_
    intro outcome middle hmiddle
    rcases outcome with halt | _
    · exact hmiddle
    · exact ⟨hmiddle.1, hmiddle.2, hmiddle.3, hmiddle.4⟩

/-! ### Blocking runs -/

/-- A blocking run fits: the session goes on at the blocking speed, or the attached run is at its
end. -/
def Fits (runner : Runner) : Prop :=
  runner.session.speed = Speed.blocking ∨ ∀ run, runner.run? = some run → run.atEnd = true

/-- In the loop of a blocking run of the attached run. -/
structure Looping (sinks : List Nat) (position : Nat) (runner : Runner) : Prop where
  honest : Honest sinks runner
  attached : runner.attached = some position
  fits : runner.Fits

theorem Looping.step (hcandid : audience.Candid sinks) (hlooping : Looping sinks position runner)
    (hrun : runner.runs[position]? = some run) (hend : run.atEnd = false)
    (hspeed : runner.session.speed = Speed.blocking) :
    Yields (fun _ ↦ Honest sinks) (advance audience position) runner
      fun _ last ↦ Looping sinks position last.stepCounted := by
  have hunfinished := hlooping.honest.not_finished (run?_eq_some hlooping.attached hrun) hend
  have hadvance := yields_advance_stepped hcandid hlooping.honest.sinks_eq hrun
  refine Yields.allow (Yields.mono hadvance fun _ last hstepped ↦ ?_) fun _ _ hstepped ↦
    hstepped.honest hlooping.honest hunfinished
  have hhonest := hstepped.honest hlooping.honest hunfinished
  refine ⟨⟨hhonest.1, hhonest.2, hhonest.3, hhonest.4⟩, ?_, .inl ?_⟩
  · exact hstepped.attached_eq.trans hlooping.attached
  · exact (congrArg Session.speed hstepped.session_eq).trans hspeed

/-- The loop of a blocking run that fits stops at the end of the program, or at a fault. -/
theorem yields_blockingSteps_honest (hcandid : audience.Candid sinks)
    (hlooping : Looping sinks position runner) (patience : Nat) :
    Yields (fun _ ↦ Honest sinks) (attempt (blockingSteps audience position patience)) runner
      fun outcome last ↦ Honest sinks last ∧ (outcome = .ok () → last.AtEnd) := by
  have hloop := yields_blockingSteps (fun _ hinv ↦ hinv.honest) (fun _ hinv _ ↦ hinv.honest)
    (fun _ _ hinv hrun hend hspeed ↦ hinv.step hcandid hrun hend hspeed) patience hlooping
  refine ends_attempt.mpr (Ends.mono hloop fun outcome last hends ↦ ?_)
  rcases outcome with halt | _
  · rcases halt with error | _
    · cases error with
      | fault fault => exact ⟨hends, nofun⟩
      | _ => exact hends
    · exact hends
  · obtain ⟨hlast, run, hrun, hend⟩ := hends
    have hfound := run?_eq_some hlast.attached hrun
    exact ⟨hlast.honest, fun _ ↦ ⟨run, hfound, hlast.fits.elim hend fun h ↦ h run hfound⟩⟩

theorem preserves_againUnless {again : Action Unit} (hagain : Preserves (Honest sinks) again)
    (speed : Int) : Preserves (Honest sinks) (againUnless speed again) := by
  apply Keeps.get_bind
  intro runner hhonest
  split
  · exact hagain runner hhonest
  · exact hhonest

/-- A blocking run that fits is honest. -/
theorem yields_blockingRun_honest {again : Action Unit} (hcandid : audience.Candid sinks)
    (hagain : Preserves (Honest sinks) again) (hlooping : Looping sinks position runner) :
    Yields (fun _ ↦ Honest sinks) (blockingRun audience again position) runner
      fun _ ↦ Honest sinks := by
  rw [Yields, blockingRun_eq, ends_bind, ends_get]
  have hhonest := hlooping.honest
  refine Yields.bind (hhonest.writes _ _ _) ?_
  rintro _ _ ⟨lines, rfl⟩
  have hlogged : Looping sinks position (runner.withLines lines) :=
    ⟨⟨hhonest.1, hhonest.2, hhonest.3, hhonest.4⟩, hlooping.attached, hlooping.fits⟩
  refine (yields_blockingSteps_honest hcandid hlogged _).bind ?_
  intro outcome middle hmiddle
  have hreport : Yields (fun _ ↦ Honest sinks) (conclude audience outcome) middle
      fun _ ↦ Honest sinks := by
    rcases outcome with fault | _
    · exact preserves_reportFault hcandid fault middle hmiddle.1
    · exact yields_reportEnd hcandid hmiddle.1 (hmiddle.2 rfl)
  exact hreport.bind fun _ last hlast ↦ preserves_againUnless hagain _ last hlast

end Runner

end TapeRunner
