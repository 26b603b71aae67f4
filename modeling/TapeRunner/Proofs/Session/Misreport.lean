import TapeRunner.Proofs.Session.Honesty

/-!
# Completions that are not true

A blocking run reports the end of the program when its loop stops, for whatever reason. If it stops
short, in the middle of the program, the report is heard all the same and is false
(`Runner.yields_blockingRun_false`); and it does so whenever it is asked for at another speed than
the blocking one (`Runner.yields_runBlocking_false`).
-/

set_option autoImplicit false
set_option relaxedAutoImplicit false

namespace TapeRunner

open Activity

namespace Runner

/-- The session stands in the middle of its program, and a completion would be heard by the recorder
and by nobody who does anything about it. -/
structure Midway (audience : Audience) (runner : Runner) : Prop where
  short : ∃ run, runner.run? = some run ∧ run.atEnd = false
  heard : .recorder ∈ runner.bus.recipients "session.finished"
  passive : ∀ position, .hook position ∈ runner.bus.recipients "session.finished" →
    audience.PassiveAt position

/-- The loop of a blocking run stops in the middle of the program, and not by a fault. -/
def StopsShort (audience : Audience) (position : Nat) (runner : Runner) : Prop :=
  Yields cutOff (do
      log .info "session.blocking_run" [runner.nameField]
      attempt (blockingSteps audience position audience.patience)) runner
    fun outcome middle ↦ outcome = .ok () ∧ middle.Midway audience

/-- Said to have finished, and not at the end. -/
structure Misreported (runner : Runner) : Prop where
  short : ∃ run, runner.run? = some run ∧ run.atEnd = false
  finished : ∃ elapsed, runner.session.status = some (.finished elapsed)
  idle : runner.session.speed = Speed.idle

variable {audience : Audience} {runner last : Runner} {position : Nat}

/-- An event that the recorder hears ends up among the events it has heard. -/
theorem yields_hear_recorded {inv : Runner → Prop} {event : Event} {observers : List Observer}
    (hmem : .recorder ∈ observers)
    (hpassive : ∀ position, .hook position ∈ observers → audience.PassiveAt position)
    (hcalls : ∀ runner hookCalls, inv runner → inv { runner with hookCalls })
    (hrecorded : ∀ runner, inv runner → inv (runner.withEvent event)) (hinv : inv runner) :
    Yields cutOff (observers.forM (hear audience event)) runner
      fun _ last ↦ inv last ∧ event ∈ last.recorded := by
  induction observers generalizing runner with
  | nil => exact absurd hmem List.not_mem_nil
  | cons observer later ih =>
    have hlater := fun position hposition ↦
      hpassive position (List.mem_cons_of_mem _ hposition)
    cases observer with
    | registrar => exact ih ((List.mem_cons.mp hmem).resolve_left nofun) hlater hinv
    | recorder =>
      have hheard : Keeps (fun last ↦ inv last ∧ event ∈ last.recorded) cutOff
          (later.forM (hear audience event)) := by
        refine Keeps.forM later ?_
        intro observer hobserver
        cases observer with
        | registrar => exact Keeps.pure ()
        | recorder =>
          exact Keeps.modify fun runner h ↦ ⟨hrecorded runner h.1, Array.mem_push_of_mem _ h.2⟩
        | hook position =>
          exact keeps_react_of_passive (hlater position hobserver)
            fun runner hookCalls h ↦ ⟨hcalls runner hookCalls h.1, h.2⟩
      exact hheard (runner.withEvent event) ⟨hrecorded runner hinv, Array.mem_push_self⟩
    | hook position =>
      have hreact := hpassive position List.mem_cons_self
      refine Yields.bind (keeps_react_of_passive hreact hcalls runner hinv) ?_
      intro _ _ hafter
      exact ih ((List.mem_cons.mp hmem).resolve_left nofun) hlater hafter

theorem yields_publish_recorded {inv : Runner → Prop} {event : Event}
    (hheard : .recorder ∈ runner.bus.recipients event.kind.type)
    (hpassive : ∀ position, .hook position ∈ runner.bus.recipients event.kind.type →
      audience.PassiveAt position)
    (hlines : ∀ runner lines, inv runner → inv (runner.withLines lines))
    (hcalls : ∀ runner hookCalls, inv runner → inv { runner with hookCalls })
    (hrecorded : ∀ runner, inv runner → inv (runner.withEvent event)) (hinv : inv runner) :
    Yields cutOff (publish audience event) runner
      fun _ last ↦ inv last ∧ event ∈ last.recorded := by
  rw [Yields, publish, ends_bind, ends_get]
  refine Yields.bind (writes_cutOff _ _ _ _) ?_
  rintro _ _ ⟨lines, rfl⟩
  exact yields_hear_recorded hheard hpassive hcalls hrecorded (hlines runner lines hinv)

/-- A completion that is told of an engine in the middle of its program is not truthful. -/
theorem not_truthful {run : Run} (hrun : runner.run? = some run) (hend : run.atEnd = false)
    (elapsed : Float) : ¬ (runner.eventOf (.finished elapsed)).Truthful := by
  intro htrue
  obtain ⟨-, view, hview, hatEnd⟩ := htrue elapsed rfl
  have hshown : some run.view = some view :=
    (congrArg (Option.map Run.view) hrun).symm.trans hview
  rw [← Option.some.inj hshown] at hatEnd
  exact absurd (hend.symm.trans hatEnd) Bool.false_ne_true

/-- A report of the end in the middle of the program is false, and is heard. -/
theorem yields_reportEnd_false (hmidway : runner.Midway audience) :
    Yields cutOff (reportEnd audience) runner
      fun _ last ↦ last.Misreported ∧ ∃ event ∈ last.recorded, ¬ event.Truthful := by
  refine ends_reportEnd.mpr (Yields.bind (writes_cutOff _ _ _ _) ?_)
  rintro _ _ ⟨lines, rfl⟩
  obtain ⟨run, hrun, hend⟩ := hmidway.short
  let reported := (runner.idledWith (.finished runner.elapsed)).withLines lines
  let event := reported.counted.eventOf (.finished runner.elapsed)
  have hreported : reported.counted.Misreported := ⟨hmidway.short, ⟨_, rfl⟩, rfl⟩
  have hpublish : Yields cutOff (publish audience event) reported.counted
      fun _ last ↦ last.Misreported ∧ event ∈ last.recorded :=
    yields_publish_recorded hmidway.heard hmidway.passive (fun _ _ h ↦ ⟨h.1, h.2, h.3⟩)
      (fun _ _ h ↦ ⟨h.1, h.2, h.3⟩) (fun _ h ↦ ⟨h.1, h.2, h.3⟩) hreported
  refine (ends_tell _).mpr (Yields.mono hpublish fun _ last hlast ↦ ⟨hlast.1, event, hlast.2, ?_⟩)
  have hshown : reported.counted.run? = some run := hrun
  exact not_truthful hshown hend _

/-- What is misreported stays so when there is nothing to go on with. -/
theorem keeps_rearm_misreported (events : Array Event) :
    Keeps (fun last ↦ last.Misreported ∧ last.recorded = events) cutOff (rearm audience) := by
  intro runner hmisreported
  unfold rearm
  cases audience.patience with
  | zero => exact trivial
  | succ bound =>
    rw [rearmWithin_succ]
    refine Yields.bind (yields_disarm fun _ _ ↦ writes_cutOff _ _) ?_
    rintro _ _ ⟨generation, timers, lines, rfl⟩
    obtain ⟨⟨hshort, hfinished, hidle⟩, hevents⟩ := hmisreported
    have hidled : ((runner.disarmed generation timers).withLines lines).session.speed =
        Speed.idle := hidle
    exact (ends_engage_of_idle hidled).mpr ⟨⟨hshort, hfinished, hidle⟩, hevents⟩

/-- A blocking run whose loop stops short is reported as finished all the same. -/
theorem yields_blockingRun_false (hstops : StopsShort audience position runner) :
    Yields cutOff (blockingRun audience (rearm audience) position) runner
      fun _ last ↦ last.Misreported ∧ ∃ event ∈ last.recorded, ¬ event.Truthful := by
  have hsplit : blockingRun audience (rearm audience) position = (do
      let before ← get
      let outcome ← (do
        log .info "session.blocking_run" [before.nameField]
        attempt (blockingSteps audience position audience.patience))
      conclude audience outcome
      againUnless before.session.speed (rearm audience)) := by
    rw [blockingRun_eq]
    simp only [bind_assoc]
  rw [Yields, hsplit, ends_bind, ends_get]
  refine Yields.bind hstops ?_
  rintro _ middle ⟨rfl, hmidway⟩
  refine (yields_reportEnd_false hmidway).bind ?_
  intro _ last hlast
  obtain ⟨hmisreported, event, hevent, hfalse⟩ := hlast
  have hagain : Yields cutOff (againUnless runner.session.speed (rearm audience)) last
      fun _ final ↦ final.Misreported ∧ final.recorded = last.recorded := by
    rw [Yields, againUnless, ends_bind, ends_get]
    simp only
    split
    · exact keeps_rearm_misreported last.recorded last ⟨hmisreported, rfl⟩
    · exact ⟨hmisreported, rfl⟩
  refine Yields.mono hagain fun _ final hfinal ↦ ⟨hfinal.1, event, ?_, hfalse⟩
  rw [hfinal.2]
  exact hevent

/-- A blocking run that does not fit does not even begin. -/
theorem stopsShort_of_not_fits (hattached : runner.attached = some position)
    (hfits : ¬ runner.Fits) (hmidway : runner.Midway audience) :
    StopsShort audience position runner := by
  refine Yields.bind (writes_cutOff _ _ _ _) ?_
  rintro _ _ ⟨lines, rfl⟩
  obtain ⟨run, hrun, -⟩ := hmidway.short
  obtain ⟨hspeed, -⟩ := not_or.mp hfits
  refine ends_attempt.mpr ?_
  cases audience.patience with
  | zero => exact trivial
  | succ patience =>
    have hfound : (runner.withLines lines).runs[position]? = some run := by
      rw [run?, hattached] at hrun
      exact hrun
    rw [ends_blockingSteps_of_stops hfound (.inl hspeed)]
    exact ⟨rfl, hmidway.short, hmidway.heard, hmidway.passive⟩

theorem yields_runBlocking_false (hfits : ¬ runner.Fits) (hmidway : runner.Midway audience) :
    Yields cutOff (runBlocking audience) runner
      fun _ last ↦ last.Misreported ∧ ∃ event ∈ last.recorded, ¬ event.Truthful := by
  obtain ⟨run, hrun, -⟩ := hmidway.short
  obtain ⟨position, hattached, -⟩ := Option.bind_eq_some_iff.mp hrun
  rw [Yields, runBlocking, ends_bind, ends_requireRun, hattached]
  exact yields_blockingRun_false (stopsShort_of_not_fits hattached hfits hmidway)

end Runner

end TapeRunner
