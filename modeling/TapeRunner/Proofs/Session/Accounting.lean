import TapeRunner.Proofs.Session.Tally

/-!
# Steps are counted for the engine that makes them

A session is in step if it has counted as many steps as its engine has made, and showed it so with
every event (`Runner.InStep`). Between the move of a counter and the count of that step nobody is
called, so a step keeps a session in step as long as those who are called in the midst of it, for
the output, leave counters, counts and the attached engine alone (`Runner.Kept`); and then so does
every operation (`Runner.inStep_obey`). A scripted engine writes no output, and whatever observers
do is then accounted for at every moment (`Runner.steps_counted`).
-/

set_option autoImplicit false
set_option relaxedAutoImplicit false

namespace TapeRunner

open Activity

/-- If an event shows an engine, it shows as many steps as that engine has made. -/
def Event.InStep (event : Event) : Prop :=
  ∀ view, event.engine = some view → event.session.steps = view.counter

namespace Runner

/-- Every run is a straight one, the session has counted as many steps as the attached engine has
made, and the events that were heard show it so. -/
structure InStep (kind : EngineKind) (runner : Runner) : Prop where
  kind_eq : runner.bench.kind = kind
  bound : runner.journal.context.Plain
  straight : ∀ (position : Nat) (run : Run), runner.runs[position]? = some run → run.Straight kind
  count : ∀ run, runner.run? = some run → runner.session.steps = run.counter
  events : ∀ event ∈ runner.recorded, event.InStep

/-- The steps and the counters are those of another runner, the same engine is attached or none, and
the speed is not a blocking one if it was none. -/
structure Kept (base runner : Runner) : Prop where
  steps_eq : runner.session.steps = base.session.steps
  attached : runner.attached = base.attached ∨ runner.attached = none
  counter_eq : ∀ position : Nat,
    (runner.runs[position]?).map Run.counter = (base.runs[position]?).map Run.counter
  speed : 0 ≤ base.session.speed → 0 ≤ runner.session.speed

variable {kind : EngineKind} {runner last base : Runner} {position : Nat}

theorem Kept.refl (runner : Runner) : Kept runner runner := ⟨rfl, .inl rfl, fun _ ↦ rfl, id⟩

theorem Kept.trans (hfirst : Kept base runner) (hsecond : Kept runner last) : Kept base last where
  steps_eq := hsecond.steps_eq.trans hfirst.steps_eq
  attached := by
    rcases hsecond.attached with hsame | hnone
    · rw [hsame]
      exact hfirst.attached
    · exact .inr hnone
  counter_eq place := (hsecond.counter_eq place).trans (hfirst.counter_eq place)
  speed := hsecond.speed ∘ hfirst.speed

/-- A run that is found after one run was changed is that run changed or as it was. -/
theorem getElem?_changeRun {change : Run → Run} {place : Nat} {run : Run}
    (hfound : (runner.changeRun position change).runs[place]? = some run) :
    ∃ old, runner.runs[place]? = some old ∧
      (place = position ∧ run = change old ∨ place ≠ position ∧ run = old) := by
  simp only [changeRun, Array.getElem?_modify] at hfound
  split at hfound
  · next hsame =>
    obtain ⟨old, hold, rfl⟩ := Option.map_eq_some_iff.mp hfound
    exact ⟨old, hold, .inl ⟨hsame.symm, rfl⟩⟩
  · next hother => exact ⟨run, hfound, .inr ⟨Ne.symm hother, rfl⟩⟩

theorem sustained_inStep (kind : EngineKind) : Sustained (InStep kind) where
  lines _ hstep := { hstep with }
  told := by
    intro shown runner told hshown hstep
    refine { hstep with events := fun event hevent ↦ ?_ }
    rcases Array.mem_push.mp hevent with hold | rfl
    · exact hstep.events event hold
    · intro view hview
      obtain ⟨run, hrun, rfl⟩ := Option.map_eq_some_iff.mp hview
      exact hshown.count run hrun
  called _ hstep := { hstep with }
  session _ hstep hsteps _ :=
    { hstep with count := fun run hrun ↦ hsteps.trans (hstep.count run hrun) }
  surroundings _ _ _ hstep hkind := { hstep with kind_eq := hkind.trans hstep.kind_eq }
  context _ hstep hplain := { hstep with bound := hplain }
  changeRun := by
    intro runner position change hstep hchange
    refine { hstep with straight := fun place run hrun ↦ ?_, count := fun run hrun ↦ ?_ }
    · obtain ⟨old, hold, ⟨rfl, rfl⟩ | ⟨-, rfl⟩⟩ := getElem?_changeRun hrun
      · exact (hchange old hold).2 kind (hstep.straight _ old hold)
      · exact hstep.straight place run hold
    · obtain ⟨place, hattached, hfound⟩ := Option.bind_eq_some_iff.mp hrun
      obtain ⟨old, hold, hhow⟩ := getElem?_changeRun hfound
      have hcount := hstep.count old (run?_eq_some hattached hold)
      rcases hhow with ⟨rfl, rfl⟩ | ⟨-, rfl⟩
      · exact hcount.trans (hchange old hold).1.symm
      · exact hcount
  timers _ _ _ hstep := { hstep with }
  detached hstep := { hstep with count := nofun }

theorem sustained_kept (base : Runner) : Sustained (Kept base) where
  lines _ hkept := { hkept with }
  told _ _ hkept := { hkept with }
  called _ hkept := { hkept with }
  session := by
    intro runner session hkept hsteps hspeed
    refine { hkept with
      steps_eq := hsteps.trans hkept.steps_eq
      speed := fun hbase ↦ hspeed.elim (fun hsame ↦ ?_) id }
    rw [hsame]
    exact hkept.speed hbase
  surroundings _ _ _ hkept _ := { hkept with }
  context _ hkept _ := { hkept with }
  changeRun := by
    intro runner position change hkept hchange
    refine { hkept with counter_eq := fun place ↦ (Eq.trans ?_ (hkept.counter_eq place)) }
    rw [changeRun, Array.getElem?_modify]
    split
    · next hsame =>
      subst hsame
      cases hrun : runner.runs[position]? with
      | none => rfl
      | some run => exact congrArg some (hchange run hrun).1
    · rfl
  timers _ _ _ hkept := { hkept with }
  detached hkept := { hkept with attached := .inr rfl }

end Runner

/-- The observers keep the session in step. Where engines write, they also leave counters, counts
and the attached engine alone. -/
structure Audience.Accountable (kind : EngineKind) (audience : Audience) : Prop where
  inStep : ∀ position, Preserves (Runner.InStep kind) (audience.react position)
  kept : kind = .tape → ∀ position base, Preserves (Runner.Kept base) (audience.react position)

namespace Runner

variable {kind : EngineKind} {runner last base : Runner} {position : Nat} {audience : Audience}

/-! ### Steps of the engine -/

/-- In step, and attached to the run at a position or to none. -/
structure Tied (kind : EngineKind) (position : Nat) (runner : Runner) : Prop where
  inStep : InStep kind runner
  attached : runner.attached = some position ∨ runner.attached = none

/-- Once the counter has moved and the step is counted, the session is in step again. -/
theorem Tied.counted (htied : Tied kind position runner) {run : Run}
    (hrun : runner.runs[position]? = some run) (hstep : InStep kind last)
    (hkept : Kept runner last) :
    Tied kind position (last.changeRun position (·.resumeAt (run.counter + 1))).stepCounted where
  inStep := by
    refine { hstep with straight := fun place found hfound ↦ ?_, count := fun found hfound ↦ ?_ }
    · obtain ⟨old, hold, ⟨rfl, rfl⟩ | ⟨-, rfl⟩⟩ := getElem?_changeRun hfound
      · exact (hstep.straight _ old hold).resumeAt _
      · exact hstep.straight place found hold
    · obtain ⟨place, hattached, hplace⟩ := Option.bind_eq_some_iff.mp hfound
      have hbefore : runner.attached = some place :=
        hkept.attached.elim (fun hsame ↦ hsame.symm.trans hattached)
          fun hnone ↦ absurd (hnone.symm.trans hattached) nofun
      obtain rfl : position = place :=
        htied.attached.elim (fun hsame ↦ Option.some.inj (hsame.symm.trans hbefore))
          fun hnone ↦ absurd (hnone.symm.trans hbefore) nofun
      have hcount := htied.inStep.count run (run?_eq_some hbefore hrun)
      obtain ⟨old, -, ⟨-, rfl⟩ | ⟨hother, -⟩⟩ := getElem?_changeRun hplace
      · rw [Run.counter_resumeAt, ← hcount, ← hkept.steps_eq]
        rfl
      · exact absurd rfl hother
  attached := by
    rcases hkept.attached with hsame | hnone
    · exact hsame ▸ htied.attached
    · exact .inr hnone

/-- A step that is made and counted keeps the session in step, and one that is not made as well. -/
theorem Tied.yields_advance (haccountable : audience.Accountable kind)
    (htied : Tied kind position runner) :
    Yields (fun _ ↦ InStep kind) (advance audience position) runner
      fun _ last ↦ Tied kind position last.stepCounted := by
  cases hrun : runner.runs[position]? with
  | none =>
    rw [Yields, advance, ends_bind, ends_runAt_iff, hrun]
    exact htied.inStep
  | some run =>
    refine (ends_advance hrun).mpr ?_
    cases hturn : run.turn runner.bench.script with
    | error error => exact htied.inStep
    | ok turn =>
      obtain ⟨effect?, counter⟩ := turn
      obtain ⟨rfl, htouches⟩ := (htied.inStep.straight position run hrun).turn hturn
      have hsettle : Yields (fun _ last ↦ InStep kind last ∧ Kept runner last)
          (settleAny audience position effect?) runner
          fun _ last ↦ InStep kind last ∧ Kept runner last := by
        cases effect? with
        | none => exact ⟨htied.inStep, .refl runner⟩
        | some effect =>
          obtain ⟨hkind, -⟩ := htouches effect rfl
          have hboth := (sustained_inStep kind).and (sustained_kept runner)
          refine hboth.yields_settleAny (fun sink ↦ ?_) ⟨htied.inStep, .refl runner⟩ hrun
            fun effect heffect ↦ (htouches effect heffect).2
          exact (haccountable.inStep sink).and (haccountable.kept hkind sink runner)
      refine Ends.mono hsettle ?_
      intro outcome middle hmiddle
      rcases outcome with halt | _
      · exact hmiddle.1
      · exact htied.counted hrun hmiddle.1 hmiddle.2

section Operations

variable (haccountable : audience.Accountable kind)
include haccountable

/-! ### Moving on -/

theorem Tied.yields_blockingRun {again : Action Unit} (hagain : Preserves (InStep kind) again)
    (htied : Tied kind position runner) :
    Yields (fun _ ↦ InStep kind) (blockingRun audience again position) runner
      fun _ ↦ InStep kind := by
  rw [Yields, blockingRun_eq, ends_bind, ends_get]
  refine Yields.bind (writes_of_refusal (fun _ _ ↦ htied.inStep) _ _) ?_
  rintro _ _ ⟨lines, rfl⟩
  have hlogged : Tied kind position (runner.withLines lines) :=
    ⟨(sustained_inStep kind).lines lines htied.inStep, htied.attached⟩
  have hloop := yields_blockingSteps (fun _ h ↦ Tied.inStep h) (fun _ h _ ↦ Tied.inStep h)
    (fun _ _ h _ _ _ ↦ h.yields_advance haccountable) audience.patience hlogged
  refine Yields.bind (Yields.mono hloop fun _ _ hlast ↦ hlast.1.inStep).attempted
    fun outcome middle hmiddle ↦ ?_
  exact ((sustained_inStep kind).preserves_conclude haccountable.inStep outcome).bind
    (fun _ ↦ preserves_again hagain _) middle hmiddle

theorem inStep_rearmWithin (bound : Nat) :
    Preserves (InStep kind) (rearmWithin audience bound) := by
  induction bound with
  | zero => exact fun _ hstep ↦ hstep
  | succ bound ih =>
    rw [rearmWithin_succ]
    refine (sustained_inStep kind).preserves_disarm.bind fun _ runner hstep ↦ ?_
    refine ends_engage (fun _ ↦ hstep) (fun _ ↦ hstep)
      (fun _ _ _ ↦ (sustained_inStep kind).preserves_arm _ _ runner hstep) ?_
    exact fun _ position _ hattached ↦
      Tied.yields_blockingRun haccountable ih ⟨hstep, .inl hattached⟩

theorem inStep_rearm : Preserves (InStep kind) (rearm audience) :=
  inStep_rearmWithin haccountable _

omit haccountable in
/-- What an operation does once it has found the attached run. -/
theorem inStep_requireRun {Result : Type} (operation : String) {next : Nat → Action Result}
    (hnext : ∀ runner position, Tied kind position runner →
      Yields (fun _ ↦ InStep kind) (next position) runner fun _ ↦ InStep kind) :
    Preserves (InStep kind) (requireRun operation >>= next) := by
  intro runner hstep
  rw [Yields, ends_bind, ends_requireRun]
  cases hattached : runner.attached with
  | none => exact hstep
  | some position => exact hnext runner position ⟨hstep, .inl hattached⟩

theorem inStep_runBlocking : Preserves (InStep kind) (runBlocking audience) :=
  inStep_requireRun _ fun _ _ htied ↦ htied.yields_blockingRun haccountable
    (inStep_rearm haccountable)

/-- The count of a step makes up for the move of its counter, before anybody is told. -/
theorem Tied.yields_stepped (htied : Tied kind position runner) :
    Yields (fun _ ↦ InStep kind) (do
      let outcome ← attempt (advance audience position)
      concludeStep audience position outcome) runner fun _ ↦ InStep kind := by
  rw [Yields, ends_bind, ends_attempt]
  refine Ends.mono (htied.yields_advance haccountable) fun outcome middle hmiddle ↦ ?_
  have hreport := (sustained_inStep kind).preserves_conclude haccountable.inStep
  rcases outcome with halt | _
  · rcases halt with error | _
    · cases error with
      | fault fault => exact hreport (.error fault) middle hmiddle
      | _ => exact hmiddle
    · exact hmiddle
  · have hrest : Preserves (InStep kind) (do
        if (← runAt position).atEnd then reportEnd audience) := by
      refine (preserves_runAt position).bind fun run ↦ ?_
      split
      · exact hreport (.ok ())
      · exact Keeps.pure ()
    simp only [concludeStep, modifySession]
    rw [ends_bind, ends_modify]
    exact hrest _ hmiddle.inStep

theorem inStep_step : Preserves (InStep kind) (step audience) := by
  rw [step_eq]
  refine inStep_requireRun _ fun runner position htied ↦ ?_
  rw [Yields, ends_bind, ends_get]
  simp only [modifySession]
  rw [ends_bind, ends_modify]
  have hwiped : Tied kind position runner.wiped :=
    ⟨(sustained_inStep kind).session _ htied.inStep rfl (.inl rfl), htied.attached⟩
  have hstepped := hwiped.yields_stepped haccountable
  have hrest := ((sustained_inStep kind).preserves_tell haccountable.inStep .stepped).bind fun _ ↦
    preserves_again (inStep_rearm haccountable) runner.session.speed
  have hwhole := hstepped.bind fun _ ↦ hrest
  rw [bind_assoc] at hwhole
  exact hwhole

theorem inStep_callTimer (index : Nat) : Preserves (InStep kind) (callTimer audience index) := by
  apply Keeps.get_bind
  intro runner hstep
  split
  · exact keeps_tick (inStep_step haccountable) _ runner hstep
  · exact hstep

theorem inStep_setSpeed (speed : Int) : Preserves (InStep kind) (setSpeed audience speed) :=
  fun _ hstep ↦ (sustained_inStep kind).yields_setSpeed haccountable.inStep
    (fun _ ↦ hstep) { hstep with } (inStep_rearm haccountable)

/-- A fresh session has counted no steps, and its engine has made none. -/
theorem inStep_start (program : String) (options : StartOptions)
    (hprogram : kind = .tape → Loopless program) :
    Preserves (InStep kind) (start audience program options) := by
  apply Keeps.get_bind
  intro runner hstep
  cases hbuild : runner.bench.build program with
  | error error => exact hstep
  | ok run =>
    obtain ⟨hstraight, hcounter⟩ :=
      Run.straight_of_build (fun htape ↦ hprogram (hstep.kind_eq.symm.trans htape)) hbuild
    -- The old engine is still attached here, so that the line must not be refused.
    have hbegun := hstep.bound
    rw [Yields, ends_bind, ends_set]
    refine Yields.bind (Runner.yields_disarm fun _ _ ↦ writes_of_plain hbegun Fields.plain_nil) ?_
    rintro _ _ ⟨generation, timers, lines, rfl⟩
    rw [Yields, ends_bind, ends_modify]
    refine (((sustained_inStep kind).preserves_log _ _ _).bind fun _ ↦
      ((sustained_inStep kind).preserves_tell haccountable.inStep .started).bind
        fun _ ↦ inStep_rearm haccountable) _ ?_
    refine ⟨hstep.kind_eq, ?_, fun place found hfound ↦ ?_, fun found hfound ↦ ?_, hstep.events⟩
    · exact hbegun.named _
    · simp only [withLines, disarmed, Array.getElem?_push] at hfound
      split at hfound
      · obtain rfl := Option.some.inj hfound
        exact hstep.kind_eq ▸ hstraight
      · exact hstep.straight place found hfound
    · simp only [withLines, disarmed, run?, Option.bind_some, Array.getElem?_push_size,
        Option.some.injEq] at hfound
      subst hfound
      exact hcounter.symm

/-! ### Timers on their own -/

theorem inStep_callAside (index : Nat) : Preserves (InStep kind) (callAside audience index) := by
  apply Keeps.get_bind
  intro runner hstep
  have hsustained := sustained_inStep kind
  have hrestored := hsustained.preserves_modifyContext hstep.bound
  refine ((hsustained.preserves_modifyContext Fields.plain_nil).bind fun _ ↦
    (inStep_callTimer haccountable index).survives.bind fun survived ↦ ?_) runner hstep
  split
  · refine (hsustained.preserves_cancel index).bind fun _ ↦ Keeps.get_bind fun after hafter ↦ ?_
    split
    · exact ((hsustained.preserves_log _ _ _).bind fun _ ↦ hrestored) after hafter
    · exact hrestored after hafter
  · exact hrestored

theorem inStep_drainWithin (bound : Nat) :
    Preserves (InStep kind) (drainWithin audience bound) := by
  induction bound with
  | zero => exact fun _ hstep ↦ hstep
  | succ bound ih =>
    apply Keeps.get_bind
    intro runner hstep
    split
    · exact hstep
    · exact ((inStep_callAside haccountable _).bind fun _ ↦ ih) runner hstep

/-- Every order keeps a session in step, save that a tape has to be started with a program without
loops. -/
theorem inStep_obey {order : Order} (horder : kind = .tape → order.Loopless) :
    Preserves (InStep kind) (obey audience order) := by
  have hanswer {Result : Type} {activity : Action Result}
      (hpreserves : Preserves (InStep kind) activity) (reply : Result → Reply) :
      Preserves (InStep kind) (do return reply (← activity)) :=
    hpreserves.bind fun result ↦ Keeps.pure (reply result)
  cases order with
  | start program options =>
    exact hanswer (inStep_start haccountable program options horder) fun _ ↦ .nothing
  | step => exact hanswer (inStep_step haccountable) fun _ ↦ .nothing
  | runBlocking => exact hanswer (inStep_runBlocking haccountable) fun _ ↦ .nothing
  | faster =>
    exact hanswer (Keeps.get_bind fun runner ↦ inStep_setSpeed haccountable _ runner)
      fun _ ↦ .nothing
  | slower =>
    refine hanswer (Keeps.get_bind fun runner hstep ↦ ?_) fun _ ↦ .nothing
    simp only
    split
    · exact inStep_setSpeed haccountable _ runner hstep
    · exact hstep
  | pause => exact hanswer (inStep_setSpeed haccountable _) fun _ ↦ .nothing
  | superSpeed => exact hanswer (inStep_setSpeed haccountable _) fun _ ↦ .nothing
  | setSpeed speed => exact hanswer (inStep_setSpeed haccountable speed) fun _ ↦ .nothing
  | fire rounds => exact hanswer (keeps_fire (inStep_step haccountable) rounds) .calls
  | callTimer index =>
    exact (preserves_timerAt_upheld index).bind fun position ↦
      hanswer (inStep_callTimer haccountable position) fun _ ↦ .nothing
  | rearm => exact hanswer (inStep_rearm haccountable) fun _ ↦ .nothing
  | pokeSpeed speed =>
    have hpoked : Preserves (InStep kind) (modifySession ({ · with speed })) :=
      Keeps.modify fun _ hstep ↦ { hstep with }
    exact hanswer hpoked fun _ ↦ .nothing
  | drain speed =>
    exact (inStep_setSpeed haccountable speed).bind fun _ ↦
      (inStep_drainWithin haccountable _).bind fun _ ↦ Keeps.pure _
  | _ => exact (sustained_inStep kind).preserves_obey_of_still haccountable.inStep trivial

end Operations

/-! ### At every moment -/

theorem inStep_of_fresh {bench : Bench} {hooks : List Hook} {journal : Journal} {start : Runner}
    (hstart : fresh bench hooks journal = .ok start) (hbound : journal.context.Plain) :
    InStep bench.kind start := by
  obtain ⟨_, -, rfl⟩ := exists_of_fresh hstart
  refine ⟨rfl, hbound, fun _ _ hrun ↦ by simp at hrun, nofun, fun _ hevent ↦ ?_⟩
  exact absurd hevent (Array.not_mem_empty _)

end Runner

/-- Observers of a scripted engine are accountable, whatever they do. -/
theorem Audience.accountable_scripted (cut : Runner → Bool) (conduct : Nat → Runner → Conduct)
    (patience depth : Nat) :
    (Audience.conductedUntil cut conduct patience depth).Accountable .scripted := by
  refine ⟨?_, nofun⟩
  induction depth with
  | zero => exact fun _ _ hstep ↦ hstep
  | succ depth ih =>
    refine Runner.preserves_react_of_gives (fun _ _ hstep ↦ { hstep with })
      (fun _ runner hstep (_ : True) ↦ ?_) fun _ _ ↦ .of_forall fun _ _ ↦ trivial
    exact Runner.inStep_obey ⟨ih, nofun⟩ nofun runner hstep

namespace Runner

variable {start last : Runner}

/-- Steps are accounted for. With a scripted engine, whose steps move its counter on by one and call
nobody, and whatever it is scripted to refuse or to break at, the session has counted as many steps
as the attached engine has made, at every moment of every run: also between the parts of an
operation, at the call of an observer that gives orders of its own or has come out of one, after a
fault and after an error. And so it is shown by every event that the recorder hears, wherever it
is subscribed. -/
theorem steps_counted {bench : Bench} {hooks : List Hook} {journal : Journal}
    (hstart : fresh bench hooks journal = .ok start) (hkind : bench.kind = .scripted)
    (hbound : journal.context.Plain) (bus : Bus Observer)
    (hreachable : Reachable { start with bus } last) :
    (∀ run, last.run? = some run → last.session.steps = run.counter) ∧
      ∀ event ∈ last.recorded, event.InStep := by
  obtain ⟨cast, cut, rfl⟩ := hreachable
  have hfresh : InStep .scripted { start with bus } :=
    { hkind ▸ inStep_of_fresh hstart hbound with }
  have hobservers := Audience.accountable_scripted cut cast.conduct cast.patience cast.depth
  have hmoment : InStep .scripted (cast.moment { start with bus } cut) := by
    refine (yields_performUntil_of_gives (fun _ runner hstep (_ : True) ↦ ?_) cut
      (.of_forall fun _ _ ↦ trivial) hfresh).last
    exact inStep_obey hobservers nofun runner hstep
  exact ⟨hmoment.count, hmoment.events⟩

/-- Restarts and steps on when it is called for the first time. -/
def restartsAndSteps (_ : Nat) (runner : Runner) : Conduct :=
  if runner.hookCalls = #[1] then .inTurn [.start "xxx" ⟨false, false⟩, .step, .step] else .rest

/-- An observer of the first step restarts and steps twice, the second time to a fault. It does so
before the recorder hears of the first step, which shows the new engine. -/
theorem steps_counted_restarted :
    ∃ start last, fresh ⟨.scripted, 1, "", 0, ⟨[(1, "refused")], [], []⟩⟩
        [⟨.event "session.stepped", [], []⟩] .initial = .ok start ∧
      start.Reachable last ∧
      last.run?.map Run.counter = some 1 ∧ last.session.steps = 1 ∧ last.recorded.size = 6 ∧
      ∀ event ∈ last.recorded, event.InStep := by
  obtain ⟨start, hstart⟩ : ∃ start, fresh ⟨.scripted, 1, "", 0, ⟨[(1, "refused")], [], []⟩⟩
      [⟨.event "session.stepped", [], []⟩] .initial = .ok start := ⟨_, rfl⟩
  let last := (runFrom ((Conduct.inTurn [.start "xx" ⟨false, false⟩, .step]).perform
    (.conducted restartsAndSteps 10 2)) start).2
  have hreachable : start.Reachable last := reachable_perform _ _ _ _ _
  have hlast : (decide (last.run?.map Run.counter = some 1 ∧ last.recorded.size = 6)) = true := by
    cases hstart
    decide +kernel
  obtain ⟨hcounter, hsize⟩ := of_decide_eq_true hlast
  obtain ⟨hcount, hevents⟩ := steps_counted hstart rfl Fields.plain_nil start.bus hreachable
  obtain ⟨run, hrun, hone⟩ := Option.map_eq_some_iff.mp hcounter
  exact ⟨start, last, hstart, hreachable, hcounter, (hcount run hrun).trans hone, hsize, hevents⟩

end Runner

end TapeRunner
