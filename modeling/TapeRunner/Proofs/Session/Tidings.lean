import TapeRunner.Proofs.Session.Recount

/-!
# What every order tells

Before observers that only listen, it can be said of every order which events it tells
(`Runner.Tells`). An order inside of a session tells them from the session as it finds it
(`Runner.Regular.recounts_obey`), a change of speed from the session with the new speed
(`Runner.Regular.accounts_setSpeed`). A start begins another session, tells of it and goes on inside
of it (`Runner.Regular.ends_start`); a stop ends the session, tells of it and leaves nothing that
could tell more (`Runner.Regular.ends_stop`).
-/

set_option autoImplicit false
set_option relaxedAutoImplicit false

namespace TapeRunner

open Activity

/-- An order that neither reaches around the operations nor lets an engine crash, with a program
whose length fits into a line. -/
def Order.Regular : Order → Prop
  | .start program _ => (program.length : Int) ≤ greatestInteger
  | .setScript _ crashes _ => crashes.getD [] = []
  | .pokeSpeed _ | .pokeActive _ | .drain _ => False
  | _ => True

/-- An order that may come to a blocking run. -/
def Order.Blocking : Order → Prop
  | .start _ _ | .runBlocking | .rearm | .setSpeed _ | .faster | .slower | .pause | .superSpeed =>
    True
  | _ => False

/-- An order to what surrounds the session, or to its input. -/
def Order.Beside : Order → Prop
  | .feed _ | .readInput | .cancelTimer _ | .setClock _ _ | .setMemory _ | .setScript _ _ _
  | .clearOutput | .raise _ | .look => True
  | _ => False

/-- The speed that an order asks for, if it asks for one. -/
def Order.speed? (runner : Runner) : Order → Option Int
  | .setSpeed speed => some speed
  | .faster => some (Speed.clamp (runner.session.speed + 1))
  | .slower => if Speed.idle < runner.session.speed then some (runner.session.speed - 1) else none
  | .pause => some Speed.idle
  | .superSpeed => some Speed.blocking
  | _ => none

/-- An order that neither starts nor stops a session nor asks for a speed. -/
def Order.Inside (runner : Runner) (order : Order) : Prop :=
  order.speed? runner = none ∧ match order with
    | .start _ _ | .stop | .shutdown => False
    | _ => True

theorem Order.blocking_of_speed {runner : Runner} {order : Order} {speed : Int}
    (hasks : order.speed? runner = some speed) : order.Blocking := by
  cases order <;> trivial

namespace Runner

variable {runner middle last : Runner} {audience : Audience} {kinds further : List EventKind}
variable {blocking : Prop}

/-! ### Speed -/

/-- A line can hold both the speed so far and another one. -/
def HoldsSpeeds (runner : Runner) (speed : Int) : Prop :=
  (Value.whole runner.session.speed).Simple ∧ (Value.whole speed).Simple

/-- What a change of speed tells: of itself, if the session is active, and what rearming tells. The
same speed is no change, and nothing is told if the speeds do not fit into a line. -/
def SpeedTells (runner : Runner) (speed : Int) (kinds : List EventKind) : Prop :=
  if speed = runner.session.speed then kinds = []
  else ¬ runner.HoldsSpeeds speed ∧ kinds = [] ∨
    ∃ further, (runner.withSpeed speed).RearmTells further ∧ kinds =
      (if runner.session.active then [.speedChanged runner.session.speed] else []) ++ further

namespace Regular

/-- A change of speed is told of an active session, and then what rearming tells. -/
theorem recounts_change (hregular : runner.Regular) (hpassive : audience.Passive)
    (previous : Int) :
    Recounts True (fun kinds ↦ ∃ further, runner.RearmTells further ∧ kinds =
        (if runner.session.active then [.speedChanged previous] else []) ++ further)
      (do tellChange audience previous; rearm audience) runner := by
  cases hactive : runner.session.active with
  | false =>
    rw [tellChange]
    simp only [ends_bind, ends_get, hactive, Bool.false_eq_true, if_false, ends_pure]
    refine accounts_mono (hregular.accounts_rearm hpassive) ?_
    rintro kinds last ⟨htells, hstays⟩
    exact ⟨⟨kinds, htells, rfl⟩, hstays⟩
  | true =>
    have hinner : EventKind.Inner (.speedChanged previous) := by simp [EventKind.Inner]
    refine accounts_bind ((ends_tellChange_of_active hactive).mpr
      (hregular.yields_tell hpassive hactive (.speedChanged previous) hinner)) ?_
    rintro _ after ⟨hrecords, hshown, hspeed⟩
    have hafter := hrecords.regular hregular
    refine ⟨_, hrecords, accounts_mono (hafter.accounts_rearm hpassive) ?_⟩
    rintro further last ⟨htells, hstays⟩
    rw [RearmTells, hrecords.active_eq, hspeed] at htells
    exact ⟨⟨further, htells, rfl⟩, fun _ ↦ hstays (.inr hshown)⟩

/-- A change of speed tells of itself and what rearming tells, from the session with the new
speed. -/
theorem accounts_setSpeed (hregular : runner.Regular) (hpassive : audience.Passive) (speed : Int) :
    Ends (setSpeed audience speed) runner ((runner.withSpeed speed).Accounted True fun kinds last ↦
      runner.SpeedTells speed kinds ∧ (runner.withSpeed speed).StaysShown kinds last) := by
  by_cases hsame : speed = runner.session.speed
  · subst hsame
    rw [setSpeed_eq, ends_bind, ends_get]
    simp only [ne_eq, not_true_eq_false, if_false, ends_pure]
    refine ⟨[], .refl runner, .inl ⟨?_, .refl runner⟩⟩
    rw [SpeedTells, if_pos rfl]
  · let changed := runner.withSpeed speed
    have hchanged : changed.Regular := { hregular with }
    have hline : changed.Writes (fun _ last ↦ last = changed ∧ ¬ runner.HoldsSpeeds speed)
        [("previous_speed", .whole runner.session.speed), ("speed", .whole speed)] := by
      by_cases hfits : runner.HoldsSpeeds speed
      · exact writes_of_plain hchanged.bound (Fields.plain_cons (by decide) hfits.1
          (Fields.plain_cons (by decide) hfits.2 Fields.plain_nil))
      · exact writes_of_refusal fun _ _ ↦ ⟨rfl, hfits⟩
    refine (ends_setSpeed_of_other hsame).mpr ((ends_bind _ _).mpr
      (Ends.mono (hline .info "session.speed_changed") fun outcome after hafter ↦ ?_))
    rcases outcome with halt | _
    · obtain ⟨rfl, hunfit⟩ := hafter
      refine ⟨[], .refl _, .inl ⟨?_, .refl _⟩⟩
      rw [SpeedTells, if_neg hsame]
      exact .inl ⟨hunfit, rfl⟩
    · obtain ⟨lines, rfl⟩ := hafter
      have hwritten := records_withLines changed lines
      refine Ends.mono ((hwritten.regular hchanged).recounts_change hpassive _) ?_
      rintro outcome last ⟨kinds, hrecords, htold⟩
      refine ⟨kinds, hwritten.nil_trans hrecords, htold.imp_left ?_⟩
      rintro ⟨⟨further, htells, rfl⟩, hstays⟩
      refine ⟨?_, hstays⟩
      rw [SpeedTells, if_neg hsame]
      exact .inr ⟨further, htells, rfl⟩

end Regular

/-! ### Starting and stopping -/

/-- What a start tells: of itself, and what rearming tells then, if an engine can be built. -/
def StartTells (runner : Runner) (program : String) (options : StartOptions)
    (kinds : List EventKind) : Prop :=
  match runner.bench.build program with
  | .error _ => kinds = []
  | .ok run => ∃ further, (runner.begun options run).RearmTells further ∧
      kinds = .started :: further

/-- A session has begun with a run and has been told of. -/
structure Opened (runner : Runner) (options : StartOptions) (run : Run) (last : Runner) : Prop where
  appends : Appends [.started] (runner.begun options run) last
  regular : last.Regular
  active : last.session.active = true
  speed_eq : last.session.speed = options.initialSpeed
  shown : last.Shown

/-- An active session has ended, and has been told of unless events of no kinds have come on
record. -/
structure Closed (kinds : List EventKind) (runner last : Runner) : Prop where
  appends : Appends kinds runner last
  regular : last.Regular
  inactive : last.session.active = false
  speed_eq : last.session.speed = runner.session.speed
  steps_eq : last.session.steps = runner.session.steps
  shown : kinds ≠ [] → last.Shown

/-- To detach a session that is not active only disarms it. -/
theorem Regular.yields_detach (hregular : runner.Regular)
    (hinactive : runner.session.active = false) {halted : Halt → Runner → Prop} :
    Yields halted detach runner fun _ last ↦ ∃ lines, last = runner.cleared.withLines lines := by
  have hoff := mt hregular.active_iff.mpr (Bool.eq_false_iff.mp hinactive)
  have hnone : runner.attached = none := Option.not_isSome_iff_eq_none.mp hoff
  refine Yields.bind (yields_clear (writes_of_plain hregular.bound Fields.plain_nil)) ?_
  rintro _ _ ⟨lines, rfl⟩
  refine ⟨lines, ?_⟩
  rw [← hnone]
  rfl

namespace Regular

theorem begun (hregular : runner.Regular) (options : StartOptions) {program : String} {run : Run}
    (hbuild : runner.bench.build program = .ok run) : (runner.begun options run).Regular := by
  have hpushed := upheldThroughout_founded.pushed hregular.toFounded (Run.sound_of_build hbuild)
  have hinside : runner.runs.size < (runner.runs.push run).size := by
    rw [Array.size_push]
    exact Nat.lt_succ_self _
  have hattached := upheldThroughout_founded.attachedTo runner.runs.size hpushed hinside
  exact
    { hattached with
      bound := hregular.bound.named _
      crashes_nil := hregular.crashes_nil
      active_iff := ⟨fun _ ↦ rfl, fun _ ↦ rfl⟩ }

theorem opened_of_traced {options : StartOptions} {run : Run}
    {lines : Array Line} (hbegun : (runner.begun options run).Regular)
    (htraced : (((runner.begun options run).withLines lines).told .started).Traced last) :
    runner.Opened options run last := by
  obtain ⟨hookCalls, further, rfl⟩ := htraced
  exact
    { appends := appends_told rfl rfl
      regular := { hbegun with }
      active := rfl
      speed_eq := rfl
      shown := ⟨_, Array.back?_push, rfl, rfl⟩ }

/-- Where an engine can be built, a session is opened and goes on as rearming says. -/
theorem ends_start (hregular : runner.Regular) (hpassive : audience.Passive) {program : String}
    (options : StartOptions) {run : Run} (hbuild : runner.bench.build program = .ok run)
    (hlength : (program.length : Int) ≤ greatestInteger) :
    Ends (start audience program options) runner fun outcome last ↦ ∃ opened,
      runner.Opened options run opened ∧ opened.Accounted True (fun further last ↦
        (runner.begun options run).RearmTells further ∧ last.Shown) outcome last := by
  refine ends_iff_yields.mpr (yields_start hbuild hregular.bound fun lines ↦ ?_)
  have hbegun : ((runner.begun options run).withLines lines).Regular :=
    { hregular.begun options hbuild with }
  have hplain := runner.plain_startedFields options hlength
  refine Yields.bind (writes_of_plain hbegun.bound hplain .info "session.started") ?_
  rintro _ _ ⟨written, rfl⟩
  have hlogged : ((runner.begun options run).withLines written).Regular := { hbegun with }
  refine Yields.bind (hlogged.yields_told (hpassive.passiveIn _) .started) ?_
  intro _ opened htraced
  have hopened := opened_of_traced (hregular.begun options hbuild) htraced
  have hrearm : Ends (rearm audience) opened fun outcome last ↦ ∃ opened,
      runner.Opened options run opened ∧ opened.Accounted True (fun further last ↦
        (runner.begun options run).RearmTells further ∧ last.Shown) outcome last := by
    refine Ends.mono (hopened.regular.accounts_rearm hpassive) ?_
    rintro outcome last ⟨kinds, hrecords, htold⟩
    refine ⟨opened, hopened, kinds, hrecords, htold.imp_left ?_⟩
    rintro ⟨htells, hstays⟩
    rw [RearmTells, hopened.active, hopened.speed_eq] at htells
    exact ⟨htells, hstays (.inr hopened.shown)⟩
  exact ends_iff_yields.mp hrearm

/-- An active session is closed, and told of unless the line about it is refused. -/
theorem ends_stop (hregular : runner.Regular) (hpassive : audience.Passive)
    (hactive : runner.session.active = true) :
    Ends (stop audience) runner fun outcome last ↦ ∃ kinds, Closed kinds runner last ∧
      (kinds = [.stopped] ∨ kinds = [] ∧ ∃ halt, outcome = .error halt ∧
        halt.Overflows runner.session.steps) := by
  have hoff : runner.ended.Regular :=
    { hregular with
      attached_lt := nofun
      active_iff := ⟨nofun, nofun⟩ }
  refine ends_iff_yields.mpr (Yields.mono (hregular.yields_stopped (hpassive.passiveIn _) hactive
    fun hlong error hrefusal lines ↦ ?_) ?_)
  · have hclosed : Closed [] runner (runner.ended.withLines lines) :=
      ⟨appends_nil rfl rfl rfl, { hoff with }, rfl, rfl, rfl, fun hsome ↦ absurd rfl hsome⟩
    exact ⟨[], hclosed, .inr ⟨rfl, _, rfl, hlong, error, rfl, hrefusal⟩⟩
  · rintro _ _ ⟨hookCalls, lines, rfl⟩
    have htold : Appends [.stopped] runner.ended
        { runner.ended.told .stopped with
          hookCalls
          journal := { runner.journal with context := [], lines } } := appends_told rfl rfl
    refine ⟨[.stopped], ?_, .inl rfl⟩
    exact
      { appends := { htold with }
        regular := { hoff with bound := Fields.plain_nil }
        inactive := rfl
        speed_eq := rfl
        steps_eq := rfl
        shown := fun _ ↦ ⟨_, Array.back?_push, rfl, rfl⟩ }

/-- After a shutdown, no engine and no timer is left in any case. -/
theorem ends_shutdown (hregular : runner.Regular) (hpassive : audience.Passive)
    (hactive : runner.session.active = true) :
    Ends (shutdown audience) runner fun outcome last ↦ ∃ kinds, Closed kinds runner last ∧
      (kinds = [.stopped] ∨ kinds = [] ∧ ∃ halt, outcome = .error halt ∧
        halt.Overflows runner.session.steps) := by
  refine (ends_bind _ _).mpr (Ends.mono (hregular.ends_stop hpassive hactive) ?_)
  rintro outcome after ⟨kinds, hclosed, hkinds⟩
  rcases outcome with halt | _
  · exact ⟨kinds, hclosed, hkinds⟩
  · have htold : kinds = [.stopped] := by
      rcases hkinds with htold | ⟨-, _, ⟨⟩, -⟩
      exact htold
    have hdetach : Yields (fun _ _ ↦ False) detach after _ :=
      hclosed.regular.yields_detach hclosed.inactive
    refine Ends.mono hdetach fun outcome last hlast ↦ ?_
    rcases outcome with halt | _
    · exact hlast.elim
    · obtain ⟨lines, rfl⟩ := hlast
      have happends := hclosed.appends
      have hregular := hclosed.regular
      refine ⟨kinds, ?_, .inl htold⟩
      exact ⟨{ happends with }, { hregular with }, hclosed.inactive, hclosed.speed_eq,
        hclosed.steps_eq, hclosed.shown⟩

end Regular

/-! ### Beside the program -/

/-- What an instruction beside the program tells: of itself, and whether the engine accepted it. An
engine that fails otherwise tells nothing. -/
def InjectTells (runner : Runner) (instruction : String) (kinds : List EventKind) : Prop :=
  match runner.run? with
  | none => kinds = []
  | some run =>
    match run.aside runner.bench.script instruction with
    | .ok _ => kinds = [.injected instruction true]
    | .error (.fault _) => kinds = [.injected instruction false]
    | .error _ => kinds = []

/-- What an order tells. -/
def Tells (audience : Audience) (runner : Runner) (order : Order) (kinds : List EventKind) : Prop :=
  match order with
  | .start program options => runner.StartTells program options kinds
  | .stop | .shutdown => kinds = if runner.session.active then [.stopped] else []
  | .step => runner.StepTells kinds
  | .runBlocking => if runner.attached.isSome then
      ∃ kind, EventKind.Closes kind ∧ kinds = [kind] else kinds = []
  | .rearm => runner.RearmTells kinds
  | .inject instruction => runner.InjectTells instruction kinds
  | .fire rounds => ∃ count last, runFrom (fire audience rounds) runner = (.ok count, last) ∧
      CallsTell audience count runner kinds last
  | .callTimer index =>
    match positionOf runner.timers.size index with
    | some position => runner.CallTells position kinds
    | none => kinds = []
  | .setSpeed _ | .faster | .slower | .pause | .superSpeed =>
    match order.speed? runner with
    | some speed => runner.SpeedTells speed kinds
    | none => kinds = []
  | _ => kinds = []

namespace Regular

variable {position : Nat} {run : Run}

/-- Once an instruction has been executed, it is told whether it was accepted. -/
theorem yields_accepted (hregular : runner.Regular) (hpassive : audience.Passive)
    (hactive : runner.session.active = true) (instruction : String) (outcome : Except Fault Unit)
    {halted : Halt → Runner → Prop} :
    Yields halted (do
      let accepted ← acceptance instruction outcome
      tell audience (.injected instruction accepted)
      return accepted) runner fun _ last ↦
        Records [.injected instruction outcome.isOk] runner last ∧ last.Shown := by
  refine Yields.bind (hregular.yields_acceptance instruction outcome) ?_
  rintro _ after ⟨rfl, lines, hwritten⟩
  have hafter : Records [] runner after := hwritten ▸ records_withLines runner lines
  have hstill : after.session.active = true := hafter.active_eq.trans hactive
  refine Yields.bind ((hafter.regular hregular).yields_tell hpassive hstill
    (.injected instruction outcome.isOk) ⟨nofun, nofun⟩) ?_
  rintro _ last ⟨hlast, hshown, -⟩
  exact ⟨hafter.nil_trans hlast, hshown⟩

/-- An instruction beside the program tells whether it was accepted. -/
theorem recounts_inject (hregular : runner.Regular) (hpassive : audience.Passive)
    (instruction : String) :
    Recounts blocking (runner.InjectTells instruction) (inject audience instruction) runner := by
  rw [inject_eq]
  refine (ends_bind _ _).mpr ((ends_requireRun _).mpr ?_)
  cases hattached : runner.attached with
  | none =>
    refine ⟨[], .refl runner, .inl ⟨?_, .refl runner⟩⟩
    rw [InjectTells, run?, hattached]
    rfl
  | some position =>
    have hactive := hregular.active_of_attached hattached
    obtain ⟨run, hrun⟩ := hregular.exists_run hattached
    have hsame : runner.run? = some run := run?_eq_some hattached hrun
    have hrest (found : Except Fault Unit)
        (htells : runner.InjectTells instruction [.injected instruction found.isOk])
        (hattempt : Yields (runner.BrokenOff blocking)
          (attempt (execute audience position instruction)) runner fun outcome after ↦
            outcome = found ∧ Records [] runner after) :
        Recounts blocking (runner.InjectTells instruction) (do
          let outcome ← attempt (execute audience position instruction)
          let accepted ← acceptance instruction outcome
          tell audience (.injected instruction accepted)
          return accepted) runner := by
      refine accounts_bind hattempt ?_
      rintro _ after ⟨rfl, hafter⟩
      refine ⟨[], hafter, accounts_of_yields ((hafter.regular hregular).yields_accepted hpassive
        (hafter.active_eq.trans hactive) instruction _) ?_⟩
      rintro _ last ⟨hlast, hshown⟩
      exact ⟨_, hlast, htells, fun _ ↦ hshown⟩
    cases haside : run.aside runner.bench.script instruction with
    | ok effect? =>
      refine hrest (.ok ()) ?_ (ends_attempt.mpr ((ends_execute hrun).mpr ?_))
      · rw [InjectTells, hsame]
        simp only [haside]
        rfl
      · rw [haside]
        have htouches : ∀ effect ∈ effect?, ∀ found, runner.runs[position]? = some found →
            found.Touches effect := by
          intro effect heffect found hfound
          obtain rfl := Option.some.inj (hrun.symm.trans hfound)
          obtain rfl := Option.mem_def.mp heffect
          exact Run.touches_of_aside haside
        have hsettled : Yields (fun _ _ ↦ False) (settleAny audience position effect?) runner _ :=
          yields_settleAny_of_passive hpassive position effect?
        refine Ends.mono hsettled fun outcome last hlast ↦ ?_
        rcases outcome with halt | _
        · exact hlast.elim
        · obtain ⟨hookCalls, rfl⟩ := hlast
          exact ⟨rfl, hregular.records_settledAny htouches hookCalls⟩
    | error error =>
      cases error with
      | fault fault =>
        refine hrest (.error fault) ?_ (ends_attempt.mpr ((ends_execute hrun).mpr ?_))
        · rw [InjectTells, hsame]
          simp only [haside]
          rfl
        · rw [haside]
          exact ⟨rfl, .refl runner⟩
      | _ =>
        refine (ends_bind _ _).mpr (ends_attempt.mpr ((ends_execute hrun).mpr ?_))
        rw [haside]
        refine ⟨[], .refl runner, .inl ⟨?_, .refl runner⟩⟩
        rw [InjectTells, hsame]
        simp only [haside]

end Regular

/-! ### Orders inside of a session -/

/-- The view of an engine does not show its supply. -/
theorem engineView_changeSupply (runner : Runner) (position : Nat) (supplyOf : Run → Supply) :
    (runner.changeRun position fun run ↦ { run with supply := supplyOf run }).engineView =
      runner.engineView := by
  unfold engineView run? changeRun
  cases runner.attached with
  | none => rfl
  | some place =>
    simp only [Option.bind_some, Array.getElem?_modify]
    split
    · rw [Option.map_map]
      rfl
    · rfl

theorem unheard_changeSupply (runner : Runner) (position : Nat) (supplyOf : Run → Supply) :
    runner.Unheard (runner.changeRun position fun run ↦ { run with supply := supplyOf run }) := by
  refine ⟨records_nil (fun hregular ↦ ?_) rfl rfl rfl (Nat.le_refl _) (.inl rfl) rfl rfl, ?_⟩
  · exact hregular.changeRun fun _ _ hsound ↦ hsound
  · rintro ⟨event, hlast, hsession, hengine⟩
    exact ⟨event, hlast, hsession, hengine.trans (engineView_changeSupply runner _ _).symm⟩

/-- What leaves the session, the runs and the record alone is not heard of. -/
theorem unheard_of_same (hregular : runner.Regular → last.Regular)
    (hsession : last.session = runner.session) (hattached : last.attached = runner.attached)
    (hruns : last.runs = runner.runs) (hrecorded : last.recorded = runner.recorded) :
    runner.Unheard last := by
  refine ⟨records_nil hregular ?_ ?_ hattached (Nat.le_of_eq ?_) (.inl ?_) ?_ hrecorded, ?_⟩
  iterate 5 rw [hsession]
  · rintro ⟨event, hlast, hview, hengine⟩
    refine ⟨event, hrecorded ▸ hlast, hsession ▸ hview, ?_⟩
    rw [hengine, engineView, engineView, run?, run?, hattached, hruns]

section Unheard

variable (base : Runner)

theorem unheard_feed (content : String) : Preserves base.Unheard (feed content) := by
  apply Keeps.get_bind
  intro runner hunheard
  split
  · exact hunheard
  · exact hunheard.trans (unheard_changeSupply runner _ _)

theorem unheard_readInput : Preserves base.Unheard readInput := by
  apply Keeps.get_bind
  intro runner hunheard
  split
  · exact hunheard
  · refine ((preserves_runAt _).bind fun run ↦ ?_) runner hunheard
    split
    · exact Preserves.fail _
    · refine Keeps.bind (Keeps.modify fun last hlast ↦ ?_) fun _ ↦ Keeps.pure _
      exact hlast.trans (unheard_changeSupply last _ _)

theorem unheard_modifyBench {change : Bench → Bench} (hcrashes : ∀ bench,
    bench.script.crashes = [] → (change bench).script.crashes = []) :
    Preserves base.Unheard (modifyBench change) :=
  Keeps.modify fun _ hunheard ↦ hunheard.trans (unheard_of_same
    (fun hregular ↦ { hregular with crashes_nil := hcrashes _ hregular.crashes_nil })
      rfl rfl rfl rfl)

/-- An order beside a session is not heard of, whether it fails or not. -/
theorem unheard_obey (audience : Audience) {order : Order} (horder : order.Regular)
    (hbeside : order.Beside) : Preserves base.Unheard (obey audience order) := by
  cases order with
  | feed content => exact (unheard_feed base content).bind fun _ ↦ Keeps.pure _
  | readInput => exact (unheard_readInput base).bind fun _ ↦ Keeps.pure _
  | cancelTimer index =>
    refine (preserves_timerAt_upheld index).bind fun position ↦
      (Keeps.modify fun last hlast ↦ ?_).bind fun _ ↦ Keeps.pure _
    exact hlast.trans (unheard_of_same (fun hregular ↦ { hregular with }) rfl rfl rfl rfl)
  | setClock numerator denominator =>
    refine Keeps.bind ?_ fun _ ↦ Keeps.pure _
    unfold setClock
    split
    · exact unheard_modifyBench base fun _ ↦ id
    · exact Preserves.fail _
  | setMemory size =>
    have hbench : Preserves base.Unheard (modifyBench ({ · with memorySize := size })) :=
      unheard_modifyBench base fun _ ↦ id
    exact hbench.bind fun _ ↦ Keeps.pure _
  | setScript faults crashes rejects =>
    refine (unheard_modifyBench base fun bench hbench ↦ ?_).bind fun _ ↦ Keeps.pure _
    cases crashes with
    | none => exact hbench
    | some crashes => exact horder
  | clearOutput =>
    refine (Keeps.modify fun last hlast ↦ ?_).bind fun _ ↦ Keeps.pure _
    exact hlast.trans (unheard_of_same (fun hregular ↦ { hregular with }) rfl rfl rfl rfl)
  | raise message => exact Preserves.fail _
  | look => exact Keeps.get_bind fun _ hlast ↦ hlast
  | _ => exact hbeside.elim

end Unheard

namespace Regular

variable (hregular : runner.Regular) (hpassive : audience.Passive)
include hregular hpassive

/-- What a step tells, with or without an engine. -/
theorem recounts_step (hpatience : audience.patience ≠ 0) :
    Recounts False runner.StepTells (step audience) runner := by
  cases hattached : runner.attached with
  | none =>
    rw [step]
    refine (ends_bind _ _).mpr ((ends_requireRun _).mpr ?_)
    rw [hattached]
    refine ⟨[], .refl runner, .inl ⟨?_, .refl runner⟩⟩
    rw [StepTells, run?, hattached]
    rfl
  | some position =>
    refine accounts_of_yields (hregular.yields_step hpassive
      (hregular.active_of_attached hattached) hpatience) ?_
    rintro _ last ⟨kinds, hrecords, htells, hshown⟩
    exact ⟨kinds, hrecords, htells, fun _ ↦ hshown⟩

theorem recounts_callTimer (hpatience : audience.patience ≠ 0) (index : Nat) :
    Recounts False (runner.CallTells index) (callTimer audience index) runner := by
  cases htimer : runner.timers[index]? with
  | none =>
    rw [callTimer]
    refine (ends_bind _ _).mpr (ends_get.mpr ?_)
    simp only [htimer]
    refine ⟨[], .refl runner, .inl ⟨?_, .refl runner⟩⟩
    rw [CallTells, htimer]
  | some timer =>
    refine accounts_of_yields (hregular.yields_call hpassive htimer hpatience) ?_
    rintro _ last ⟨kinds, hrecords, htells, hstays⟩
    exact ⟨kinds, hrecords, htells, hstays⟩

theorem recounts_fire (hpatience : audience.patience ≠ 0) (rounds : Nat) :
    Recounts False (fun kinds ↦ ∃ count last,
      runFrom (fire audience rounds) runner = (.ok count, last) ∧
        CallsTell audience count runner kinds last) (fire audience rounds) runner := by
  refine accounts_of_yields (hregular.yields_fireRounds hpassive hpatience rounds 0).reached ?_
  rintro _ last ⟨hfired, count, rfl, kinds, hrecords, htell, hstays⟩
  refine ⟨kinds, hrecords, ⟨_, last, hfired, ?_⟩, hstays⟩
  rw [Nat.zero_add]
  exact htell

/-- An order inside of a session tells what it is said to tell, and shows the last of it. -/
theorem recounts_obey (hpatience : audience.patience ≠ 0) {order : Order}
    (horder : order.Regular) (hinside : order.Inside runner) :
    Recounts order.Blocking (Tells audience runner order) (obey audience order) runner := by
  cases order with
  | step =>
    exact accounts_allow (ends_reply (fun _ ↦ Reply.nothing)
      (hregular.recounts_step hpassive hpatience)) False.elim
  | fire rounds =>
    exact accounts_allow (ends_reply Reply.calls
      (hregular.recounts_fire hpassive hpatience rounds)) False.elim
  | callTimer index =>
    refine (ends_bind _ _).mpr ((ends_bind _ _).mpr (ends_get.mpr ?_))
    cases hplace : positionOf runner.timers.size index with
    | none =>
      simp only [hplace]
      refine ⟨[], .refl runner, .inl ⟨?_, .refl runner⟩⟩
      simp only [Tells, hplace]
    | some position =>
      simp only [hplace]
      refine accounts_allow (accounts_mono (ends_reply (fun _ ↦ Reply.nothing)
        (hregular.recounts_callTimer hpassive hpatience position)) ?_) False.elim
      rintro kinds last ⟨htells, hstays⟩
      exact ⟨by simpa only [Tells, hplace] using htells, hstays⟩
  | runBlocking =>
    exact accounts_allow (ends_reply (fun _ ↦ Reply.nothing)
      (hregular.recounts_runBlocking hpassive)) id
  | rearm =>
    exact accounts_allow (ends_reply (fun _ ↦ Reply.nothing)
      (hregular.accounts_rearm hpassive)) id
  | inject instruction =>
    exact ends_reply Reply.accepted (hregular.recounts_inject hpassive instruction)
  | slower =>
    have hslow : ¬ Speed.idle < runner.session.speed :=
      fun hfast ↦ Option.some_ne_none _ ((if_pos hfast).symm.trans hinside.1)
    refine (ends_bind _ _).mpr ((ends_bind _ _).mpr (ends_get.mpr ?_))
    simp only [if_neg hslow]
    refine ⟨[], .refl runner, .inl ⟨?_, .refl runner⟩⟩
    simp only [Tells, Order.speed?, if_neg hslow]
  | feed | readInput | cancelTimer | setClock | setMemory | setScript | clearOutput | raise
  | look =>
    exact accounts_of_unheard (unheard_obey runner audience horder trivial)
  | start | stop | shutdown => exact hinside.2.elim
  | faster | pause | superSpeed | setSpeed => cases hinside.1
  | pokeSpeed | pokeActive | drain => exact horder.elim

/-- An order that asks for a speed tells from the session with that speed. -/
theorem accounts_obey_speed {order : Order} {speed : Int}
    (hasks : order.speed? runner = some speed) :
    Ends (obey audience order) runner ((runner.withSpeed speed).Accounted True fun kinds last ↦
      Tells audience runner order kinds ∧ (runner.withSpeed speed).StaysShown kinds last) := by
  have hspeed := ends_reply (fun _ ↦ Reply.nothing) (hregular.accounts_setSpeed hpassive speed)
  cases order with
  | setSpeed asked =>
    obtain rfl := Option.some.inj hasks
    exact hspeed
  | faster =>
    obtain rfl := Option.some.inj hasks
    exact hspeed
  | pause =>
    obtain rfl := Option.some.inj hasks
    exact hspeed
  | superSpeed =>
    obtain rfl := Option.some.inj hasks
    exact hspeed
  | slower =>
    by_cases hfast : Speed.idle < runner.session.speed
    · simp only [Tells, hasks]
      obtain rfl := Option.some.inj ((if_pos hfast).symm.trans hasks)
      refine (ends_bind _ _).mpr ((ends_bind _ _).mpr (ends_get.mpr ?_))
      simp only [if_pos hfast]
      exact (ends_bind _ _).mp hspeed
    · cases (if_neg hfast).symm.trans hasks
  | _ => cases hasks

end Regular

end Runner

end TapeRunner
