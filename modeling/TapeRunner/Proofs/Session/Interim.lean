import TapeRunner.Proofs.Session.Upkeep

/-!
# Between starts and stops

An order that neither starts nor stops a session, nor reaches around the operations, is made of the
work of the attached engine, of what the observers do, and of changes that are minor to the session
and to its engine alike (`Runner.Minor`): lines and events, speeds, counts of steps, timers. So an
invariant that all of these keep is kept by the order (`Runner.Interim.keeps_obey`), whatever is
asked of the states in which it ends early.
-/

set_option autoImplicit false
set_option relaxedAutoImplicit false

namespace TapeRunner

open Activity

/-- An order that neither starts nor stops a session, and changes neither the input nor the output
nor the session itself from outside. -/
def Order.Inner : Order → Prop
  | .start _ _ | .stop | .shutdown | .feed _ | .readInput | .clearOutput | .pokeActive _
  | .drain _ => False
  | _ => True

namespace Runner

variable {runner last base : Runner} {audience : Audience} {inv : Runner → Prop}
variable {halted : Halt → Runner → Prop} {due : Nat → Prop} {position : Nat}

/-- The session is the same one, as active as it was and bound in the journal as it was, with at
least as many steps; no engine has been worked on and nothing has been written; the input goes where
it went, and the next engine is of the kind that it was; and the session is attached as it was, or
to nothing any more. -/
structure Minor (base runner : Runner) : Prop where
  bus_eq : runner.bus = base.bus
  number_eq : runner.session.number = base.session.number
  active_eq : runner.session.active = base.session.active
  context_eq : runner.journal.context = base.journal.context
  steps_le : base.session.steps ≤ runner.session.steps
  runs_eq : runner.runs = base.runs
  output_eq : runner.output = base.output
  supplied_eq : runner.supplied = base.supplied
  kind_eq : runner.bench.kind = base.bench.kind
  attached : runner.attached = base.attached ∨ runner.attached = none

/-- An invariant that minor changes, observers and the work of the engines that are due keep, and by
which no other engine is attached. An error ends an operation in the invariant; how it ends when it
is given up is another matter. -/
structure Interim (audience : Audience) (due : Nat → Prop) (inv : Runner → Prop)
    (halted : Halt → Runner → Prop) : Prop where
  minor {runner last : Runner} : inv runner → runner.Minor last → inv last
  allowed {runner : Runner} (halt : Halt) : inv runner → halted halt runner
  raised {runner : Runner} {error : Error} : halted (.raised error) runner → inv runner
  attached {runner : Runner} {position : Nat} : inv runner → runner.attached = some position →
    due position
  advance {position : Nat} : due position → Keeps inv halted (advance audience position)
  execute {position : Nat} (instruction : String) : due position →
    Keeps inv halted (execute audience position instruction)
  react (sink : Nat) : Keeps inv halted (audience.react sink)

namespace Interim

variable (hinterim : Interim audience due inv halted)
include hinterim

/-! ### Minor changes -/

theorem keeps_modify {change : Runner → Runner}
    (hchange : ∀ runner : Runner, runner.Minor (change runner)) :
    Keeps inv halted (modify change) :=
  Keeps.modify fun runner hinv ↦ hinterim.minor hinv (hchange runner)

theorem keeps_fail {Result : Type} (error : Error) :
    Keeps inv halted (fail error : Action Result) :=
  fun _ hinv ↦ hinterim.allowed _ hinv

/-- An attempt takes a fault for an outcome, and so ends in the invariant all the same. -/
theorem keeps_attempt {Result : Type} {activity : Action Result}
    (hactivity : Keeps inv halted activity) : Keeps inv halted (attempt activity) := by
  intro runner hinv
  refine Yields.attempt (Yields.allow (hactivity runner hinv) fun halt last hhalted ↦ ?_)
  unfold orFault
  split
  · exact hinterim.raised hhalted
  · exact hhalted

theorem keeps_log (level : Level) (event : String) (fields : Fields) :
    Keeps inv halted (log level event fields) :=
  Runner.keeps_log level event
    (fun _ hinv ↦ writes_of_refusal fun _ _ ↦ hinterim.allowed _ hinv) fun _ _ hinv ↦
      hinterim.minor hinv ⟨rfl, rfl, rfl, rfl, Nat.le_refl _, rfl, rfl, rfl, rfl, .inl rfl⟩

theorem keeps_tell (kind : EventKind) : Keeps inv halted (tell audience kind) := by
  refine Runner.keeps_tell kind (fun _ hinv ↦ writes_of_refusal fun _ _ ↦
    hinterim.allowed _ hinv) ?_ ?_ ?_ hinterim.react
  · exact fun _ _ hinv ↦
      hinterim.minor hinv ⟨rfl, rfl, rfl, rfl, Nat.le_refl _, rfl, rfl, rfl, rfl, .inl rfl⟩
  · exact fun _ hinv ↦
      hinterim.minor hinv ⟨rfl, rfl, rfl, rfl, Nat.le_refl _, rfl, rfl, rfl, rfl, .inl rfl⟩
  · exact fun _ _ _ hinv ↦
      hinterim.minor hinv ⟨rfl, rfl, rfl, rfl, Nat.le_refl _, rfl, rfl, rfl, rfl, .inl rfl⟩

theorem keeps_disarm : Keeps inv halted disarm := by
  intro runner hinv
  have hdisarmed (generation : Nat) (timers : Array (Timer Nat)) :
      inv (runner.disarmed generation timers) :=
    hinterim.minor hinv ⟨rfl, rfl, rfl, rfl, Nat.le_refl _, rfl, rfl, rfl, rfl, .inl rfl⟩
  refine Yields.mono (yields_disarm fun generation timers ↦ writes_of_refusal fun _ _ ↦
    hinterim.allowed _ (hdisarmed generation timers)) ?_
  rintro _ _ ⟨generation, timers, lines, rfl⟩
  exact hinterim.minor (hdisarmed generation timers)
    ⟨rfl, rfl, rfl, rfl, Nat.le_refl _, rfl, rfl, rfl, rfl, .inl rfl⟩

theorem keeps_detach : Keeps inv halted detach :=
  hinterim.keeps_disarm.bind fun _ ↦ hinterim.keeps_modify fun _ ↦
    ⟨rfl, rfl, rfl, rfl, Nat.le_refl _, rfl, rfl, rfl, rfl, .inr rfl⟩

theorem keeps_arm (speed : Int) (cadence : Float) : Keeps inv halted (arm speed cadence) := by
  intro runner hinv
  by_cases hinterval : Speed.interval cadence ≤ 0
  · exact (ends_arm_of_refused hinterval).mpr (hinterim.allowed _ hinv)
  · exact (ends_arm hinterval).mpr (hinterim.keeps_log _ _ _ _
      (hinterim.minor hinv ⟨rfl, rfl, rfl, rfl, Nat.le_refl _, rfl, rfl, rfl, rfl, .inl rfl⟩))

theorem keeps_acceptance (instruction : String) (outcome : Except Fault Unit) :
    Keeps inv halted (acceptance instruction outcome) := by
  rcases outcome with fault | _
  · exact (hinterim.keeps_log _ _ _).bind fun _ ↦ Keeps.pure false
  · exact Keeps.pure true

theorem keeps_timerAt (index : Int) : Keeps inv halted (timerAt index) := by
  refine Keeps.get_bind fun runner hinv ↦ ?_
  split
  · exact hinv
  · exact hinterim.allowed _ hinv

theorem keeps_cancel (index : Nat) : Keeps inv halted
    (modify fun runner ↦ { runner with timers := Timer.cancel runner.timers index }) :=
  hinterim.keeps_modify fun _ ↦ ⟨rfl, rfl, rfl, rfl, Nat.le_refl _, rfl, rfl, rfl, rfl, .inl rfl⟩

/-! ### Reports and steps -/

theorem keeps_conclude (outcome : Except Fault Unit) :
    Keeps inv halted (conclude audience outcome) := by
  intro runner hinv
  have hreport (status : Status) (event : String) (fields : Fields) (kind : EventKind) :
      Yields halted (do log .info event fields; tell audience kind)
        (runner.idledWith status) fun _ ↦ inv :=
    (hinterim.keeps_log _ _ _).bind (fun _ ↦ hinterim.keeps_tell kind) _
      (hinterim.minor hinv ⟨rfl, rfl, rfl, rfl, Nat.le_refl _, rfl, rfl, rfl, rfl, .inl rfl⟩)
  rcases outcome with fault | _
  · exact (ends_reportFault fault).mpr (hreport _ _ _ _)
  · exact ends_reportEnd.mpr (hreport _ _ _ _)

theorem keeps_concludeStep (position : Nat) (outcome : Except Fault Unit) :
    Keeps inv halted (concludeStep audience position outcome) := by
  rcases outcome with fault | _
  · exact hinterim.keeps_conclude (.error fault)
  · have hcounted : Keeps inv halted (modifySession fun session ↦
        { session with steps := session.steps + 1 }) :=
      hinterim.keeps_modify fun _ ↦
        ⟨rfl, rfl, rfl, rfl, Nat.le_succ _, rfl, rfl, rfl, rfl, .inl rfl⟩
    have hrun : Keeps inv halted (runAt position) := by
      refine Keeps.get_bind fun runner hinv ↦ ?_
      split
      · exact hinv
      · exact hinterim.allowed _ hinv
    refine hcounted.bind fun _ ↦ hrun.bind fun run ↦ ?_
    split
    · exact hinterim.keeps_conclude (.ok ())
    · exact Keeps.pure ()

theorem keeps_blockingSteps (hdue : due position) (patience : Nat) :
    Keeps inv halted (blockingSteps audience position patience) := by
  intro runner hinv
  refine Yields.mono (yields_blockingSteps (fun _ hinv ↦ hinterim.allowed _ hinv)
    (fun _ hinv _ ↦ hinterim.allowed _ hinv) (fun runner _ hinv _ _ _ ↦ ?_) patience hinv)
      fun _ _ ↦ And.left
  exact Yields.mono (hinterim.advance hdue runner hinv) fun _ _ hlast ↦
    hinterim.minor hlast ⟨rfl, rfl, rfl, rfl, Nat.le_succ _, rfl, rfl, rfl, rfl, .inl rfl⟩

omit hinterim in
theorem keeps_again {again : Action Unit} (hagain : Keeps inv halted again) (speed : Int) :
    Keeps inv halted (againUnless speed again) := by
  refine Keeps.get_bind fun runner hinv ↦ ?_
  split
  · exact hagain runner hinv
  · exact hinv

theorem keeps_blockingRun (hdue : due position) {again : Action Unit}
    (hagain : Keeps inv halted again) :
    Keeps inv halted (blockingRun audience again position) := by
  rw [blockingRun_eq]
  refine Keeps.get_bind fun runner hinv ↦ ?_
  refine ((hinterim.keeps_log _ _ _).bind fun _ ↦ ?_) runner hinv
  refine (hinterim.keeps_attempt (hinterim.keeps_blockingSteps hdue _)).bind fun outcome ↦ ?_
  exact (hinterim.keeps_conclude outcome).bind fun _ ↦ keeps_again hagain _

theorem keeps_rearm : Keeps inv halted (rearm audience) := by
  unfold rearm
  induction audience.patience with
  | zero => exact fun _ hinv ↦ hinterim.allowed _ hinv
  | succ bound ih =>
    rw [rearmWithin_succ]
    refine hinterim.keeps_disarm.bind fun _ runner hinv ↦ ?_
    exact ends_engage (fun _ ↦ hinv) (fun _ ↦ hinv)
      (fun _ cadence _ ↦ hinterim.keeps_arm _ cadence runner hinv)
      fun _ position _ hattached ↦
        hinterim.keeps_blockingRun (hinterim.attached hinv hattached) ih runner hinv

/-- Whatever needs the attached engine finds one that is due. -/
theorem keeps_requireRun {Result : Type} (operation : String) {next : Nat → Action Result}
    (hnext : ∀ position, due position → Keeps inv halted (next position)) :
    Keeps inv halted (requireRun operation >>= next) := by
  intro runner hinv
  rw [Yields, ends_bind, ends_requireRun]
  cases hattached : runner.attached with
  | none => exact hinterim.allowed _ hinv
  | some position => exact hnext position (hinterim.attached hinv hattached) runner hinv

/-! ### Orders -/

theorem keeps_runBlocking : Keeps inv halted (runBlocking audience) :=
  hinterim.keeps_requireRun _ fun _ hdue ↦ hinterim.keeps_blockingRun hdue hinterim.keeps_rearm

theorem keeps_step : Keeps inv halted (step audience) := by
  have hwiped : Keeps inv halted (modifySession ({ · with status := none })) :=
    hinterim.keeps_modify fun _ ↦ ⟨rfl, rfl, rfl, rfl, Nat.le_refl _, rfl, rfl, rfl, rfl, .inl rfl⟩
  rw [step_eq]
  refine hinterim.keeps_requireRun _ fun position hdue ↦ Keeps.get_bind fun before ↦ ?_
  exact (hwiped.bind fun _ ↦ (hinterim.keeps_attempt (hinterim.advance hdue)).bind fun outcome ↦
    (hinterim.keeps_concludeStep position outcome).bind fun _ ↦
      (hinterim.keeps_tell _).bind fun _ ↦ keeps_again hinterim.keeps_rearm _) before

theorem keeps_inject (instruction : String) : Keeps inv halted (inject audience instruction) := by
  rw [inject_eq]
  refine hinterim.keeps_requireRun _ fun position hdue ↦ ?_
  refine (hinterim.keeps_attempt (hinterim.execute instruction hdue)).bind fun outcome ↦ ?_
  exact (hinterim.keeps_acceptance instruction outcome).bind fun accepted ↦
    (hinterim.keeps_tell _).bind fun _ ↦ Keeps.pure accepted

theorem keeps_callTimer (index : Nat) : Keeps inv halted (callTimer audience index) := by
  refine Keeps.get_bind fun runner hinv ↦ ?_
  split
  · exact keeps_tick hinterim.keeps_step _ runner hinv
  · exact hinterim.allowed _ hinv

theorem keeps_setSpeed (speed : Int) : Keeps inv halted (setSpeed audience speed) := by
  have hchanged : Keeps inv halted (modifySession ({ · with speed })) :=
    hinterim.keeps_modify fun _ ↦ ⟨rfl, rfl, rfl, rfl, Nat.le_refl _, rfl, rfl, rfl, rfl, .inl rfl⟩
  have htell (previous : Int) : Keeps inv halted (tellChange audience previous) := by
    refine Keeps.get_bind fun runner hinv ↦ ?_
    split
    · exact hinterim.keeps_tell _ runner hinv
    · exact hinv
  rw [setSpeed_eq]
  refine Keeps.get_bind fun runner hinv ↦ ?_
  split
  · exact (hchanged.bind fun _ ↦ (hinterim.keeps_log _ _ _).bind fun _ ↦
      (htell _).bind fun _ ↦ hinterim.keeps_rearm) runner hinv
  · exact hinv

/-- Every inner order keeps the invariant. -/
theorem keeps_obey {order : Order} (hinner : order.Inner) :
    Keeps inv halted (obey audience order) := by
  have hanswer {Result : Type} {activity : Action Result} (hactivity : Keeps inv halted activity)
      (reply : Result → Reply) : Keeps inv halted (do return reply (← activity)) :=
    hactivity.bind fun result ↦ Keeps.pure (reply result)
  have hchange {change : Runner → Runner}
      (hchange : ∀ runner : Runner, runner.Minor (change runner)) :
      Keeps inv halted (do modify change; return Reply.nothing) :=
    hanswer (hinterim.keeps_modify hchange) fun _ ↦ .nothing
  cases order with
  | step => exact hanswer hinterim.keeps_step fun _ ↦ .nothing
  | runBlocking => exact hanswer hinterim.keeps_runBlocking fun _ ↦ .nothing
  | faster =>
    exact hanswer (Keeps.get_bind fun runner ↦ hinterim.keeps_setSpeed _ runner) fun _ ↦ .nothing
  | slower =>
    refine hanswer (Keeps.get_bind fun runner hinv ↦ ?_) fun _ ↦ .nothing
    simp only
    split
    · exact hinterim.keeps_setSpeed _ runner hinv
    · exact hinv
  | pause => exact hanswer (hinterim.keeps_setSpeed _) fun _ ↦ .nothing
  | superSpeed => exact hanswer (hinterim.keeps_setSpeed _) fun _ ↦ .nothing
  | setSpeed speed => exact hanswer (hinterim.keeps_setSpeed speed) fun _ ↦ .nothing
  | inject instruction => exact hanswer (hinterim.keeps_inject instruction) .accepted
  | fire rounds => exact hanswer (keeps_fire hinterim.keeps_step rounds) .calls
  | callTimer index =>
    exact (hinterim.keeps_timerAt index).bind fun position ↦
      hanswer (hinterim.keeps_callTimer position) fun _ ↦ .nothing
  | cancelTimer index =>
    exact (hinterim.keeps_timerAt index).bind fun position ↦
      hanswer (hinterim.keeps_cancel position) fun _ ↦ .nothing
  | rearm => exact hanswer hinterim.keeps_rearm fun _ ↦ .nothing
  | setClock numerator denominator =>
    refine Keeps.bind ?_ fun _ ↦ Keeps.pure _
    unfold setClock
    split
    · exact hinterim.keeps_modify fun _ ↦
        ⟨rfl, rfl, rfl, rfl, Nat.le_refl _, rfl, rfl, rfl, rfl, .inl rfl⟩
    · exact hinterim.keeps_fail _
  | raise message => exact hinterim.keeps_fail _
  | look => exact Keeps.get_bind fun _ hinv ↦ hinv
  | pokeSpeed speed | setMemory size | setScript faults crashes rejects =>
    exact hchange fun _ ↦ ⟨rfl, rfl, rfl, rfl, Nat.le_refl _, rfl, rfl, rfl, rfl, .inl rfl⟩
  | _ => exact hinner.elim

end Interim

/-! ### Timers on their own threads -/

section Aside

variable (hinterim : Interim audience due inv fun _ ↦ inv)
variable (hbinds : ∀ context : Fields, Preserves inv (modifyContext fun _ ↦ context))
include hinterim hbinds

/-- A timer that calls on its own thread keeps the invariant, if it holds whatever is bound. -/
theorem Interim.preserves_callAside (index : Nat) : Preserves inv (callAside audience index) := by
  have hcalled : Preserves inv (callTimer audience index) := hinterim.keeps_callTimer index
  refine Keeps.get_bind fun runner hinv ↦ ?_
  refine ((hbinds []).bind fun _ ↦ hcalled.survives.bind fun survived ↦ ?_) runner hinv
  split
  · refine (hinterim.keeps_cancel index).bind fun _ ↦ Keeps.get_bind fun after hafter ↦ ?_
    split
    · exact ((hinterim.keeps_log _ _ _).bind fun _ ↦ hbinds _) after hafter
    · exact hbinds _ after hafter
  · exact hbinds _

theorem Interim.preserves_drainWithin (bound : Nat) :
    Preserves inv (drainWithin audience bound) := by
  induction bound with
  | zero => exact fun _ hinv ↦ hinv
  | succ bound ih =>
    refine Keeps.get_bind fun runner hinv ↦ ?_
    split
    · exact hinv
    · exact ((hinterim.preserves_callAside hbinds _).bind fun _ ↦ ih) runner hinv

/-- So do all of them together, at any speed. -/
theorem Interim.preserves_drain (speed : Int) : Preserves inv (obey audience (.drain speed)) :=
  (hinterim.keeps_setSpeed speed).bind fun _ ↦
    (hinterim.preserves_drainWithin hbinds _).bind fun _ ↦ Keeps.pure _

end Aside

end Runner

end TapeRunner
