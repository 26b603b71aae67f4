import TapeRunner.Proofs.Session.Belonging

/-!
# What an inactive session has

A session that is not active has no engine, no supply of input and no timer (`Runner.Reposed`). That
is so at every moment, since a stop takes all of it away before anybody is told, and since nothing
but a start gives any of it back. Nor has such a session a status, as long as no observer of the
output ends a session in the midst of an instruction: whatever reports on the instruction would
leave a status on what is over by then. So the invariant has two conditions that can be switched on:
that the observers of the output are tactful in this sense, and that the session is on, which is
what holds while its engine is worked on.

Every order keeps it, in whatever way it ends, but one that pokes at the session from outside
(`Audience.Reposeful.preserves_obey`). So it holds at every moment of every run without such orders
(`Runner.Cast.reposed_moment`).
-/

set_option autoImplicit false
set_option relaxedAutoImplicit false

namespace TapeRunner

open Activity

namespace Runner

variable {runner last : Runner} {audience : Audience} {sinks : List Nat} {position : Nat}
variable {tactful on other : Prop}

/-- An inactive session has no engine, no supply and no timer, and no status if the observers of the
output are tactful. -/
structure Reposed (tactful on : Prop) (sinks : List Nat) (runner : Runner) : Prop where
  sinks_eq : runner.sinks = sinks
  plain : runner.journal.context.Plain
  active_eq : on → runner.session.active = true
  attached_eq : runner.session.active = false → runner.attached = none
  supplied_eq : runner.session.active = false → runner.supplied = none
  current_eq : runner.session.active = false → runner.current = none
  status_eq : tactful → runner.session.active = false → runner.session.status = none

namespace Reposed

theorem of_active (hreposed : Reposed tactful on sinks runner)
    (hactive : other → runner.session.active = true) : Reposed tactful other sinks runner :=
  { hreposed with active_eq := hactive }

theorem weaken (hreposed : Reposed tactful on sinks runner) : Reposed tactful False sinks runner :=
  hreposed.of_active False.elim

/-- Who is attached is active. -/
theorem active_of_attached (hreposed : Reposed tactful on sinks runner)
    (hattached : runner.attached = some position) : runner.session.active = true := by
  refine Bool.not_eq_false _ |>.mp fun hinactive ↦ ?_
  cases hattached.symm.trans (hreposed.attached_eq hinactive)

/-! ### Parts -/

theorem preserves_log (level : Level) (event : String) (fields : Fields) :
    Preserves (Reposed tactful on sinks) (log level event fields) :=
  keeps_log level event (fun _ hreposed ↦ writes_of_refusal fun _ _ ↦ hreposed)
    fun _ _ hreposed ↦ { hreposed with }

theorem preserves_disarm : Preserves (Reposed tactful on sinks) disarm := by
  intro runner hreposed
  have hdisarmed (generation : Nat) (timers : Array (Timer Nat)) :
      Reposed tactful on sinks (runner.disarmed generation timers) :=
    { hreposed with current_eq := fun _ ↦ rfl }
  refine Yields.mono (yields_disarm fun _ _ ↦ writes_of_refusal fun _ _ ↦ hdisarmed _ _) ?_
  rintro _ _ ⟨generation, timers, lines, rfl⟩
  exact { hdisarmed generation timers with }

/-- A timer is made for a session that is active. -/
theorem yields_arm (hreposed : Reposed tactful on sinks runner)
    (hactive : runner.session.active = true) (speed : Int) (cadence : Float) :
    Yields (fun _ ↦ Reposed tactful on sinks) (arm speed cadence) runner
      fun _ ↦ Reposed tactful on sinks := by
  by_cases hinterval : Speed.interval cadence ≤ 0
  · exact (ends_arm_of_refused hinterval).mpr hreposed
  · have harmed : Reposed tactful on sinks (runner.armedAt cadence) :=
      { hreposed with current_eq := fun hinactive ↦ nomatch hactive.symm.trans hinactive }
    refine Yields.mono (Runner.yields_arm hinterval (writes_of_refusal fun _ _ ↦ harmed)) ?_
    rintro _ _ ⟨lines, rfl⟩
    exact { harmed with }

theorem preserves_detach : Preserves (Reposed tactful on sinks) detach :=
  preserves_disarm.bind fun _ ↦ Keeps.modify fun _ hreposed ↦
    { hreposed with attached_eq := fun _ ↦ rfl }

/-- What begins is active. -/
theorem begun (hreposed : Reposed tactful on sinks runner) (options : StartOptions) (run : Run) :
    Reposed tactful on sinks (runner.begun options run) where
  sinks_eq := hreposed.sinks_eq
  plain := hreposed.plain.named _
  active_eq _ := rfl
  attached_eq := nofun
  supplied_eq := nofun
  current_eq := nofun
  status_eq _ := nofun

/-- What has ended has nothing left. -/
theorem ended (hreposed : Reposed tactful on sinks runner) :
    Reposed tactful False sinks runner.ended where
  sinks_eq := hreposed.sinks_eq
  plain := hreposed.plain
  active_eq := False.elim
  attached_eq _ := rfl
  supplied_eq _ := rfl
  current_eq _ := rfl
  status_eq _ _ := rfl

theorem preserves_modifyRun (position : Nat) (change : Run → Run) :
    Preserves (Reposed tactful on sinks) (modifyRun position change) :=
  Keeps.modify fun _ hreposed ↦ { hreposed with }

theorem preserves_modifyBench (change : Bench → Bench) :
    Preserves (Reposed tactful on sinks) (modifyBench change) :=
  Keeps.modify fun _ hreposed ↦ { hreposed with }

theorem preserves_acceptance (instruction : String) (outcome : Except Fault Unit) :
    Preserves (Reposed tactful on sinks) (acceptance instruction outcome) := by
  rcases outcome with fault | _
  · exact (preserves_log _ _ _).bind fun _ ↦ Keeps.pure false
  · exact Keeps.pure true

theorem preserves_modifyContext {context : Fields} (hplain : context.Plain) :
    Preserves (Reposed tactful on sinks) (modifyContext fun _ ↦ context) :=
  Keeps.modify fun _ hreposed ↦ { hreposed with plain := hplain }

theorem preserves_cancel (index : Nat) : Preserves (Reposed tactful on sinks)
    (modify fun runner ↦ { runner with timers := Timer.cancel runner.timers index }) :=
  Keeps.modify fun _ hreposed ↦ { hreposed with }

theorem preserves_feed (content : String) :
    Preserves (Reposed tactful on sinks) (feed content) := by
  apply Keeps.get_bind
  intro runner hreposed
  split
  · exact hreposed
  · exact preserves_modifyRun _ _ runner hreposed

theorem preserves_readInput : Preserves (Reposed tactful on sinks) readInput := by
  apply Keeps.get_bind
  intro runner hreposed
  split
  · exact hreposed
  · refine ((preserves_runAt _).bind fun run ↦ ?_) runner hreposed
    split
    · exact Preserves.fail _
    · exact (preserves_modifyRun _ _).bind fun _ ↦ Keeps.pure _

/-- An order that neither starts nor stops a session leaves one on as well. -/
theorem preserves_obey_of_mute {order : Order} (hmute : order.Mute) :
    Preserves (Reposed tactful on sinks) (obey audience order) := by
  have hanswer {Result : Type} {activity : Action Result}
      (hpreserves : Preserves (Reposed tactful on sinks) activity) (reply : Result → Reply) :
      Preserves (Reposed tactful on sinks) (do return reply (← activity)) :=
    hpreserves.bind fun result ↦ Keeps.pure (reply result)
  cases order with
  | feed content => exact hanswer (preserves_feed content) fun _ ↦ .nothing
  | readInput => exact hanswer preserves_readInput .byte
  | cancelTimer index =>
    exact (preserves_timerAt_upheld index).bind fun position ↦
      hanswer (preserves_cancel position) fun _ ↦ .nothing
  | setClock numerator denominator =>
    refine Keeps.bind ?_ fun _ ↦ Keeps.pure _
    unfold setClock
    split
    · exact preserves_modifyBench _
    · exact Preserves.fail _
  | pokeSpeed speed =>
    have hpoked : Preserves (Reposed tactful on sinks) (modifySession ({ · with speed })) :=
      Keeps.modify fun _ hreposed ↦ { hreposed with }
    exact hanswer hpoked fun _ ↦ .nothing
  | setMemory size => exact hanswer (preserves_modifyBench _) fun _ ↦ .nothing
  | setScript faults crashes rejects =>
    exact hanswer (preserves_modifyBench _) fun _ ↦ .nothing
  | clearOutput =>
    have hcleared : Preserves (Reposed tactful on sinks)
        (modify fun runner : Runner ↦ { runner with output := .empty }) :=
      Keeps.modify fun _ hreposed ↦ { hreposed with }
    exact hanswer hcleared fun _ ↦ .nothing
  | raise message => exact Preserves.fail _
  | look => exact Keeps.get_bind fun _ hreposed ↦ hreposed
  | _ => exact hmute.elim

/-! ### Steps of the engine -/

theorem yields_settleAny (hreposed : Reposed tactful on sinks runner)
    (hsink : ∀ sink ∈ sinks, Preserves (Reposed tactful on sinks) (audience.react sink))
    (effect? : Option Effect) :
    Yields (fun _ ↦ Reposed tactful on sinks) (settleAny audience position effect?) runner
      fun _ ↦ Reposed tactful on sinks := by
  refine Runner.yields_settleAny (fun _ ↦ hreposed) (fun _ _ ↦ { hreposed with }) ?_
  rw [hreposed.sinks_eq]
  exact hsink

theorem preserves_advance
    (hsink : ∀ sink ∈ sinks, Preserves (Reposed tactful on sinks) (audience.react sink))
    (position : Nat) : Preserves (Reposed tactful on sinks) (advance audience position) := by
  intro runner hreposed
  cases hrun : runner.runs[position]? with
  | none =>
    rw [Yields, advance, ends_bind, ends_runAt_iff, hrun]
    exact hreposed
  | some run =>
    refine (ends_advance hrun).mpr ?_
    cases run.turn runner.bench.script with
    | error error => exact hreposed
    | ok turn =>
      refine Ends.mono (hreposed.yields_settleAny hsink turn.1) fun outcome middle hmiddle ↦ ?_
      rcases outcome with halt | _
      · exact hmiddle
      · exact { hmiddle with }

theorem preserves_execute
    (hsink : ∀ sink ∈ sinks, Preserves (Reposed tactful on sinks) (audience.react sink))
    (position : Nat) (instruction : String) :
    Preserves (Reposed tactful on sinks) (execute audience position instruction) := by
  intro runner hreposed
  cases hrun : runner.runs[position]? with
  | none =>
    rw [Yields, execute, ends_bind, ends_runAt_iff, hrun]
    exact hreposed
  | some run =>
    refine (ends_execute hrun).mpr ?_
    cases run.aside runner.bench.script instruction with
    | error error => exact hreposed
    | ok effect? => exact hreposed.yields_settleAny hsink effect?

theorem preserves_blockingSteps
    (hsink : ∀ sink ∈ sinks, Preserves (Reposed tactful on sinks) (audience.react sink))
    (position patience : Nat) :
    Preserves (Reposed tactful on sinks) (blockingSteps audience position patience) := by
  intro runner hreposed
  refine Yields.mono (yields_blockingSteps (fun _ hinv ↦ hinv) (fun _ hinv _ ↦ hinv)
    (fun runner _ hinv _ _ _ ↦ ?_) patience hreposed) fun _ _ ↦ And.left
  exact Yields.mono (preserves_advance hsink position runner hinv) fun _ _ hlast ↦ { hlast with }

end Reposed

end Runner

/-- Observers keep what an inactive session is to be like, and those of the output leave a session
on if they are tactful. -/
structure Audience.Reposeful (audience : Audience) (tactful : Prop) (sinks : List Nat) :
    Prop where
  react : ∀ position, Preserves (Runner.Reposed tactful False sinks) (audience.react position)
  sink : ∀ sink ∈ sinks, Preserves (Runner.Reposed tactful tactful sinks) (audience.react sink)

namespace Audience.Reposeful

open Runner

variable {runner last : Runner} {audience : Audience} {sinks : List Nat} {position : Nat}
variable {tactful : Prop}
variable (hreposeful : audience.Reposeful tactful sinks)
include hreposeful

/-! ### Reports -/

theorem preserves_tell (kind : EventKind) :
    Preserves (Reposed tactful False sinks) (tell audience kind) :=
  keeps_tell kind (fun _ hreposed ↦ writes_of_refusal fun _ _ ↦ hreposed)
    (fun _ _ hreposed ↦ { hreposed with }) (fun _ hreposed ↦ { hreposed with })
    (fun _ _ _ hreposed ↦ { hreposed with }) hreposeful.react

/-- A status is left on a session that is on. -/
theorem yields_conclude (hon : Reposed tactful tactful sinks runner)
    (outcome : Except Fault Unit) :
    Yields (fun _ ↦ Reposed tactful False sinks) (conclude audience outcome) runner
      fun _ ↦ Reposed tactful False sinks := by
  have hreport (status : Status) (event : String) (fields : Fields) (kind : EventKind) :
      Yields (fun _ ↦ Reposed tactful False sinks) (do log .info event fields; tell audience kind)
        (runner.idledWith status) fun _ ↦ Reposed tactful False sinks := by
    refine (Reposed.preserves_log _ _ _).bind (fun _ ↦ hreposeful.preserves_tell _) _ ?_
    exact { hon.weaken with
      status_eq := fun htactful hinactive ↦ nomatch (hon.active_eq htactful).symm.trans hinactive }
  rcases outcome with fault | _
  · exact (ends_reportFault fault).mpr (hreport _ _ _ _)
  · exact ends_reportEnd.mpr (hreport _ _ _ _)

theorem yields_concludeStep (hon : Reposed tactful tactful sinks runner)
    (outcome : Except Fault Unit) :
    Yields (fun _ ↦ Reposed tactful False sinks) (concludeStep audience position outcome) runner
      fun _ ↦ Reposed tactful False sinks := by
  rcases outcome with fault | _
  · exact hreposeful.yields_conclude hon (.error fault)
  · have hcounted : Reposed tactful tactful sinks runner.stepCounted := { hon with }
    rw [Yields, concludeStep, ends_bind, modifySession, ends_modify]
    show Ends (runAt position >>= _) runner.stepCounted _
    rw [ends_bind, ends_runAt_iff]
    cases runner.stepCounted.runs[position]? with
    | none => exact hcounted.weaken
    | some run =>
      simp only
      split
      · exact hreposeful.yields_conclude hcounted (.ok ())
      · exact hcounted.weaken

/-! ### Moving on -/

theorem yields_blockingRun {again : Action Unit}
    (hagain : Preserves (Reposed tactful False sinks) again)
    (hreposed : Reposed tactful False sinks runner) (hactive : runner.session.active = true) :
    Yields (fun _ ↦ Reposed tactful False sinks) (blockingRun audience again position) runner
      fun _ ↦ Reposed tactful False sinks := by
  have hon : Reposed tactful tactful sinks runner := hreposed.of_active fun _ ↦ hactive
  rw [Yields, blockingRun_eq, ends_bind, ends_get]
  have hloop :=
    (Reposed.preserves_blockingSteps hreposeful.sink position audience.patience).attempt
  refine Yields.bind (Yields.allow (Reposed.preserves_log _ _ _ runner hon)
    fun _ _ ↦ Reposed.weaken) fun _ logged hlogged ↦ ?_
  refine Yields.bind (Yields.allow (hloop logged hlogged) fun _ _ ↦ Reposed.weaken)
    fun outcome middle hmiddle ↦ ?_
  exact (hreposeful.yields_conclude hmiddle outcome).bind fun _ ↦ preserves_again hagain _

theorem preserves_engage {again : Action Unit}
    (hagain : Preserves (Reposed tactful False sinks) again) :
    Preserves (Reposed tactful False sinks) (engage audience again) := by
  intro runner hreposed
  by_cases hactive : runner.session.active = true
  · exact ends_engage (fun _ ↦ hreposed) (fun _ ↦ hreposed)
      (fun _ cadence _ ↦ hreposed.yields_arm hactive _ cadence)
      fun _ position _ _ ↦ hreposeful.yields_blockingRun hagain hreposed hactive
  · refine (ends_engage_of_off ?_).mpr hreposed
    rw [Bool.eq_false_iff.mpr hactive, Bool.false_and]

theorem preserves_rearm : Preserves (Reposed tactful False sinks) (rearm audience) := by
  unfold rearm
  induction audience.patience with
  | zero => exact fun _ hreposed ↦ hreposed
  | succ bound ih =>
    rw [rearmWithin_succ]
    exact Reposed.preserves_disarm.bind fun _ ↦ hreposeful.preserves_engage ih

omit hreposeful in
/-- An operation on an engine finds the session on. -/
theorem preserves_requireRun {Result : Type} (operation : String) {next : Nat → Action Result}
    (hnext : ∀ position runner, Reposed tactful False sinks runner →
      runner.attached = some position → runner.session.active = true →
        Yields (fun _ ↦ Reposed tactful False sinks) (next position) runner
          fun _ ↦ Reposed tactful False sinks) :
    Preserves (Reposed tactful False sinks) (requireRun operation >>= next) := by
  intro runner hreposed
  rw [Yields, ends_bind, ends_requireRun]
  cases hattached : runner.attached with
  | none => exact hreposed
  | some position =>
    exact hnext position runner hreposed hattached (hreposed.active_of_attached hattached)

theorem preserves_runBlocking : Preserves (Reposed tactful False sinks) (runBlocking audience) :=
  preserves_requireRun _ fun _ _ hreposed _ ↦
    hreposeful.yields_blockingRun hreposeful.preserves_rearm hreposed

theorem preserves_step : Preserves (Reposed tactful False sinks) (step audience) := by
  intro runner hreposed
  cases hattached : runner.attached with
  | none =>
    rw [Yields, step, ends_bind, ends_requireRun, hattached]
    exact hreposed
  | some position =>
    refine (ends_step hattached).mpr ?_
    have hon : Reposed tactful tactful sinks runner.wiped :=
      { hreposed with
        active_eq := fun _ ↦ hreposed.active_of_attached hattached
        status_eq := fun _ _ ↦ rfl }
    have hadvance := (Reposed.preserves_advance hreposeful.sink position).attempt
    refine Yields.bind (Yields.allow (hadvance _ hon) fun _ _ ↦ Reposed.weaken)
      fun outcome middle hmiddle ↦ ?_
    refine (hreposeful.yields_concludeStep hmiddle outcome).bind fun _ after hafter ↦ ?_
    exact (hreposeful.preserves_tell .stepped after hafter).bind
      fun _ ↦ preserves_again hreposeful.preserves_rearm _

theorem preserves_callTimer (index : Nat) :
    Preserves (Reposed tactful False sinks) (callTimer audience index) := by
  apply Keeps.get_bind
  intro runner hreposed
  split
  · exact keeps_tick hreposeful.preserves_step _ runner hreposed
  · exact hreposed

theorem preserves_setSpeed (speed : Int) :
    Preserves (Reposed tactful False sinks) (setSpeed audience speed) := by
  rw [setSpeed_eq]
  apply Keeps.get_bind
  intro runner hreposed
  split
  · have hchanged : Preserves (Reposed tactful False sinks) (modifySession ({ · with speed })) :=
      Keeps.modify fun _ hfound ↦ { hfound with }
    have htell : Preserves (Reposed tactful False sinks)
        (tellChange audience runner.session.speed) := by
      apply Keeps.get_bind
      intro shown hshown
      split
      · exact hreposeful.preserves_tell _ shown hshown
      · exact hshown
    exact (hchanged.bind fun _ ↦ (Reposed.preserves_log _ _ _).bind fun _ ↦ htell.bind
      fun _ ↦ hreposeful.preserves_rearm) runner hreposed
  · exact hreposed

/-! ### Sessions that begin and end -/

theorem preserves_start (program : String) (options : StartOptions) :
    Preserves (Reposed tactful False sinks) (start audience program options) := by
  intro runner hreposed
  cases hbuild : runner.bench.build program with
  | error error => exact (ends_start_of_unbuilt hbuild).mpr hreposed
  | ok run =>
    refine yields_start hbuild hreposed.plain fun lines ↦ ?_
    refine (Reposed.preserves_log _ _ _).bind (fun _ ↦ (hreposeful.preserves_tell .started).bind
      fun _ ↦ hreposeful.preserves_rearm) _ ?_
    exact { hreposed.begun options run with }

/-- A stop has taken everything away before it is told. -/
theorem preserves_stop : Preserves (Reposed tactful False sinks) (stop audience) := by
  intro runner hreposed
  cases hactive : runner.session.active with
  | false => exact (ends_stop_of_inactive hactive).mpr hreposed
  | true =>
    refine yields_stop hactive hreposed.plain fun lines ↦ ?_
    have hforgotten : Preserves (Reposed tactful False sinks)
        (modify fun runner : Runner ↦ { runner with journal := runner.journal.clear }) :=
      Keeps.modify fun _ hfound ↦ { hfound with plain := Fields.plain_nil }
    refine (Reposed.preserves_log _ _ _).bind (fun _ ↦ (hreposeful.preserves_tell .stopped).bind
      fun _ ↦ hforgotten) _ ?_
    exact { hreposed.ended with }

theorem preserves_inject (instruction : String) :
    Preserves (Reposed tactful False sinks) (inject audience instruction) := by
  rw [inject_eq]
  refine preserves_requireRun _ fun position runner hreposed _ hactive ↦ ?_
  have hon : Reposed tactful tactful sinks runner := hreposed.of_active fun _ ↦ hactive
  have hexecute := (Reposed.preserves_execute hreposeful.sink position instruction).attempt
  refine Yields.bind (Yields.allow (hexecute runner hon) fun _ _ ↦ Reposed.weaken)
    fun outcome middle hmiddle ↦ ?_
  exact (Reposed.preserves_acceptance instruction outcome).bind (fun accepted ↦
    (hreposeful.preserves_tell (.injected instruction accepted)).bind fun _ ↦ Keeps.pure _)
      middle hmiddle.weaken

/-! ### Orders -/

/-- A timer may call on its own thread, whatever becomes of its call. -/
theorem preserves_callAside (index : Nat) :
    Preserves (Reposed tactful False sinks) (callAside audience index) := by
  apply Keeps.get_bind
  intro runner hreposed
  have hrestored : Preserves (Reposed tactful False sinks)
      (modifyContext fun _ ↦ runner.journal.context) :=
    Reposed.preserves_modifyContext hreposed.plain
  refine ((Reposed.preserves_modifyContext Fields.plain_nil).bind fun _ ↦
    (hreposeful.preserves_callTimer index).survives.bind fun survived ↦ ?_) runner hreposed
  split
  · refine (Reposed.preserves_cancel index).bind fun _ ↦ Keeps.get_bind fun after hafter ↦ ?_
    split
    · exact ((Reposed.preserves_log _ _ _).bind fun _ ↦ hrestored) after hafter
    · exact hrestored after hafter
  · exact hrestored

theorem preserves_drainWithin (bound : Nat) :
    Preserves (Reposed tactful False sinks) (drainWithin audience bound) := by
  induction bound with
  | zero => exact fun _ hreposed ↦ hreposed
  | succ bound ih =>
    apply Keeps.get_bind
    intro runner hreposed
    split
    · exact hreposed
    · exact ((hreposeful.preserves_callAside _).bind fun _ ↦ ih) runner hreposed

/-- Every genuine order keeps what an inactive session is to be like, in whatever way it ends. -/
theorem preserves_obey {order : Order} (hgenuine : order.Genuine) :
    Preserves (Reposed tactful False sinks) (obey audience order) := by
  have hanswer {Result : Type} {activity : Action Result}
      (hpreserves : Preserves (Reposed tactful False sinks) activity) (reply : Result → Reply) :
      Preserves (Reposed tactful False sinks) (do return reply (← activity)) :=
    hpreserves.bind fun result ↦ Keeps.pure (reply result)
  cases order with
  | start program options =>
    exact hanswer (hreposeful.preserves_start program options) fun _ ↦ .nothing
  | stop => exact hanswer hreposeful.preserves_stop fun _ ↦ .nothing
  | step => exact hanswer hreposeful.preserves_step fun _ ↦ .nothing
  | runBlocking => exact hanswer hreposeful.preserves_runBlocking fun _ ↦ .nothing
  | faster =>
    exact hanswer (Keeps.get_bind fun runner ↦ hreposeful.preserves_setSpeed _ runner)
      fun _ ↦ .nothing
  | slower =>
    refine hanswer (Keeps.get_bind fun runner hreposed ↦ ?_) fun _ ↦ .nothing
    simp only
    split
    · exact hreposeful.preserves_setSpeed _ runner hreposed
    · exact hreposed
  | pause => exact hanswer (hreposeful.preserves_setSpeed _) fun _ ↦ .nothing
  | superSpeed => exact hanswer (hreposeful.preserves_setSpeed _) fun _ ↦ .nothing
  | shutdown =>
    exact hanswer (hreposeful.preserves_stop.bind fun _ ↦ Reposed.preserves_detach)
      fun _ ↦ .nothing
  | setSpeed speed => exact hanswer (hreposeful.preserves_setSpeed speed) fun _ ↦ .nothing
  | inject instruction => exact hanswer (hreposeful.preserves_inject instruction) .accepted
  | fire rounds => exact hanswer (keeps_fire hreposeful.preserves_step rounds) .calls
  | callTimer index =>
    exact (preserves_timerAt_upheld index).bind fun position ↦
      hanswer (hreposeful.preserves_callTimer position) fun _ ↦ .nothing
  | rearm => exact hanswer hreposeful.preserves_rearm fun _ ↦ .nothing
  | pokeActive active => exact hgenuine.elim
  | drain speed =>
    exact (hreposeful.preserves_setSpeed speed).bind fun _ ↦
      (hreposeful.preserves_drainWithin _).bind fun _ ↦ Keeps.pure _
  | _ => exact Reposed.preserves_obey_of_mute trivial

end Audience.Reposeful

/-! ### Moments -/

namespace Runner

/-- In a run, nobody says from outside whether a session is active. -/
structure Cast.Genuine (cast : Cast) (start : Runner) : Prop where
  conduct : ∀ position runner,
    (cast.conduct position runner).Gives (fun _ ↦ Order.Genuine) runner
  caller : cast.caller.Gives (fun _ ↦ Order.Genuine) start

/-- In a run, observers of the output neither start nor stop a session, nor tell anything. -/
def Cast.Tactful (cast : Cast) (sinks : List Nat) : Prop :=
  ∀ sink ∈ sinks, ∀ runner, (cast.conduct sink runner).Gives (fun _ ↦ Order.Mute) runner

variable {start : Runner} {inv : Runner → Prop} {allowed : Runner → Order → Prop}
variable {cut : Runner → Bool} {conduct : Nat → Runner → Conduct} {patience depth position : Nat}
variable {tactful : Prop} {sinks : List Nat}

/-- An observer keeps what the orders keep that it gives, whatever the others do. -/
theorem preserves_react_at_of_gives
    (hcalled : ∀ runner hookCalls, inv runner → inv { runner with hookCalls })
    (hobey : ∀ order runner, inv runner → allowed runner order →
      Yields (fun _ ↦ inv) (obey (.conductedUntil cut conduct patience depth) order) runner
        fun _ ↦ inv)
    (hgives : ∀ runner, (conduct position runner).Gives allowed runner) :
    Preserves inv ((Audience.conductedUntil cut conduct patience (depth + 1)).react position) := by
  refine Keeps.bind (Keeps.modify fun runner hinv ↦ hcalled runner _ hinv) fun _ ↦
    Keeps.get_bind fun runner hinv ↦ ?_
  split
  · exact hinv
  · exact yields_performUntil_of_gives hobey cut (hgives runner) hinv

/-- Observers who give genuine orders only keep what an inactive session is to be like, to whatever
depth orders are given inside of orders. -/
theorem reposeful_conductedUntil
    (hgenuine : ∀ position runner, (conduct position runner).Gives (fun _ ↦ Order.Genuine) runner)
    (hmute : tactful → ∀ sink ∈ sinks, ∀ runner,
      (conduct sink runner).Gives (fun _ ↦ Order.Mute) runner)
    (cut : Runner → Bool) (patience depth : Nat) :
    (Audience.conductedUntil cut conduct patience depth).Reposeful tactful sinks := by
  induction depth with
  | zero => exact ⟨fun _ _ hreposed ↦ hreposed, fun _ _ _ hreposed ↦ hreposed⟩
  | succ depth ih =>
    have hreact (position : Nat) : Preserves (Reposed tactful False sinks)
        ((Audience.conductedUntil cut conduct patience (depth + 1)).react position) :=
      preserves_react_of_gives (fun _ _ hreposed ↦ { hreposed with })
        (fun _ runner hreposed horder ↦ ih.preserves_obey horder runner hreposed) hgenuine position
    refine ⟨hreact, fun sink hsink ↦ ?_⟩
    by_cases htactful : tactful
    · exact preserves_react_at_of_gives (fun _ _ hreposed ↦ { hreposed with })
        (fun _ runner hreposed horder ↦ Reposed.preserves_obey_of_mute horder runner hreposed)
        (hmute htactful sink hsink)
    · have hon {last : Runner} (hlast : Reposed tactful False sinks last) :
          Reposed tactful tactful sinks last := hlast.of_active fun h ↦ absurd h htactful
      exact fun runner hreposed ↦ Yields.allow (Yields.mono
        (hreact sink runner hreposed.weaken) fun _ _ ↦ hon) fun _ _ ↦ hon

theorem reposeful_conducted
    (hgenuine : ∀ position runner, (conduct position runner).Gives (fun _ ↦ Order.Genuine) runner)
    (hmute : tactful → ∀ sink ∈ sinks, ∀ runner,
      (conduct sink runner).Gives (fun _ ↦ Order.Mute) runner)
    (patience depth : Nat) :
    (Audience.conducted conduct patience depth).Reposeful tactful sinks := by
  rw [← Audience.conductedUntil_never]
  exact reposeful_conductedUntil hgenuine hmute _ patience depth

theorem reposed_of_fresh {bench : Bench} {hooks : List Hook} {journal : Journal}
    (hstart : fresh bench hooks journal = .ok start) (hbound : journal.context.Plain) :
    Reposed tactful False start.sinks start := by
  obtain ⟨_, -, rfl⟩ := exists_of_fresh hstart
  exact ⟨rfl, hbound, False.elim, fun _ ↦ rfl, fun _ ↦ rfl, fun _ ↦ rfl, fun _ _ ↦ rfl⟩

/-- At every moment of a run, an inactive session has no engine, no supply and no timer, and no
status if the observers of the output are tactful. -/
theorem Cast.reposed_moment {cast : Cast} {bench : Bench} {hooks : List Hook} {journal : Journal}
    (hstart : fresh bench hooks journal = .ok start) (hbound : journal.context.Plain)
    (hgenuine : cast.Genuine start) (cut : Runner → Bool) :
    Reposed (cast.Tactful start.sinks) False start.sinks (cast.moment start cut) := by
  have hreposeful : (Audience.conductedUntil cut cast.conduct cast.patience cast.depth).Reposeful
      (cast.Tactful start.sinks) start.sinks :=
    reposeful_conductedUntil hgenuine.conduct id cut cast.patience cast.depth
  exact (yields_performUntil_of_gives (fun order runner hreposed horder ↦
    hreposeful.preserves_obey horder runner hreposed) cut hgenuine.caller
      (reposed_of_fresh hstart hbound)).last

end Runner

end TapeRunner
