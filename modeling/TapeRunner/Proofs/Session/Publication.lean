import TapeRunner.Proofs.Session.Record

/-!
# Telling in the midst of telling

Handlers are called one after the other, and what one of them has a session tell is told to all
before the next one is called. So what holds when an event is told is handed from handler to
handler, and passes at the recorder from what holds while the event is on its way to what holds once
it has come on record (`Runner.yields_tell_among`). Apart from telling, starting and stopping,
operations leave the session that is told of and the record alone (`Runner.Mute`). An invariant that
survives these three (`Runner.Narrated`) is kept by every order, in whatever way it ends and
whatever handlers ask for meanwhile (`Runner.Narrated.preserves_obey`); a step may in addition rely
on what is left by those who hear its report.
-/

set_option autoImplicit false
set_option relaxedAutoImplicit false

namespace TapeRunner

open Activity

namespace Runner

variable {runner last middle base : Runner} {audience : Audience} {inv : Runner → Prop}

/-! ### From handler to handler -/

/-- An event passes from handler to handler. Until the recorder has heard it, one thing holds, which
those keep who hear it earlier, and then another, which everyone keeps. If a handler fails, what
both have in common is left. -/
theorem yields_hear {before after broken : Runner → Prop} {event : Event}
    {observers : List Observer}
    (hearly : ∀ position, .hook position ∈ observers.takeWhile (· ≠ .recorder) →
      Preserves before (audience.react position))
    (hlate : ∀ position, .hook position ∈ observers → Preserves after (audience.react position))
    (hrecorded : ∀ runner, before runner → after (runner.withEvent event))
    (hdropped : ∀ runner, before runner → broken runner)
    (hkept : ∀ runner, after runner → broken runner)
    (honce : observers.count .recorder = 1) (hbefore : before runner) :
    Yields (fun _ ↦ broken) (observers.forM (hear audience event)) runner fun _ ↦ after := by
  induction observers generalizing runner with
  | nil => cases honce
  | cons observer later ih =>
    have hlater (position : Nat) (hposition : .hook position ∈ later) :=
      hlate position (List.mem_cons_of_mem _ hposition)
    cases observer with
    | registrar =>
      rw [List.count_cons_of_ne (by decide)] at honce
      refine ih (fun position hposition ↦ hearly position ?_) hlater honce hbefore
      exact List.mem_cons_of_mem _ hposition
    | recorder =>
      have hnone : later.count .recorder = 0 := by
        rw [List.count_cons_self] at honce
        exact Nat.succ.inj honce
      have hrest : Preserves after (later.forM (hear audience event)) := by
        refine Keeps.forM later fun observer hobserver ↦ ?_
        cases observer with
        | registrar => exact Keeps.pure ()
        | recorder => exact absurd hobserver (List.count_eq_zero.mp hnone)
        | hook position => exact hlater position hobserver
      exact Yields.allow (hrest _ (hrecorded runner hbefore)) fun _ last ↦ hkept last
    | hook position =>
      rw [List.count_cons_of_ne (Observer.noConfusion ·)] at honce
      have hreact := hearly position List.mem_cons_self runner hbefore
      refine (Yields.allow hreact fun _ last ↦ hdropped last).bind fun _ middle hmiddle ↦ ?_
      refine ih (fun other hother ↦ hearly other ?_) hlater honce hmiddle
      exact List.mem_cons_of_mem _ hother

/-- What is told passes in this way from handler to handler. -/
theorem yields_tell_among {before after broken : Runner → Prop} {kind : EventKind}
    (honce : (runner.bus.recipients kind.type).count .recorder = 1)
    (hearly : ∀ position,
      .hook position ∈ (runner.bus.recipients kind.type).takeWhile (· ≠ .recorder) →
        Preserves before (audience.react position))
    (hlate : ∀ position, .hook position ∈ runner.bus.recipients kind.type →
      Preserves after (audience.react position))
    (hrecorded : ∀ last, before last → after (last.withEvent (runner.counted.eventOf kind)))
    (hdropped : ∀ last, before last → broken last) (hkept : ∀ last, after last → broken last)
    (hbefore : ∀ lines, before (runner.counted.withLines lines)) :
    Yields (fun _ ↦ broken) (tell audience kind) runner fun _ ↦ after := by
  refine (ends_tell kind).mpr ?_
  rw [publish, ends_bind, ends_get]
  have hrefused : broken runner.counted := hdropped _ (hbefore runner.journal.lines)
  refine Yields.bind (writes_of_refusal (fun _ _ ↦ hrefused) _ _) ?_
  rintro _ _ ⟨lines, rfl⟩
  exact yields_hear hearly hlate hrecorded hdropped hkept honce (hbefore lines)

/-! ### What tells nothing -/

/-- The session is the one that it was, as active and as attached, nothing has been told of it, and
its observers are the same. -/
structure Aside (base runner : Runner) : Prop where
  bus_eq : runner.bus = base.bus
  sinks_eq : runner.sinks = base.sinks
  recorded_eq : runner.recorded = base.recorded
  attached_eq : runner.attached = base.attached
  number_eq : runner.session.number = base.session.number
  active_eq : runner.session.active = base.session.active
  sequence_eq : runner.session.sequence = base.session.sequence
  plain : base.journal.context.Plain → runner.journal.context.Plain

theorem Aside.refl (runner : Runner) : runner.Aside runner :=
  ⟨rfl, rfl, rfl, rfl, rfl, rfl, rfl, id⟩

theorem Aside.trans (hfirst : base.Aside runner) (hsecond : runner.Aside last) :
    base.Aside last where
  bus_eq := hsecond.bus_eq.trans hfirst.bus_eq
  sinks_eq := hsecond.sinks_eq.trans hfirst.sinks_eq
  recorded_eq := hsecond.recorded_eq.trans hfirst.recorded_eq
  attached_eq := hsecond.attached_eq.trans hfirst.attached_eq
  number_eq := hsecond.number_eq.trans hfirst.number_eq
  active_eq := hsecond.active_eq.trans hfirst.active_eq
  sequence_eq := hsecond.sequence_eq.trans hfirst.sequence_eq
  plain := hsecond.plain ∘ hfirst.plain

/-- In whatever way an activity ends, it has left the session that is told of and the record
alone. -/
def Mute {Result : Type} (activity : Action Result) : Prop :=
  ∀ base : Runner, Preserves base.Aside activity

/-- An invariant that is not broken aside of what is told. -/
def KeptAside (inv : Runner → Prop) : Prop :=
  ∀ runner last : Runner, inv runner → runner.Aside last → inv last

theorem KeptAside.and {other : Runner → Prop} (hinv : KeptAside inv) (hother : KeptAside other) :
    KeptAside fun runner ↦ inv runner ∧ other runner :=
  fun runner last hrunner haside ↦
    ⟨hinv runner last hrunner.1 haside, hother runner last hrunner.2 haside⟩

section Mute

variable {Result Next : Type} {activity : Action Result}

theorem mute_of_yields (hyields : ∀ runner : Runner,
    Yields (fun _ ↦ runner.Aside) activity runner fun _ ↦ runner.Aside) : Mute activity := by
  intro base runner hrunner
  exact Yields.allow (Yields.mono (hyields runner) fun _ _ ↦ hrunner.trans)
    fun _ _ ↦ hrunner.trans

theorem mute_modify {change : Runner → Runner} (hchange : ∀ runner : Runner,
    runner.Aside (change runner)) : Mute (modify change) :=
  fun _ ↦ Keeps.modify fun runner hrunner ↦ hrunner.trans (hchange runner)

theorem Mute.bind {next : Result → Action Next} (hfirst : Mute activity)
    (hnext : ∀ result, Mute (next result)) : Mute (activity >>= next) :=
  fun base ↦ Keeps.bind (hfirst base) fun result ↦ hnext result base

/-- What is mute keeps whatever is not broken aside of what is told. -/
theorem Mute.preserves (hmute : Mute activity) (hkept : KeptAside inv) :
    Preserves inv activity := by
  intro runner hinv
  have haside := hmute runner runner (.refl runner)
  exact Yields.allow (Yields.mono haside fun _ last ↦ hkept runner last hinv)
    fun _ last ↦ hkept runner last hinv

end Mute

theorem aside_withLines (runner : Runner) (lines : Array Line) :
    runner.Aside (runner.withLines lines) := ⟨rfl, rfl, rfl, rfl, rfl, rfl, rfl, id⟩

theorem mute_log (level : Level) (event : String) (fields : Fields) :
    Mute (log level event fields) :=
  fun _ ↦ keeps_log level event (fun _ hrunner ↦ writes_of_refusal fun _ _ ↦ hrunner)
    fun runner lines hrunner ↦ hrunner.trans (aside_withLines runner lines)

/-- A change of the speed, the status or the count of steps. -/
theorem mute_modifySession {change : Session → Session}
    (hnumber : ∀ session, (change session).number = session.number)
    (hactive : ∀ session, (change session).active = session.active)
    (hsequence : ∀ session, (change session).sequence = session.sequence) :
    Mute (modifySession change) :=
  mute_modify fun runner ↦
    ⟨rfl, rfl, rfl, rfl, hnumber runner.session, hactive runner.session, hsequence runner.session,
      id⟩

theorem mute_modifyRun (position : Nat) (change : Run → Run) : Mute (modifyRun position change) :=
  mute_modify fun _ ↦ ⟨rfl, rfl, rfl, rfl, rfl, rfl, rfl, id⟩

theorem mute_modifyBench (change : Bench → Bench) : Mute (modifyBench change) :=
  mute_modify fun _ ↦ ⟨rfl, rfl, rfl, rfl, rfl, rfl, rfl, id⟩

theorem mute_cancel (index : Nat) : Mute
    (modify fun runner ↦ { runner with timers := Timer.cancel runner.timers index }) :=
  mute_modify fun _ ↦ ⟨rfl, rfl, rfl, rfl, rfl, rfl, rfl, id⟩

theorem mute_modifyContext {context : Fields} (hplain : context.Plain) :
    Mute (modifyContext fun _ ↦ context) :=
  mute_modify fun _ ↦ ⟨rfl, rfl, rfl, rfl, rfl, rfl, rfl, fun _ ↦ hplain⟩

theorem mute_disarm : Mute disarm := by
  refine mute_of_yields fun runner ↦ ?_
  have hdisarmed (generation : Nat) (timers : Array (Timer Nat)) :
      runner.Aside (runner.disarmed generation timers) := ⟨rfl, rfl, rfl, rfl, rfl, rfl, rfl, id⟩
  refine Yields.mono (yields_disarm fun generation timers ↦
    writes_of_refusal fun _ _ ↦ hdisarmed generation timers) ?_
  rintro _ _ ⟨generation, timers, lines, rfl⟩
  exact (hdisarmed generation timers).trans (aside_withLines _ lines)

theorem mute_arm (speed : Int) (cadence : Float) : Mute (arm speed cadence) := by
  refine mute_of_yields fun runner ↦ ?_
  by_cases hinterval : Speed.interval cadence ≤ 0
  · exact (ends_arm_of_refused hinterval).mpr (.refl runner)
  · have harmed : runner.Aside (runner.armedAt cadence) := ⟨rfl, rfl, rfl, rfl, rfl, rfl, rfl, id⟩
    refine Yields.mono (yields_arm hinterval (writes_of_refusal fun _ _ ↦ harmed)) ?_
    rintro _ _ ⟨lines, rfl⟩
    exact harmed.trans (aside_withLines _ lines)

theorem mute_acceptance (instruction : String) (outcome : Except Fault Unit) :
    Mute (acceptance instruction outcome) := by
  rcases outcome with fault | _
  · exact (mute_log _ _ _).bind fun _ _ ↦ Keeps.pure false
  · exact fun _ ↦ Keeps.pure true

theorem mute_feed (content : String) : Mute (feed content) := by
  intro base
  apply Keeps.get_bind
  intro runner hrunner
  split
  · exact hrunner
  · exact mute_modifyRun _ _ base runner hrunner

theorem mute_readInput : Mute readInput := by
  intro base
  apply Keeps.get_bind
  intro runner hrunner
  split
  · exact hrunner
  · refine ((preserves_runAt _).bind fun run ↦ ?_) runner hrunner
    split
    · exact Preserves.fail _
    · exact (mute_modifyRun _ _ base).bind fun _ ↦ Keeps.pure _

end Runner

/-- An order that tells nothing, and neither starts nor stops a session. -/
def Order.Mute : Order → Prop
  | .feed _ | .readInput | .cancelTimer _ | .setClock _ _ | .pokeSpeed _ | .setMemory _
  | .setScript _ _ _ | .clearOutput | .raise _ | .look => True
  | _ => False

/-- No order is given but mute ones. -/
def Conduct.Mute : Conduct → Prop
  | .rest | .raise _ => True
  | .give order next => order.Mute ∧ ∀ outcome after, (next outcome after).Mute

theorem Conduct.mute_inTurn {orders : List Order} (hmute : ∀ order ∈ orders, order.Mute) :
    (inTurn orders).Mute := by
  induction orders with
  | nil => trivial
  | cons order later ih =>
    have hlater := ih fun other hother ↦ hmute other (List.mem_cons_of_mem _ hother)
    refine ⟨hmute order List.mem_cons_self, fun outcome _ ↦ ?_⟩
    rcases outcome with error | _
    · show Conduct.Mute (if error.isRefusal then .raise error else inTurn later)
      split
      · trivial
      · exact hlater
    · exact hlater

/-- An observer that leaves the session that is told of and the record alone. -/
def Audience.MuteAt (audience : Audience) (position : Nat) : Prop :=
  Runner.Mute (audience.react position)

namespace Runner

variable {runner last middle base : Runner} {audience : Audience} {inv : Runner → Prop}

theorem mute_obey {order : Order} (hmute : order.Mute) : Mute (obey audience order) := by
  have hanswer {Result : Type} {activity : Action Result} (hactivity : Mute activity)
      (reply : Result → Reply) : Mute (do return reply (← activity)) :=
    hactivity.bind fun result _ ↦ Keeps.pure (reply result)
  cases order with
  | feed content => exact hanswer (mute_feed content) fun _ ↦ .nothing
  | readInput => exact hanswer mute_readInput .byte
  | cancelTimer index =>
    exact Mute.bind (fun _ ↦ preserves_timerAt_upheld index) fun position ↦
      hanswer (mute_cancel position) fun _ ↦ .nothing
  | setClock numerator denominator =>
    refine Mute.bind ?_ fun _ _ ↦ Keeps.pure _
    unfold setClock
    split
    · exact mute_modifyBench _
    · exact fun _ ↦ Preserves.fail _
  | pokeSpeed speed =>
    have hpoked : Mute (modifySession ({ · with speed })) :=
      mute_modifySession (fun _ ↦ rfl) (fun _ ↦ rfl) fun _ ↦ rfl
    exact hanswer hpoked fun _ ↦ .nothing
  | setMemory size => exact hanswer (mute_modifyBench _) fun _ ↦ .nothing
  | setScript faults crashes rejects => exact hanswer (mute_modifyBench _) fun _ ↦ .nothing
  | clearOutput =>
    refine hanswer (mute_modify fun _ ↦ ?_) fun _ ↦ .nothing
    exact ⟨rfl, rfl, rfl, rfl, rfl, rfl, rfl, id⟩
  | raise message => exact fun _ ↦ Preserves.fail _
  | look => exact fun _ ↦ Keeps.get_bind fun _ hrunner ↦ hrunner
  | _ => exact hmute.elim

theorem mute_perform {conduct : Conduct} (hmute : conduct.Mute) :
    Mute (conduct.perform audience) := by
  induction conduct with
  | rest => exact fun _ ↦ Keeps.pure ()
  | raise error => exact fun _ ↦ Preserves.fail error
  | give order next ih =>
    intro base
    refine (mute_obey hmute.1 base).caught.bind fun outcome ↦ ?_
    refine Keeps.get_bind fun runner hrunner ↦ ?_
    exact ih outcome runner (hmute.2 outcome runner) base runner hrunner

/-- Who gives mute orders only is mute, to whatever depth orders are given inside of orders. -/
theorem muteAt_conducted {conduct : Nat → Runner → Conduct} {position : Nat}
    (hmute : ∀ runner, (conduct position runner).Mute) (patience depth : Nat) :
    (Audience.conducted conduct patience depth).MuteAt position := by
  cases depth with
  | zero => exact fun _ _ hrunner ↦ hrunner
  | succ depth =>
    refine Mute.bind (mute_modify fun _ ↦ ?_) fun _ base ↦ Keeps.get_bind fun runner hrunner ↦ ?_
    · exact ⟨rfl, rfl, rfl, rfl, rfl, rfl, rfl, id⟩
    · exact mute_perform (hmute runner) base runner hrunner

/-! ### Steps of the engine -/

/-- What a step does before it tells of itself: its turn, and the report on that. -/
def lead (audience : Audience) (position : Nat) : Action Unit := do
  let outcome ← attempt (advance audience position)
  concludeStep audience position outcome

/-- A step of an attached session leads up to telling of itself. -/
theorem ends_step_of_lead {required : Except Halt Unit → Runner → Prop} {position : Nat}
    (hattached : runner.attached = some position) :
    Ends (step audience) runner required ↔ Ends (do
      lead audience position
      tell audience .stepped
      againUnless runner.session.speed (rearm audience)) runner.wiped required := by
  rw [ends_step hattached, lead, bind_assoc]

section Engine

variable {position : Nat}

/-- An effect is settled aside of what is told, and then handed to the observers of the output. -/
theorem yields_settleAny_kept (hkept : KeptAside inv) (hinv : inv runner)
    (hsinks : ∀ sink ∈ runner.sinks, Preserves inv (audience.react sink))
    (effect? : Option Effect) :
    Yields (fun _ ↦ inv) (settleAny audience position effect?) runner fun _ ↦ inv := by
  refine yields_settleAny (fun _ ↦ hinv) (fun effect _ ↦ ?_) hsinks
  exact hkept runner _ hinv ⟨rfl, rfl, rfl, rfl, rfl, rfl, rfl, id⟩

variable (hkept : KeptAside inv)
variable (hsinks : ∀ runner, inv runner →
  ∀ sink ∈ runner.sinks, Preserves inv (audience.react sink))
include hkept hsinks

theorem preserves_advance_kept (position : Nat) : Preserves inv (advance audience position) := by
  intro runner hinv
  cases hrun : runner.runs[position]? with
  | none =>
    rw [Yields, advance, ends_bind, ends_runAt_iff, hrun]
    exact hinv
  | some run =>
    refine (ends_advance hrun).mpr ?_
    cases hturn : run.turn runner.bench.script with
    | error error => exact hinv
    | ok turn =>
      refine Ends.mono (yields_settleAny_kept hkept hinv (hsinks runner hinv) turn.1) ?_
      intro outcome middle hmiddle
      rcases outcome with halt | _
      · exact hmiddle
      · exact hkept middle _ hmiddle ⟨rfl, rfl, rfl, rfl, rfl, rfl, rfl, id⟩

theorem preserves_execute_kept (position : Nat) (instruction : String) :
    Preserves inv (execute audience position instruction) := by
  intro runner hinv
  cases hrun : runner.runs[position]? with
  | none =>
    rw [Yields, execute, ends_bind, ends_runAt_iff, hrun]
    exact hinv
  | some run =>
    refine (ends_execute hrun).mpr ?_
    cases haside : run.aside runner.bench.script instruction with
    | error error => exact hinv
    | ok effect? => exact yields_settleAny_kept hkept hinv (hsinks runner hinv) effect?

theorem preserves_blockingSteps_kept (position patience : Nat) :
    Preserves inv (blockingSteps audience position patience) := by
  intro runner hinv
  refine Yields.mono (yields_blockingSteps (fun _ hinv ↦ hinv) (fun _ hinv _ ↦ hinv)
    (fun runner _ hinv _ _ _ ↦ ?_) patience hinv) fun _ _ ↦ And.left
  have hadvance := preserves_advance_kept hkept hsinks position runner hinv
  refine Yields.mono hadvance fun _ last hlast ↦ ?_
  exact hkept last _ hlast ⟨rfl, rfl, rfl, rfl, rfl, rfl, rfl, id⟩

variable (hreported : ∀ kind : EventKind, kind.Closes → Preserves inv (tell audience kind))
include hreported

omit hsinks in
/-- The end of a stretch is reported by a session that is idle already. -/
theorem preserves_conclude_kept (outcome : Except Fault Unit) :
    Preserves inv (conclude audience outcome) := by
  intro runner hinv
  have hreport (status : Status) (event : String) (fields : Fields) (kind : EventKind)
      (hcloses : kind.Closes) :
      Yields (fun _ ↦ inv) (do log .info event fields; tell audience kind)
        (runner.idledWith status) fun _ ↦ inv :=
    ((mute_log _ _ _).preserves hkept).bind (fun _ ↦ hreported kind hcloses) _
      (hkept runner _ hinv ⟨rfl, rfl, rfl, rfl, rfl, rfl, rfl, id⟩)
  rcases outcome with fault | _
  · exact (ends_reportFault fault).mpr (hreport _ _ _ _ trivial)
  · exact ends_reportEnd.mpr (hreport _ _ _ _ trivial)

/-- Before it tells of itself, a step keeps what its turn and its report keep. -/
theorem preserves_lead_kept (position : Nat) : Preserves inv (lead audience position) := by
  refine (preserves_advance_kept hkept hsinks position).attempt.bind fun outcome ↦ ?_
  rcases outcome with fault | _
  · exact preserves_conclude_kept hkept hreported (.error fault)
  · have hcounted : Mute (modifySession fun session ↦
        { session with steps := session.steps + 1 }) :=
      mute_modifySession (fun _ ↦ rfl) (fun _ ↦ rfl) fun _ ↦ rfl
    refine (hcounted.preserves hkept).bind fun _ ↦ (preserves_runAt position).bind fun run ↦ ?_
    split
    · exact preserves_conclude_kept hkept hreported (.ok ())
    · exact Keeps.pure ()

end Engine

/-! ### Whatever is told meanwhile -/

/-- An invariant that survives what is told, starts and stops, whatever the handlers ask for, and is
not broken aside of that. While an engine is worked on, and then reported on, the session may still
be the one with a number that is attached to a position; if it is at first, it is left so. -/
structure Narrated (audience : Audience) (inv : Runner → Prop)
    (still : Nat → Option Nat → Runner → Prop) : Prop where
  plain {runner : Runner} : inv runner → runner.journal.context.Plain
  aside : KeptAside inv
  stays {position : Nat} {number : Option Nat} : KeptAside (still position number)
  entered {runner : Runner} {position : Nat} : inv runner → runner.attached = some position →
    still position runner.session.number runner
  sink {runner : Runner} {sink position : Nat} {number : Option Nat} : inv runner →
    sink ∈ runner.sinks →
      Preserves (fun last ↦ inv last ∧ still position number last) (audience.react sink)
  told {runner : Runner} (kind : EventKind) : inv runner → kind ≠ .stopped →
    (runner.session.active = true ∨ ∃ position number, still position number runner) →
      Yields (fun _ ↦ inv) (tell audience kind) runner fun _ ↦ inv
  reported {position : Nat} {number : Option Nat} (kind : EventKind) : kind.Closes →
    Preserves (fun last ↦ inv last ∧ still position number last) (tell audience kind)
  begun {runner : Runner} (options : StartOptions) (run : Run) : inv runner →
    inv (runner.begun options run)
  ended {runner : Runner} : inv runner → runner.session.active = true → inv runner.ended
  stopped {runner last : Runner} : inv runner → runner.session.active = true →
    runner.ended.Aside last → Yields (fun _ ↦ inv) (tell audience .stopped) last fun _ ↦ inv
  detached {runner : Runner} : inv runner → inv { runner with attached := none }

/-- What is kept together with the invariant can be relied on after a part that keeps both. -/
theorem yields_bind_and {Result Next : Type} {other : Runner → Prop} {first : Action Result}
    {next : Result → Action Next} {required : Next → Runner → Prop}
    (hrunner : inv runner ∧ other runner)
    (hfirst : Preserves (fun last ↦ inv last ∧ other last) first)
    (hnext : ∀ result last, inv last ∧ other last →
      Yields (fun _ ↦ inv) (next result) last required) :
    Yields (fun _ ↦ inv) (first >>= next) runner required :=
  Yields.bind (Yields.allow (hfirst runner hrunner) fun _ _ ↦ And.left) hnext

namespace Narrated

variable {still : Nat → Option Nat → Runner → Prop} {position : Nat} {number : Option Nat}
variable (hnarrated : Narrated audience inv still)
include hnarrated

theorem kept_still (position : Nat) (number : Option Nat) :
    KeptAside fun last ↦ inv last ∧ still position number last :=
  hnarrated.aside.and hnarrated.stays

theorem sinks : ∀ runner, inv runner ∧ still position number runner → ∀ sink ∈ runner.sinks,
    Preserves (fun last ↦ inv last ∧ still position number last) (audience.react sink) :=
  fun _ hrunner _ ↦ hnarrated.sink hrunner.1

/-! ### Moving on -/

theorem yields_blockingRun {again : Action Unit} (hagain : Preserves inv again)
    (hrunner : inv runner ∧ still position number runner) :
    Yields (fun _ ↦ inv) (blockingRun audience again position) runner fun _ ↦ inv := by
  rw [Yields, blockingRun_eq, ends_bind, ends_get]
  have hkept := hnarrated.kept_still position number
  have hloop := (preserves_blockingSteps_kept hkept hnarrated.sinks position
    audience.patience).attempt
  refine yields_bind_and hrunner ((mute_log _ _ _).preserves hkept) fun _ logged hlogged ↦ ?_
  refine yields_bind_and hlogged hloop fun outcome middle hmiddle ↦ ?_
  refine yields_bind_and hmiddle (preserves_conclude_kept hkept
    (fun kind ↦ hnarrated.reported kind) outcome) fun _ after hafter ↦ ?_
  exact preserves_again hagain _ after hafter.1

theorem preserves_engage {again : Action Unit} (hagain : Preserves inv again) :
    Preserves inv (engage audience again) := by
  intro runner hinv
  refine ends_engage (fun _ ↦ hinv) (fun _ ↦ hinv) (fun _ cadence _ ↦ ?_)
    fun _ position _ hattached ↦ ?_
  · exact (mute_arm _ cadence).preserves hnarrated.aside runner hinv
  · exact hnarrated.yields_blockingRun hagain ⟨hinv, hnarrated.entered hinv hattached⟩

theorem preserves_rearm : Preserves inv (rearm audience) := by
  unfold rearm
  induction audience.patience with
  | zero => exact fun _ hinv ↦ hinv
  | succ bound ih =>
    rw [rearmWithin_succ]
    exact (mute_disarm.preserves hnarrated.aside).bind fun _ ↦ hnarrated.preserves_engage ih

/-- An operation on an engine finds the session still the one that it is. -/
theorem preserves_requireRun {Result : Type} (operation : String) {next : Nat → Action Result}
    (hnext : ∀ position runner, inv runner ∧ still position runner.session.number runner →
      Yields (fun _ ↦ inv) (next position) runner fun _ ↦ inv) :
    Preserves inv (requireRun operation >>= next) := by
  intro runner hinv
  rw [Yields, ends_bind, ends_requireRun]
  cases hattached : runner.attached with
  | none => exact hinv
  | some position => exact hnext position runner ⟨hinv, hnarrated.entered hinv hattached⟩

theorem preserves_runBlocking : Preserves inv (runBlocking audience) :=
  hnarrated.preserves_requireRun _ fun _ _ hrunner ↦
    hnarrated.yields_blockingRun hnarrated.preserves_rearm hrunner

theorem preserves_step : Preserves inv (step audience) := by
  intro runner hinv
  cases hattached : runner.attached with
  | none =>
    rw [Yields, step, ends_bind, ends_requireRun, hattached]
    exact hinv
  | some position =>
    refine (ends_step_of_lead hattached).mpr ?_
    have hkept := hnarrated.kept_still position runner.session.number
    have hwiped := hkept runner runner.wiped ⟨hinv, hnarrated.entered hinv hattached⟩
      ⟨rfl, rfl, rfl, rfl, rfl, rfl, rfl, id⟩
    refine yields_bind_and hwiped (preserves_lead_kept hkept hnarrated.sinks
      (fun kind ↦ hnarrated.reported kind) position) fun _ middle hmiddle ↦ ?_
    exact (hnarrated.told .stepped hmiddle.1 (by simp) (.inr ⟨_, _, hmiddle.2⟩)).bind
      fun _ ↦ preserves_again hnarrated.preserves_rearm _

theorem preserves_callTimer (index : Nat) : Preserves inv (callTimer audience index) := by
  apply Keeps.get_bind
  intro runner hinv
  split
  · exact keeps_tick hnarrated.preserves_step _ runner hinv
  · exact hinv

theorem preserves_setSpeed (speed : Int) : Preserves inv (setSpeed audience speed) := by
  rw [setSpeed_eq]
  apply Keeps.get_bind
  intro runner hinv
  split
  · have hchanged : Mute (modifySession ({ · with speed })) :=
      mute_modifySession (fun _ ↦ rfl) (fun _ ↦ rfl) fun _ ↦ rfl
    have htell : Preserves inv (tellChange audience runner.session.speed) := by
      apply Keeps.get_bind
      intro shown hshown
      split
      · next hactive => exact hnarrated.told _ hshown nofun (.inl hactive)
      · exact hshown
    exact ((hchanged.preserves hnarrated.aside).bind fun _ ↦
      ((mute_log _ _ _).preserves hnarrated.aside).bind fun _ ↦
        htell.bind fun _ ↦ hnarrated.preserves_rearm) runner hinv
  · exact hinv

/-! ### Sessions that begin and end -/

theorem preserves_start (program : String) (options : StartOptions) :
    Preserves inv (start audience program options) := by
  intro runner hinv
  cases hbuild : runner.bench.build program with
  | error error => exact (ends_start_of_unbuilt hbuild).mpr hinv
  | ok run =>
    refine yields_start hbuild (hnarrated.plain hinv) fun lines ↦ ?_
    have hbegun := hnarrated.aside _ _ (hnarrated.begun options run hinv) (aside_withLines _ lines)
    have hlogged := mute_log .info "session.started" (runner.startedFields program options)
      _ _ (aside_withLines (runner.begun options run) lines)
    refine Yields.bind (Yields.allow (Yields.mono hlogged fun _ middle haside ↦
      (⟨hnarrated.aside _ _ (hnarrated.begun options run hinv) haside, haside.active_eq⟩ :
        inv middle ∧ middle.session.active = true)) ?_) ?_
    · exact fun _ last haside ↦ hnarrated.aside _ _ (hnarrated.begun options run hinv) haside
    · rintro _ middle ⟨hmiddle, hactive⟩
      exact (hnarrated.told .started hmiddle nofun (.inl hactive)).bind
        fun _ ↦ hnarrated.preserves_rearm

theorem preserves_stop : Preserves inv (stop audience) := by
  intro runner hinv
  cases hactive : runner.session.active with
  | false => exact (ends_stop_of_inactive hactive).mpr hinv
  | true =>
    refine yields_stop hactive (hnarrated.plain hinv) fun lines ↦ ?_
    have hended := hnarrated.ended hinv hactive
    have hlogged := mute_log .info "session.stopped"
      [runner.nameField, ("steps", .ofNat runner.session.steps)] _ _
        (aside_withLines runner.ended lines)
    refine Yields.bind (Yields.allow hlogged fun _ last ↦ hnarrated.aside _ last hended)
      fun _ middle hmiddle ↦ ?_
    refine (hnarrated.stopped hinv hactive hmiddle).bind fun _ ↦ ?_
    refine (mute_modify fun _ ↦ ?_).preserves hnarrated.aside
    exact ⟨rfl, rfl, rfl, rfl, rfl, rfl, rfl, fun _ ↦ Fields.plain_nil⟩

theorem preserves_detach : Preserves inv detach :=
  (mute_disarm.preserves hnarrated.aside).bind fun _ ↦
    Keeps.modify fun _ hinv ↦ hnarrated.detached hinv

theorem preserves_inject (instruction : String) : Preserves inv (inject audience instruction) := by
  rw [inject_eq]
  refine hnarrated.preserves_requireRun _ fun position runner hrunner ↦ ?_
  have hkept := hnarrated.kept_still position runner.session.number
  have hexecute := (preserves_execute_kept hkept hnarrated.sinks position instruction).attempt
  refine yields_bind_and hrunner hexecute fun outcome after hafter ↦ ?_
  refine yields_bind_and hafter ((mute_acceptance instruction outcome).preserves hkept)
    fun accepted middle hmiddle ↦ ?_
  exact (hnarrated.told (.injected instruction accepted) hmiddle.1 nofun
    (.inr ⟨_, _, hmiddle.2⟩)).bind fun _ _ hlast ↦ hlast

/-! ### Orders -/

/-- A timer may call on its own thread, whatever becomes of its call. -/
theorem preserves_callAside (index : Nat) : Preserves inv (callAside audience index) := by
  apply Keeps.get_bind
  intro runner hinv
  have hbinds {context : Fields} (hplain : context.Plain) :
      Preserves inv (modifyContext fun _ ↦ context) :=
    (mute_modifyContext hplain).preserves hnarrated.aside
  have hrestored := hbinds (hnarrated.plain hinv)
  refine ((hbinds Fields.plain_nil).bind fun _ ↦
    (hnarrated.preserves_callTimer index).survives.bind fun survived ↦ ?_) runner hinv
  split
  · refine ((mute_cancel index).preserves hnarrated.aside).bind fun _ ↦
      Keeps.get_bind fun after hafter ↦ ?_
    split
    · exact (((mute_log _ _ _).preserves hnarrated.aside).bind fun _ ↦ hrestored) after hafter
    · exact hrestored after hafter
  · exact hrestored

theorem preserves_drainWithin (bound : Nat) : Preserves inv (drainWithin audience bound) := by
  induction bound with
  | zero => exact fun _ hinv ↦ hinv
  | succ bound ih =>
    apply Keeps.get_bind
    intro runner hinv
    split
    · exact hinv
    · exact ((hnarrated.preserves_callAside _).bind fun _ ↦ ih) runner hinv

/-- Every order keeps such an invariant, in whatever way it ends, if those do that reach around the
operations. -/
theorem preserves_obey {order : Order} (hpoked : ∀ active, order = .pokeActive active →
      ∀ runner, inv runner → inv { runner with session := { runner.session with active } }) :
    Preserves inv (obey audience order) := by
  have hanswer {Result : Type} {activity : Action Result} (hpreserves : Preserves inv activity)
      (reply : Result → Reply) : Preserves inv (do return reply (← activity)) :=
    hpreserves.bind fun result ↦ Keeps.pure (reply result)
  have hmute {order : Order} (h : order.Mute) : Preserves inv (obey audience order) :=
    (mute_obey h).preserves hnarrated.aside
  cases order with
  | start program options =>
    exact hanswer (hnarrated.preserves_start program options) fun _ ↦ .nothing
  | stop => exact hanswer hnarrated.preserves_stop fun _ ↦ .nothing
  | step => exact hanswer hnarrated.preserves_step fun _ ↦ .nothing
  | runBlocking => exact hanswer hnarrated.preserves_runBlocking fun _ ↦ .nothing
  | faster =>
    exact hanswer (Keeps.get_bind fun runner ↦ hnarrated.preserves_setSpeed _ runner)
      fun _ ↦ .nothing
  | slower =>
    refine hanswer (Keeps.get_bind fun runner hinv ↦ ?_) fun _ ↦ .nothing
    simp only
    split
    · exact hnarrated.preserves_setSpeed _ runner hinv
    · exact hinv
  | pause => exact hanswer (hnarrated.preserves_setSpeed _) fun _ ↦ .nothing
  | superSpeed => exact hanswer (hnarrated.preserves_setSpeed _) fun _ ↦ .nothing
  | shutdown =>
    exact hanswer (hnarrated.preserves_stop.bind fun _ ↦ hnarrated.preserves_detach)
      fun _ ↦ .nothing
  | setSpeed speed => exact hanswer (hnarrated.preserves_setSpeed speed) fun _ ↦ .nothing
  | inject instruction => exact hanswer (hnarrated.preserves_inject instruction) .accepted
  | fire rounds => exact hanswer (keeps_fire hnarrated.preserves_step rounds) .calls
  | callTimer index =>
    exact (preserves_timerAt_upheld index).bind fun position ↦
      hanswer (hnarrated.preserves_callTimer position) fun _ ↦ .nothing
  | rearm => exact hanswer hnarrated.preserves_rearm fun _ ↦ .nothing
  | pokeActive active =>
    exact hanswer (Keeps.modify (hpoked active rfl)) fun _ ↦ .nothing
  | drain speed =>
    exact (hnarrated.preserves_setSpeed speed).bind fun _ ↦
      (hnarrated.preserves_drainWithin _).bind fun _ ↦ Keeps.pure _
  | _ => exact hmute trivial

end Narrated

/-! ### Handlers and callers -/

section Conducted

variable {allowed : Order → Prop} {conduct : Nat → Runner → Conduct} {patience depth : Nat}

/-- Whoever gives allowed orders only keeps what they keep. -/
theorem preserves_perform_of_gives
    (hobey : ∀ order, allowed order → Preserves inv (obey audience order)) {caller : Conduct}
    {start : Runner} (hgives : caller.Gives (fun _ ↦ allowed) start) (hinv : inv start) :
    inv (runFrom (caller.perform audience) start).2 := by
  rw [← Conduct.performUntil_never]
  exact (yields_performUntil_of_gives (fun order runner hrunner horder ↦
    hobey order horder runner hrunner) _ hgives hinv).last

/-- Handlers keep what the orders keep that they give, at the next depth. -/
theorem preserves_react_of_obey (hkept : KeptAside inv)
    (hobey : ∀ order, allowed order →
      Preserves inv (obey (.conducted conduct patience depth) order))
    (hgives : ∀ position runner, (conduct position runner).Gives (fun _ ↦ allowed) runner)
    (position : Nat) :
    Preserves inv ((Audience.conducted conduct patience (depth + 1)).react position) := by
  rw [← Audience.conductedUntil_never] at hobey ⊢
  refine preserves_react_of_gives (fun runner hookCalls hrunner ↦ ?_)
    (fun order runner hrunner horder ↦ hobey order horder runner hrunner) hgives position
  exact hkept runner _ hrunner ⟨rfl, rfl, rfl, rfl, rfl, rfl, rfl, id⟩

end Conducted

end Runner

end TapeRunner
