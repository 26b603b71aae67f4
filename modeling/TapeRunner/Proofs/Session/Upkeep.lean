import TapeRunner.Proofs.Session.Passive

/-!
# What the operations keep

The operations are made of few parts: notes and lines, steps of an engine, changes of the session
and of its surroundings, and the making and cancelling of timers. What all of these parts keep
(`Runner.Upheld`) is kept by every order that leaves the speed alone or turns idle
(`Runner.Upheld.preserves_obey_of_steady`), in whatever way the order ends, as long as the observers
keep it as well. What is kept by new speeds and new runs in addition (`Runner.UpheldThroughout`) is
kept by every order (`Runner.UpheldThroughout.preserves_obey`).
-/

set_option autoImplicit false
set_option relaxedAutoImplicit false

namespace TapeRunner

open Activity

/-- An order that leaves the speed as it is or turns idle, and starts no session. -/
def Order.Steady : Order → Prop
  | .start _ _ | .faster | .slower | .superSpeed | .drain _ => False
  | .setSpeed speed | .pokeSpeed speed => speed = Speed.idle
  | _ => True

namespace Runner

/-- The runner with other fields bound in its journal. -/
def withContext (runner : Runner) (context : Fields) : Runner :=
  { runner with journal := { runner.journal with context } }

/-- What an operation leaves bound where some fields were: nothing, those fields, or those fields
and the name of a session. -/
def Rebinds (old new : Fields) : Prop :=
  new = [] ∨ new = old ∨ ∃ number, new = old.join
    [("session_id", .text (Session.nameOf number)), ("component", .text "session")]

/-- An invariant that every part of an operation keeps while the session keeps its speed or turns
idle. A run may change as long as a sound one stays sound, and a timer is made only where there is
none, for a stepped session. -/
structure Upheld (inv : Runner → Prop) : Prop where
  noted {runner last : Runner} : inv runner → runner.Noted last → inv last
  session {runner : Runner} (session : Session) : inv runner →
    session.speed = runner.session.speed ∨ session.speed = Speed.idle → inv { runner with session }
  surroundings {runner : Runner} (supplied : Option Nat) (output : Output) (bench : Bench) :
    inv runner → inv { runner with supplied, output, bench }
  context {runner base : Runner} (context : Fields) : inv runner → inv base →
    Rebinds base.journal.context context → inv (runner.withContext context)
  changeRun {runner : Runner} (position : Nat) (change : Run → Run) : inv runner →
    (∀ run, runner.runs[position]? = some run → run.Sound → (change run).Sound) →
      inv (runner.changeRun position change)
  cancelled {runner : Runner} (index : Nat) : inv runner →
    inv { runner with timers := Timer.cancel runner.timers index }
  cleared {runner : Runner} : inv runner → inv runner.cleared
  armedAt {runner : Runner} (cadence : Float) : inv runner → runner.current = none →
    0 < runner.session.speed → inv (runner.armedAt cadence)
  detached {runner : Runner} : inv runner → inv { runner with attached := none }

/-- An invariant that new speeds and new runs keep as well. -/
structure UpheldThroughout (inv : Runner → Prop) : Prop extends Upheld inv where
  anySession {runner : Runner} (session : Session) : inv runner → inv { runner with session }
  pushed {runner : Runner} {run : Run} : inv runner → run.Sound →
    inv { runner with runs := runner.runs.push run }
  attachedTo {runner : Runner} (position : Nat) : inv runner → position < runner.runs.size →
    inv { runner with attached := some position }

variable {inv : Runner → Prop} {audience : Audience} {runner : Runner}

/-! ### Parts that only read -/

theorem preserves_runAt (position : Nat) : Preserves inv (runAt position) := by
  apply Keeps.get_bind
  intro runner hinv
  split <;> exact hinv

theorem preserves_requireRun_bind {Result : Type} (operation : String)
    {next : Nat → Action Result} (hnext : ∀ position, Preserves inv (next position)) :
    Preserves inv (requireRun operation >>= next) := by
  refine Keeps.bind (Keeps.get_bind fun runner hinv ↦ ?_) hnext
  split <;> exact hinv

theorem preserves_timerAt_upheld (index : Int) : Preserves inv (timerAt index) := by
  apply Keeps.get_bind
  intro runner hinv
  split <;> exact hinv

theorem preserves_again {again : Action Unit} (hagain : Preserves inv again) (speed : Int) :
    Preserves inv (againUnless speed again) := by
  apply Keeps.get_bind
  intro runner hinv
  split
  · exact hagain runner hinv
  · exact hinv

namespace Upheld

variable (hupheld : Upheld inv)
include hupheld

/-! ### Lines, events and reports -/

theorem preserves_log (level : Level) (event : String) (fields : Fields) :
    Preserves inv (log level event fields) :=
  keeps_log level event (fun _ hinv ↦ writes_of_refusal fun _ _ ↦ hinv)
    fun runner lines hinv ↦ hupheld.noted hinv (noted_withLines runner lines)

theorem preserves_modifySession {change : Session → Session} (hchange : ∀ session,
    (change session).speed = session.speed ∨ (change session).speed = Speed.idle) :
    Preserves inv (modifySession change) :=
  Keeps.modify fun _ hinv ↦ hupheld.session _ hinv (hchange _)

theorem preserves_changeSupply (position : Nat) (supplyOf : Run → Supply) :
    Preserves inv (modifyRun position fun run ↦ { run with supply := supplyOf run }) :=
  Keeps.modify fun _ hinv ↦ hupheld.changeRun position _ hinv fun _ _ hsound ↦ hsound

theorem preserves_modifyBench (change : Bench → Bench) : Preserves inv (modifyBench change) :=
  Keeps.modify fun runner hinv ↦
    hupheld.surroundings runner.supplied runner.output (change runner.bench) hinv

theorem preserves_cancel (index : Nat) : Preserves inv
    (modify fun runner ↦ { runner with timers := Timer.cancel runner.timers index }) :=
  Keeps.modify fun _ hinv ↦ hupheld.cancelled index hinv

/-- Disarming keeps the invariant, and leaves no current timer unless its line is refused. -/
theorem yields_disarm (hinv : inv runner) : Yields (fun _ ↦ inv) disarm runner fun _ last ↦
    inv last ∧ last.current = none ∧ last.runs = runner.runs := by
  have hcleared := hupheld.cleared hinv
  refine Yields.mono (yields_clear (writes_of_refusal fun _ _ ↦ hcleared)) ?_
  rintro _ _ ⟨lines, rfl⟩
  exact ⟨hupheld.noted hcleared (noted_withLines _ lines), rfl, rfl⟩

theorem preserves_detach : Preserves inv detach := fun _ hinv ↦
  (hupheld.yields_disarm hinv).bind fun _ _ hcleared ↦ hupheld.detached hcleared.1

/-- A timer is made where there is none. -/
theorem yields_arm {cadence : Float} (hinv : inv runner) (hcurrent : runner.current = none)
    (hspeed : 0 < runner.session.speed) :
    Yields (fun _ ↦ inv) (arm runner.session.speed cadence) runner fun _ ↦ inv := by
  by_cases hinterval : Speed.interval cadence ≤ 0
  · exact (ends_arm_of_refused hinterval).mpr hinv
  · have harmed := hupheld.armedAt cadence hinv hcurrent hspeed
    refine Yields.mono (Runner.yields_arm hinterval (writes_of_refusal fun _ _ ↦ harmed)) ?_
    rintro _ _ ⟨lines, rfl⟩
    exact hupheld.noted harmed (noted_withLines _ lines)

variable (hreact : ∀ position, Preserves inv (audience.react position))
include hreact

theorem preserves_tell (kind : EventKind) : Preserves inv (tell audience kind) := by
  refine keeps_tell kind (fun _ hinv ↦ writes_of_refusal fun _ _ ↦ hinv) ?_ ?_ ?_ hreact
  · exact fun runner lines hinv ↦ hupheld.noted hinv (noted_withLines runner lines)
  · exact fun _ hinv ↦ hupheld.noted hinv ⟨_, _, _, _, rfl⟩
  · exact fun _ _ _ hinv ↦ hupheld.noted hinv ⟨_, _, _, _, rfl⟩

theorem preserves_conclude (outcome : Except Fault Unit) :
    Preserves inv (conclude audience outcome) := by
  intro runner hinv
  have hreport (status : Status) (event : String) (fields : Fields) (kind : EventKind) :
      Yields (fun _ ↦ inv) (do log .info event fields; tell audience kind)
        (runner.idledWith status) fun _ ↦ inv :=
    (hupheld.preserves_log _ _ _).bind (fun _ ↦ hupheld.preserves_tell hreact _) _
      (hupheld.session _ hinv (.inr rfl))
  rcases outcome with fault | _
  · exact (ends_reportFault fault).mpr (hreport _ _ _ _)
  · exact ends_reportEnd.mpr (hreport _ _ _ _)

/-! ### Steps of the engine -/

theorem yields_settleAny {position : Nat} {run : Run} {effect? : Option Effect} (hinv : inv runner)
    (hrun : runner.runs[position]? = some run)
    (htouches : ∀ effect ∈ effect?, run.Sound → run.Touches effect) :
    Yields (fun _ ↦ inv) (settleAny audience position effect?) runner fun _ ↦ inv := by
  refine Runner.yields_settleAny (fun _ ↦ hinv) (fun effect heffect ↦ ?_) fun sink _ ↦ hreact sink
  have hchanged : inv (runner.changeRun position (·.settle effect)) := by
    refine hupheld.changeRun position _ hinv fun found hfound hsound ↦ ?_
    obtain rfl := Option.some.inj (hrun.symm.trans hfound)
    exact hsound.settle (htouches effect heffect hsound)
  exact hupheld.surroundings _ _ _ hchanged

theorem preserves_advance (position : Nat) : Preserves inv (advance audience position) := by
  intro runner hinv
  cases hrun : runner.runs[position]? with
  | none =>
    rw [Yields, advance, ends_bind, ends_runAt_iff, hrun]
    exact hinv
  | some run =>
    refine (ends_advance hrun).mpr ?_
    cases hturn : run.turn runner.bench.script with
    | error error => exact hinv
    | ok turn =>
      obtain ⟨effect?, counter⟩ := turn
      have htouches : ∀ effect ∈ effect?, run.Sound → run.Touches effect := by
        intro effect heffect hsound
        rw [Option.mem_def.mp heffect] at hturn
        exact hsound.touches_of_turn hturn
      refine Ends.mono (hupheld.yields_settleAny hreact hinv hrun htouches) ?_
      intro outcome middle hmiddle
      rcases outcome with halt | _
      · exact hmiddle
      · exact hupheld.changeRun position _ hmiddle fun _ _ hsound ↦ hsound.resumeAt counter

theorem preserves_execute (position : Nat) (instruction : String) :
    Preserves inv (execute audience position instruction) := by
  intro runner hinv
  cases hrun : runner.runs[position]? with
  | none =>
    rw [Yields, execute, ends_bind, ends_runAt_iff, hrun]
    exact hinv
  | some run =>
    refine (ends_execute hrun).mpr ?_
    cases haside : run.aside runner.bench.script instruction with
    | error error => exact hinv
    | ok effect? =>
      refine hupheld.yields_settleAny hreact hinv hrun ?_
      intro effect heffect _
      rw [Option.mem_def.mp heffect] at haside
      exact Run.touches_of_aside haside

theorem preserves_blockingSteps (position patience : Nat) :
    Preserves inv (blockingSteps audience position patience) := by
  intro runner hinv
  refine Yields.mono (yields_blockingSteps (fun _ hinv ↦ hinv) (fun _ hinv _ ↦ hinv)
    (fun runner _ hinv _ _ _ ↦ ?_) patience hinv) fun _ _ ↦ And.left
  exact Yields.mono (hupheld.preserves_advance hreact position runner hinv)
    fun _ _ hlast ↦ hupheld.session _ hlast (.inl rfl)

/-! ### Moving on -/

theorem preserves_blockingRun {again : Action Unit} (hagain : Preserves inv again)
    (position : Nat) : Preserves inv (blockingRun audience again position) := by
  rw [blockingRun_eq]
  apply Keeps.get_bind
  intro runner hinv
  have hloop := (hupheld.preserves_blockingSteps hreact position audience.patience).attempt
  refine ((hupheld.preserves_log _ _ _).bind fun _ ↦ hloop.bind fun outcome ↦ ?_) runner hinv
  exact (hupheld.preserves_conclude hreact outcome).bind fun _ ↦ preserves_again hagain _

theorem yields_engage {again : Action Unit} (hagain : Preserves inv again) (hinv : inv runner)
    (hcurrent : runner.current = none) :
    Yields (fun _ ↦ inv) (engage audience again) runner fun _ ↦ inv :=
  ends_engage (fun _ ↦ hinv) (fun _ ↦ hinv)
    (fun hstepped _ _ ↦ hupheld.yields_arm hinv hcurrent hstepped)
    fun _ position _ _ ↦ hupheld.preserves_blockingRun hreact hagain position runner hinv

theorem preserves_rearmWithin (bound : Nat) : Preserves inv (rearmWithin audience bound) := by
  induction bound with
  | zero => exact fun _ hinv ↦ hinv
  | succ bound ih =>
    rw [rearmWithin_succ]
    exact fun _ hinv ↦ (hupheld.yields_disarm hinv).bind fun _ _ hcleared ↦
      hupheld.yields_engage hreact ih hcleared.1 hcleared.2.1

theorem preserves_rearm : Preserves inv (rearm audience) :=
  hupheld.preserves_rearmWithin hreact audience.patience

theorem preserves_runBlocking : Preserves inv (runBlocking audience) :=
  preserves_requireRun_bind _ fun position ↦
    hupheld.preserves_blockingRun hreact (hupheld.preserves_rearm hreact) position

theorem preserves_concludeStep (position : Nat) (outcome : Except Fault Unit) :
    Preserves inv (concludeStep audience position outcome) := by
  rcases outcome with fault | _
  · exact hupheld.preserves_conclude hreact (.error fault)
  · have hcounted : Preserves inv (modifySession fun session ↦
        { session with steps := session.steps + 1 }) :=
      hupheld.preserves_modifySession fun _ ↦ .inl rfl
    refine hcounted.bind fun _ ↦ (preserves_runAt position).bind fun run ↦ ?_
    split
    · exact hupheld.preserves_conclude hreact (.ok ())
    · exact Keeps.pure ()

theorem preserves_step : Preserves inv (step audience) := by
  rw [step_eq]
  refine preserves_requireRun_bind _ fun position ↦ Keeps.get_bind fun runner hinv ↦ ?_
  have hwiped : Preserves inv (modifySession ({ · with status := none })) :=
    hupheld.preserves_modifySession fun _ ↦ .inl rfl
  have hadvance := (hupheld.preserves_advance hreact position).attempt
  refine (hwiped.bind fun _ ↦ hadvance.bind fun outcome ↦ ?_) runner hinv
  exact (hupheld.preserves_concludeStep hreact position outcome).bind fun _ ↦
    (hupheld.preserves_tell hreact .stepped).bind fun _ ↦
      preserves_again (hupheld.preserves_rearm hreact) _

theorem preserves_callTimer (index : Nat) : Preserves inv (callTimer audience index) := by
  apply Keeps.get_bind
  intro runner hinv
  split
  · exact keeps_tick (hupheld.preserves_step hreact) _ runner hinv
  · exact hinv

/-- A change of speed keeps the invariant if the new speed does. -/
theorem preserves_setSpeed {speed : Int}
    (hspeed : ∀ runner, inv runner → inv (runner.withSpeed speed)) :
    Preserves inv (setSpeed audience speed) := by
  rw [setSpeed_eq]
  apply Keeps.get_bind
  intro runner hinv
  split
  · have htell : Preserves inv (tellChange audience runner.session.speed) := by
      apply Keeps.get_bind
      intro shown hshown
      split
      · exact hupheld.preserves_tell hreact _ shown hshown
      · exact hshown
    exact (Keeps.bind (Keeps.modify hspeed) fun _ ↦ (hupheld.preserves_log _ _ _).bind
      fun _ ↦ htell.bind fun _ ↦ hupheld.preserves_rearm hreact) runner hinv
  · exact hinv

theorem preserves_stop : Preserves inv (stop audience) := by
  apply Keeps.get_bind
  intro runner hinv
  split
  · have hclosed : Preserves inv (modifySession ({ · with active := false, status := none })) :=
      hupheld.preserves_modifySession fun _ ↦ .inl rfl
    have hfreed : Preserves inv (modify ({ · with supplied := none })) :=
      Keeps.modify fun runner hinv ↦
        hupheld.surroundings none runner.output runner.bench hinv
    have hforgotten : Preserves inv
        (modify fun runner : Runner ↦ { runner with journal := runner.journal.clear }) :=
      Keeps.modify fun _ hinv ↦ hupheld.context [] hinv hinv (.inl rfl)
    refine (hclosed.bind fun _ ↦
      hupheld.preserves_detach.bind fun _ ↦ hfreed.bind fun _ ↦ ?_) runner hinv
    exact Keeps.get_bind fun shown hshown ↦ ((hupheld.preserves_log _ _ _).bind fun _ ↦
      (hupheld.preserves_tell hreact .stopped).bind fun _ ↦ hforgotten) shown hshown
  · exact hinv

/-! ### Beside the program -/

omit hreact in
theorem preserves_acceptance (instruction : String) (outcome : Except Fault Unit) :
    Preserves inv (acceptance instruction outcome) := by
  rcases outcome with fault | _
  · exact (hupheld.preserves_log _ _ _).bind fun _ ↦ Keeps.pure false
  · exact Keeps.pure true

theorem preserves_inject (instruction : String) : Preserves inv (inject audience instruction) := by
  rw [inject_eq]
  refine preserves_requireRun_bind _ fun position ↦
    (hupheld.preserves_execute hreact position instruction).attempt.bind fun outcome ↦ ?_
  exact (hupheld.preserves_acceptance instruction outcome).bind fun accepted ↦
    (hupheld.preserves_tell hreact _).bind fun _ ↦ Keeps.pure accepted

omit hreact in
theorem preserves_feed (content : String) : Preserves inv (feed content) := by
  apply Keeps.get_bind
  intro runner hinv
  split
  · exact hinv
  · exact hupheld.preserves_changeSupply _ _ runner hinv

omit hreact in
theorem preserves_readInput : Preserves inv readInput := by
  apply Keeps.get_bind
  intro runner hinv
  split
  · exact hinv
  · refine ((preserves_runAt _).bind fun run ↦ ?_) runner hinv
    split
    · exact Preserves.fail _
    · exact (hupheld.preserves_changeSupply _ _).bind fun byte ↦ Keeps.pure _

/-! ### Orders -/

/-- Every steady order keeps what is upheld. -/
theorem preserves_obey_of_steady {order : Order} (hsteady : order.Steady) :
    Preserves inv (obey audience order) := by
  have hanswer {Result : Type} {activity : Action Result} (hpreserves : Preserves inv activity)
      (reply : Result → Reply) : Preserves inv (do return reply (← activity)) :=
    hpreserves.bind fun result ↦ Keeps.pure (reply result)
  have hidle (runner : Runner) (hinv : inv runner) : inv (runner.withSpeed Speed.idle) :=
    hupheld.session _ hinv (.inr rfl)
  cases order with
  | stop => exact hanswer (hupheld.preserves_stop hreact) fun _ ↦ .nothing
  | step => exact hanswer (hupheld.preserves_step hreact) fun _ ↦ .nothing
  | runBlocking => exact hanswer (hupheld.preserves_runBlocking hreact) fun _ ↦ .nothing
  | pause => exact hanswer (hupheld.preserves_setSpeed hreact hidle) fun _ ↦ .nothing
  | shutdown =>
    exact hanswer ((hupheld.preserves_stop hreact).bind fun _ ↦ hupheld.preserves_detach)
      fun _ ↦ .nothing
  | setSpeed speed =>
    obtain rfl : speed = Speed.idle := hsteady
    exact hanswer (hupheld.preserves_setSpeed hreact hidle) fun _ ↦ .nothing
  | inject instruction => exact hanswer (hupheld.preserves_inject hreact instruction) .accepted
  | feed content => exact hanswer (hupheld.preserves_feed content) fun _ ↦ .nothing
  | readInput => exact hanswer hupheld.preserves_readInput .byte
  | fire rounds => exact hanswer (keeps_fire (hupheld.preserves_step hreact) rounds) .calls
  | callTimer index =>
    exact (preserves_timerAt_upheld index).bind fun position ↦
      hanswer (hupheld.preserves_callTimer hreact position) fun _ ↦ .nothing
  | cancelTimer index =>
    exact (preserves_timerAt_upheld index).bind fun position ↦
      hanswer (hupheld.preserves_cancel position) fun _ ↦ .nothing
  | rearm => exact hanswer (hupheld.preserves_rearm hreact) fun _ ↦ .nothing
  | setClock numerator denominator =>
    refine Keeps.bind ?_ fun _ ↦ Keeps.pure _
    unfold setClock
    split
    · exact hupheld.preserves_modifyBench _
    · exact Preserves.fail _
  | pokeSpeed speed =>
    obtain rfl : speed = Speed.idle := hsteady
    exact hanswer (Keeps.modify hidle) fun _ ↦ .nothing
  | pokeActive active =>
    have hpoked : Preserves inv (modifySession ({ · with active })) :=
      hupheld.preserves_modifySession fun _ ↦ .inl rfl
    exact hanswer hpoked fun _ ↦ .nothing
  | setMemory size => exact hanswer (hupheld.preserves_modifyBench _) fun _ ↦ .nothing
  | setScript faults crashes rejects =>
    exact hanswer (hupheld.preserves_modifyBench _) fun _ ↦ .nothing
  | clearOutput =>
    exact hanswer (Keeps.modify fun runner hinv ↦
      hupheld.surroundings runner.supplied .empty runner.bench hinv) fun _ ↦ .nothing
  | raise message => exact Preserves.fail _
  | look => exact Keeps.get_bind fun _ hinv ↦ hinv
  | _ => exact hsteady.elim

end Upheld

namespace UpheldThroughout

variable (hupheld : UpheldThroughout inv)
variable (hreact : ∀ position, Preserves inv (audience.react position))
include hupheld

theorem preserves_modifyContext {base : Runner} {context : Fields} (hbase : inv base)
    (hbinds : Rebinds base.journal.context context) :
    Preserves inv (modifyContext fun _ ↦ context) :=
  Keeps.modify fun _ hinv ↦ hupheld.context context hinv hbase hbinds

include hreact

theorem preserves_changeSpeed (speed : Int) : Preserves inv (setSpeed audience speed) :=
  hupheld.preserves_setSpeed hreact fun _ hinv ↦ hupheld.anySession _ hinv

theorem preserves_start (program : String) (options : StartOptions) :
    Preserves inv (start audience program options) := by
  apply Keeps.get_bind
  intro runner hinv
  cases hbuild : runner.bench.build program with
  | error error => exact hinv
  | ok run =>
    have hpushed := hupheld.pushed hinv (Run.sound_of_build hbuild)
    rw [Yields, ends_bind, ends_set]
    refine Yields.bind (hupheld.yields_disarm (hupheld.surroundings (some runner.runs.size)
      runner.output runner.bench (hupheld.anySession _ hpushed))) ?_
    rintro _ middle ⟨hmiddle, -, hruns⟩
    have hinside : runner.runs.size < middle.runs.size := by
      rw [hruns, Array.size_push]
      exact Nat.lt_succ_self _
    have hattached := hupheld.attachedTo runner.runs.size hmiddle hinside
    rw [Yields, ends_bind, ends_modify]
    exact ((hupheld.preserves_log _ _ _).bind fun _ ↦ (hupheld.preserves_tell hreact .started).bind
      fun _ ↦ hupheld.preserves_rearm hreact) _
        (hupheld.context _ hattached hattached (.inr (.inr ⟨_, rfl⟩)))

/-- A timer may call on its own thread, whatever becomes of its call. -/
theorem preserves_callAside (index : Nat) : Preserves inv (callAside audience index) := by
  apply Keeps.get_bind
  intro runner hinv
  have hrestored := hupheld.preserves_modifyContext hinv (.inr (.inl rfl))
  refine ((hupheld.preserves_modifyContext hinv (.inl rfl)).bind fun _ ↦
    (hupheld.preserves_callTimer hreact index).survives.bind fun survived ↦ ?_) runner hinv
  split
  · refine (hupheld.preserves_cancel index).bind fun _ ↦ Keeps.get_bind fun after hafter ↦ ?_
    split
    · exact ((hupheld.preserves_log _ _ _).bind fun _ ↦ hrestored) after hafter
    · exact hrestored after hafter
  · exact hrestored

theorem preserves_drainWithin (bound : Nat) : Preserves inv (drainWithin audience bound) := by
  induction bound with
  | zero => exact fun _ hinv ↦ hinv
  | succ bound ih =>
    apply Keeps.get_bind
    intro runner hinv
    split
    · exact hinv
    · exact ((hupheld.preserves_callAside hreact _).bind fun _ ↦ ih) runner hinv

/-- Every order keeps what is upheld throughout. -/
theorem preserves_obey (order : Order) : Preserves inv (obey audience order) := by
  have hanswer {activity : Action Unit} (hpreserves : Preserves inv activity) :
      Preserves inv (do activity; return Reply.nothing) :=
    hpreserves.bind fun _ ↦ Keeps.pure _
  cases order with
  | start program options => exact hanswer (hupheld.preserves_start hreact program options)
  | faster =>
    exact hanswer (Keeps.get_bind fun runner ↦ hupheld.preserves_changeSpeed hreact _ runner)
  | slower =>
    refine hanswer (Keeps.get_bind fun runner hinv ↦ ?_)
    simp only
    split
    · exact hupheld.preserves_changeSpeed hreact _ runner hinv
    · exact hinv
  | superSpeed => exact hanswer (hupheld.preserves_changeSpeed hreact _)
  | setSpeed speed => exact hanswer (hupheld.preserves_changeSpeed hreact speed)
  | pokeSpeed speed => exact hanswer (Keeps.modify fun _ hinv ↦ hupheld.anySession _ hinv)
  | drain speed =>
    exact (hupheld.preserves_changeSpeed hreact speed).bind fun _ ↦
      (hupheld.preserves_drainWithin hreact _).bind fun _ ↦ Keeps.pure _
  | _ => exact hupheld.preserves_obey_of_steady hreact trivial

end UpheldThroughout

end Runner

end TapeRunner
