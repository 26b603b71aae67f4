import TapeRunner.Proofs.Session.Reachable

/-!
# What leaves the count of steps alone

Everything that an operation does, apart from steps of an engine, starts and blocking runs, leaves
the count of steps and the counters of the engines alone. An invariant that no other part of an
operation can break (`Runner.Sustained`) is kept by every operation that is made of such parts, in
whatever way it ends: by whatever is told or written, by stops, by instructions beside the program,
and by changes of speed as far as rearming keeps it (`Runner.Sustained.preserves_setSpeed`).
-/

set_option autoImplicit false
set_option relaxedAutoImplicit false

namespace TapeRunner

open Activity

/-! ### Straight runs -/

/-- A program without loops. -/
def Loopless (program : String) : Prop := ∀ character ∈ program.toList, ¬ IsBracket character

instance (program : String) : Decidable (Loopless program) :=
  List.decidableBAll _ program.toList

/-- An order that starts no program with loops. -/
def Order.Loopless : Order → Prop
  | .start program _ => TapeRunner.Loopless program
  | _ => True

/-- A run on an engine of a kind whose steps move the counter on by one: on a scripted engine, or on
a tape with a program without loops. -/
def Run.Straight (kind : EngineKind) (run : Run) : Prop :=
  match kind, run.engine with
  | .scripted, .scripted _ => True
  | .tape, .tape machine => ∀ character ∈ machine.code.toList, ¬ IsBracket character
  | _, _ => False

namespace Run

variable {kind : EngineKind} {run : Run} {effect : Effect} {script : Script}

@[simp] theorem counter_resumeAt (run : Run) (counter : Nat) :
    (run.resumeAt counter).counter = counter := by
  cases hengine : run.engine <;> simp only [resumeAt, Run.counter, hengine]

theorem Straight.resumeAt (hstraight : run.Straight kind) (counter : Nat) :
    (run.resumeAt counter).Straight kind := by
  cases kind <;> cases hengine : run.engine <;> simp_all [Straight, Run.resumeAt]

/-- An effect does not move the counter. -/
theorem Touches.counter_settle (htouches : run.Touches effect) :
    (run.settle effect).counter = run.counter := by
  obtain ⟨machine, htape, htouches⟩ := htouches
  simp only [counter, Run.settle, htape, htouches.counter_eq]

theorem Straight.settle (hstraight : run.Straight kind) (htouches : run.Touches effect) :
    (run.settle effect).Straight kind := by
  obtain ⟨machine, htape, htouches⟩ := htouches
  cases kind <;> simp_all [Straight, Run.settle, htouches.code_eq]

/-- A step of a machine in a program without loops is refused, or moves the counter on by one. -/
theorem advance_of_loopless {machine : Machine} {offered : Option Int} {counter : Nat}
    (hloopless : ∀ character ∈ machine.code.toList, ¬ IsBracket character)
    (hdone : machine.advance offered = .ok (effect, counter)) :
    counter = machine.counter + 1 ∧ machine.Touches effect := by
  by_cases hinside : machine.counter < machine.code.size
  · have hplain := hloopless _ (Array.mem_toList_iff.mpr (Array.getElem_mem hinside))
    rw [machine.advance_of_found offered (Array.getElem?_eq_getElem hinside)] at hdone
    cases hsymbol : Symbol.ofChar machine.code[machine.counter] with
    | command command =>
      simp only [hsymbol] at hdone
      rcases machine.perform_cases offered command with
        ⟨fault, hfault⟩ | ⟨found, hfound, htouches⟩ | ⟨-, hbroken⟩
      · simp [hfault, Except.map] at hdone
      · simp only [hfound, Except.map, Except.ok.injEq, Prod.mk.injEq] at hdone
        obtain ⟨rfl, rfl⟩ := hdone
        exact ⟨rfl, htouches⟩
      · simp [hbroken, Except.map] at hdone
    | loopStart => exact absurd (isBracket_of_symbol (.inl hsymbol)) hplain
    | loopEnd => exact absurd (isBracket_of_symbol (.inr hsymbol)) hplain
    | comment =>
      simp only [hsymbol, Except.ok.injEq, Prod.mk.injEq] at hdone
      obtain ⟨rfl, rfl⟩ := hdone
      exact ⟨rfl, .quietly machine⟩
  · rw [Machine.advance, dif_neg hinside] at hdone
    cases hdone

/-- The turn of a straight run is an error, or moves the counter on by one. Only a tape has an
effect. -/
theorem Straight.turn (hstraight : run.Straight kind) {effect? : Option Effect} {counter : Nat}
    (hturn : run.turn script = .ok (effect?, counter)) : counter = run.counter + 1 ∧
      ∀ effect ∈ effect?, kind = .tape ∧ run.Touches effect := by
  cases hengine : run.engine with
  | tape machine =>
    obtain rfl : kind = .tape := by
      cases kind with
      | tape => rfl
      | scripted => simp [Straight, hengine] at hstraight
    simp only [Straight, hengine] at hstraight
    simp only [Run.turn, hengine] at hturn
    cases hdone : machine.advance run.supply.offer with
    | error stop => simp [hdone] at hturn
    | ok done =>
      simp only [hdone, Except.ok.injEq, Prod.mk.injEq] at hturn
      obtain ⟨rfl, rfl⟩ := hturn
      obtain ⟨hcounter, htouches⟩ := advance_of_loopless hstraight hdone
      refine ⟨by simpa only [Run.counter, hengine] using hcounter, ?_⟩
      rintro _ ⟨⟩
      exact ⟨rfl, machine, hengine, htouches⟩
  | scripted old =>
    simp only [Run.turn, hengine] at hturn
    split at hturn
    · cases hturn
    · obtain ⟨rfl, rfl⟩ : none = effect? ∧ old + 1 = counter := by simpa using hturn
      exact ⟨by simp only [Run.counter, hengine], fun effect hnone ↦
        absurd hnone (Option.not_mem_none effect)⟩

/-- A run that is built is straight if its program has no loops, which is no matter to a script, and
stands at its start. -/
theorem straight_of_build {bench : Bench} {program : String}
    (hprogram : bench.kind = .tape → Loopless program) (hbuild : bench.build program = .ok run) :
    run.Straight bench.kind ∧ run.counter = 0 := by
  unfold Bench.build at hbuild
  cases hkind : bench.kind with
  | scripted =>
    simp only [hkind, Except.ok.injEq] at hbuild
    subst hbuild
    exact ⟨trivial, rfl⟩
  | tape =>
    simp only [hkind] at hbuild
    split at hbuild
    · cases hbuild
    · cases hbuild
      exact ⟨hprogram hkind, rfl⟩

end Run

/-- An order that makes no step, starts no session and does not rearm. -/
def Order.Still : Order → Prop
  | .stop | .shutdown | .inject _ | .feed _ | .readInput | .cancelTimer _ | .setClock _ _
  | .pokeActive _ | .setMemory _ | .setScript _ _ _ | .clearOutput | .raise _ | .look => True
  | .pokeSpeed speed => 0 ≤ speed
  | _ => False

/-! ### Invariants that are not about steps -/

namespace Runner

/-- An invariant that no part of an operation can break but steps of an engine, starts and blocking
runs. The session may change as long as its count of steps stays and its speed is the one it was or
not a blocking one, and a run as long as its counter stays and it is as straight as it was. -/
structure Sustained (inv : Runner → Prop) : Prop where
  lines {runner : Runner} (lines : Array Line) : inv runner → inv (runner.withLines lines)
  told {shown runner : Runner} (kind : EventKind) : inv shown → inv runner →
    inv (runner.withEvent (shown.eventOf kind))
  called {runner : Runner} (hookCalls : Array Nat) : inv runner → inv { runner with hookCalls }
  session {runner : Runner} (session : Session) : inv runner →
    session.steps = runner.session.steps →
      session.speed = runner.session.speed ∨ 0 ≤ session.speed → inv { runner with session }
  surroundings {runner : Runner} (supplied : Option Nat) (output : Output) (bench : Bench) :
    inv runner → bench.kind = runner.bench.kind → inv { runner with supplied, output, bench }
  context {runner : Runner} (context : Fields) : inv runner → context.Plain →
    inv (runner.withContext context)
  changeRun {runner : Runner} (position : Nat) (change : Run → Run) : inv runner →
    (∀ run, runner.runs[position]? = some run → (change run).counter = run.counter ∧
      ∀ kind, run.Straight kind → (change run).Straight kind) →
        inv (runner.changeRun position change)
  timers {runner : Runner} (timers : Array (Timer Nat)) (current : Option Nat) (generation : Nat) :
    inv runner → inv { runner with timers, current, generation }
  detached {runner : Runner} : inv runner → inv { runner with attached := none }

namespace Sustained

variable {inv other : Runner → Prop} {audience : Audience} {runner : Runner}

theorem and (hinv : Sustained inv) (hother : Sustained other) :
    Sustained fun runner ↦ inv runner ∧ other runner where
  lines lines h := ⟨hinv.lines lines h.1, hother.lines lines h.2⟩
  told kind hshown h := ⟨hinv.told kind hshown.1 h.1, hother.told kind hshown.2 h.2⟩
  called hookCalls h := ⟨hinv.called hookCalls h.1, hother.called hookCalls h.2⟩
  session session h hsteps hspeed :=
    ⟨hinv.session session h.1 hsteps hspeed, hother.session session h.2 hsteps hspeed⟩
  surroundings supplied output bench h hkind :=
    ⟨hinv.surroundings supplied output bench h.1 hkind,
      hother.surroundings supplied output bench h.2 hkind⟩
  context context h hplain := ⟨hinv.context context h.1 hplain, hother.context context h.2 hplain⟩
  changeRun position change h hchange :=
    ⟨hinv.changeRun position change h.1 hchange, hother.changeRun position change h.2 hchange⟩
  timers timers current generation h :=
    ⟨hinv.timers timers current generation h.1, hother.timers timers current generation h.2⟩
  detached h := ⟨hinv.detached h.1, hother.detached h.2⟩

variable (hsustained : Sustained inv)
include hsustained

/-! ### Parts without observers -/

theorem preserves_log (level : Level) (event : String) (fields : Fields) :
    Preserves inv (log level event fields) :=
  keeps_log level event (fun _ hinv ↦ writes_of_refusal fun _ _ ↦ hinv)
    fun _ lines hinv ↦ hsustained.lines lines hinv

theorem preserves_modifySession {change : Session → Session}
    (hsteps : ∀ session, (change session).steps = session.steps)
    (hspeed : ∀ session, (change session).speed = session.speed ∨ 0 ≤ (change session).speed) :
    Preserves inv (modifySession change) :=
  Keeps.modify fun _ hinv ↦ hsustained.session _ hinv (hsteps _) (hspeed _)

theorem preserves_modifyBench {change : Bench → Bench}
    (hkind : ∀ bench, (change bench).kind = bench.kind) : Preserves inv (modifyBench change) :=
  Keeps.modify fun runner hinv ↦ hsustained.surroundings runner.supplied runner.output
    (change runner.bench) hinv (hkind _)

theorem preserves_changeSupply (position : Nat) (supplyOf : Run → Supply) :
    Preserves inv (modifyRun position fun run ↦ { run with supply := supplyOf run }) :=
  Keeps.modify fun _ hinv ↦ hsustained.changeRun position _ hinv fun _ _ ↦ ⟨rfl, fun _ h ↦ h⟩

theorem preserves_cancel (index : Nat) : Preserves inv
    (modify fun runner ↦ { runner with timers := Timer.cancel runner.timers index }) :=
  Keeps.modify fun _ hinv ↦ hsustained.timers _ _ _ hinv

theorem preserves_modifyContext {context : Fields} (hplain : context.Plain) :
    Preserves inv (modifyContext fun _ ↦ context) :=
  Keeps.modify fun _ hinv ↦ hsustained.context context hinv hplain

theorem preserves_disarm : Preserves inv disarm := by
  intro runner hinv
  refine Yields.mono (yields_disarm fun generation timers ↦ ?_) ?_
  · exact writes_of_refusal fun _ _ ↦ hsustained.timers timers none generation hinv
  · rintro _ _ ⟨generation, timers, lines, rfl⟩
    exact hsustained.lines lines (hsustained.timers timers none generation hinv)

theorem preserves_detach : Preserves inv detach :=
  hsustained.preserves_disarm.bind fun _ ↦ Keeps.modify fun _ hinv ↦ hsustained.detached hinv

theorem preserves_arm (speed : Int) (cadence : Float) : Preserves inv (arm speed cadence) := by
  apply Keeps.get_bind
  intro runner hinv
  cases hevery : Timer.every runner.timers (Speed.interval cadence) runner.generation with
  | error error =>
    simp only [hevery]
    exact hinv
  | ok timers =>
    simp only [hevery]
    rw [Yields, ends_bind, ends_set]
    exact hsustained.preserves_log _ _ _ _ (hsustained.timers timers _ runner.generation hinv)

theorem preserves_acceptance (instruction : String) (outcome : Except Fault Unit) :
    Preserves inv (acceptance instruction outcome) := by
  rcases outcome with fault | _
  · exact (hsustained.preserves_log _ _ _).bind fun _ ↦ Keeps.pure false
  · exact Keeps.pure true

theorem preserves_feed (content : String) : Preserves inv (feed content) := by
  apply Keeps.get_bind
  intro runner hinv
  split
  · exact hinv
  · exact hsustained.preserves_changeSupply _ _ runner hinv

theorem preserves_readInput : Preserves inv readInput := by
  apply Keeps.get_bind
  intro runner hinv
  split
  · exact hinv
  · refine ((preserves_runAt _).bind fun run ↦ ?_) runner hinv
    split
    · exact Preserves.fail _
    · exact (hsustained.preserves_changeSupply _ _).bind fun byte ↦ Keeps.pure _

/-! ### Parts that observers hear of -/

variable (hreact : ∀ position, Preserves inv (audience.react position))
include hreact

theorem preserves_tell (kind : EventKind) : Preserves inv (tell audience kind) := by
  refine keeps_tell kind (fun _ hinv ↦ writes_of_refusal fun _ _ ↦ hinv) ?_ ?_ ?_ hreact
  · exact fun _ lines hinv ↦ hsustained.lines lines hinv
  · exact fun _ hinv ↦ hsustained.session _ hinv rfl (.inl rfl)
  · exact fun _ _ hshown hlater ↦ hsustained.told kind hshown hlater

theorem preserves_conclude (outcome : Except Fault Unit) :
    Preserves inv (conclude audience outcome) := by
  intro runner hinv
  have hreport (status : Status) (event : String) (fields : Fields) (kind : EventKind) :
      Yields (fun _ ↦ inv) (do log .info event fields; tell audience kind)
        (runner.idledWith status) fun _ ↦ inv :=
    (hsustained.preserves_log _ _ _).bind (fun _ ↦ hsustained.preserves_tell hreact _) _
      (hsustained.session _ hinv rfl (.inr (Int.le_refl 0)))
  rcases outcome with fault | _
  · exact (ends_reportFault fault).mpr (hreport _ _ _ _)
  · exact ends_reportEnd.mpr (hreport _ _ _ _)

/-- An effect of a run is settled before the observers of the output. -/
theorem yields_settleAny {position : Nat} {run : Run} {effect? : Option Effect} (hinv : inv runner)
    (hrun : runner.runs[position]? = some run) (htouches : ∀ effect ∈ effect?, run.Touches effect) :
    Yields (fun _ ↦ inv) (settleAny audience position effect?) runner fun _ ↦ inv := by
  refine Runner.yields_settleAny (fun _ ↦ hinv) (fun effect heffect ↦ ?_) fun sink _ ↦ hreact sink
  have hchanged : inv (runner.changeRun position (·.settle effect)) := by
    refine hsustained.changeRun position _ hinv fun found hfound ↦ ?_
    obtain rfl := Option.some.inj (hrun.symm.trans hfound)
    exact ⟨(htouches effect heffect).counter_settle, fun _ h ↦ h.settle (htouches effect heffect)⟩
  exact hsustained.surroundings _ _ _ hchanged rfl

theorem preserves_execute (position : Nat) (instruction : String) :
    Preserves inv (execute audience position instruction) := by
  intro runner hinv
  cases hrun : runner.runs[position]? with
  | none =>
    rw [Yields, execute, ends_bind, ends_runAt_iff, hrun]
    exact hinv
  | some run =>
    refine (ends_execute hrun).mpr ?_
    cases haside : run.aside runner.bench.script instruction with
    | error error => exact hinv
    | ok effect? =>
      refine hsustained.yields_settleAny hreact hinv hrun fun effect heffect ↦ ?_
      rw [Option.mem_def.mp heffect] at haside
      exact Run.touches_of_aside haside

theorem preserves_inject (instruction : String) : Preserves inv (inject audience instruction) := by
  rw [inject_eq]
  refine preserves_requireRun_bind _ fun position ↦
    (hsustained.preserves_execute hreact position instruction).attempt.bind fun outcome ↦ ?_
  exact (hsustained.preserves_acceptance instruction outcome).bind fun accepted ↦
    (hsustained.preserves_tell hreact _).bind fun _ ↦ Keeps.pure accepted

theorem preserves_stop : Preserves inv (stop audience) := by
  apply Keeps.get_bind
  intro runner hinv
  split
  · have hclosed : Preserves inv (modifySession ({ · with active := false, status := none })) :=
      hsustained.preserves_modifySession (fun _ ↦ rfl) fun _ ↦ .inl rfl
    have hfreed : Preserves inv (modify ({ · with supplied := none })) :=
      Keeps.modify fun runner hinv ↦
        hsustained.surroundings none runner.output runner.bench hinv rfl
    have hforgotten : Preserves inv
        (modify fun runner : Runner ↦ { runner with journal := runner.journal.clear }) :=
      Keeps.modify fun _ hinv ↦ hsustained.context [] hinv Fields.plain_nil
    refine (hclosed.bind fun _ ↦
      hsustained.preserves_detach.bind fun _ ↦ hfreed.bind fun _ ↦ ?_) runner hinv
    exact Keeps.get_bind fun shown hshown ↦ ((hsustained.preserves_log _ _ _).bind fun _ ↦
      (hsustained.preserves_tell hreact .stopped).bind fun _ ↦ hforgotten) shown hshown
  · exact hinv

theorem preserves_shutdown : Preserves inv (shutdown audience) :=
  (hsustained.preserves_stop hreact).bind fun _ ↦ hsustained.preserves_detach

/-- A change of speed is told, and leads where rearming leads. -/
theorem yields_setSpeed {speed : Int} (hsame : speed = runner.session.speed → inv runner)
    (hchanged : inv (runner.withSpeed speed))
    (hrearm : ∀ last, inv last → Yields (fun _ ↦ inv) (rearm audience) last fun _ ↦ inv) :
    Yields (fun _ ↦ inv) (setSpeed audience speed) runner fun _ ↦ inv := by
  by_cases hother : speed = runner.session.speed
  · have hunchanged := hsame hother
    rw [Yields, setSpeed_eq, ends_bind, ends_get]
    simp only [hother, ne_eq, not_true_eq_false, if_false]
    exact hunchanged
  · refine (ends_setSpeed_of_other hother).mpr ?_
    have htell : Preserves inv (tellChange audience runner.session.speed) := by
      apply Keeps.get_bind
      intro shown hshown
      split
      · exact hsustained.preserves_tell hreact _ shown hshown
      · exact hshown
    exact ((hsustained.preserves_log _ _ _).bind fun _ ↦ htell.bind fun _ ↦ hrearm) _ hchanged

/-! ### Orders -/

/-- Every order that is still keeps what is sustained. -/
theorem preserves_obey_of_still {order : Order} (hstill : order.Still) :
    Preserves inv (obey audience order) := by
  have hanswer {Result : Type} {activity : Action Result} (hpreserves : Preserves inv activity)
      (reply : Result → Reply) : Preserves inv (do return reply (← activity)) :=
    hpreserves.bind fun result ↦ Keeps.pure (reply result)
  cases order with
  | stop => exact hanswer (hsustained.preserves_stop hreact) fun _ ↦ .nothing
  | shutdown => exact hanswer (hsustained.preserves_shutdown hreact) fun _ ↦ .nothing
  | inject instruction => exact hanswer (hsustained.preserves_inject hreact instruction) .accepted
  | feed content => exact hanswer (hsustained.preserves_feed content) fun _ ↦ .nothing
  | readInput => exact hanswer hsustained.preserves_readInput .byte
  | cancelTimer index =>
    exact (preserves_timerAt_upheld index).bind fun position ↦
      hanswer (hsustained.preserves_cancel position) fun _ ↦ .nothing
  | setClock numerator denominator =>
    refine Keeps.bind ?_ fun _ ↦ Keeps.pure _
    unfold setClock
    split
    · exact hsustained.preserves_modifyBench fun _ ↦ rfl
    · exact Preserves.fail _
  | pokeSpeed speed =>
    have hpoked : Preserves inv (modifySession ({ · with speed })) :=
      hsustained.preserves_modifySession (fun _ ↦ rfl) fun _ ↦ .inr hstill
    exact hanswer hpoked fun _ ↦ .nothing
  | pokeActive active =>
    have hpoked : Preserves inv (modifySession ({ · with active })) :=
      hsustained.preserves_modifySession (fun _ ↦ rfl) fun _ ↦ .inl rfl
    exact hanswer hpoked fun _ ↦ .nothing
  | setMemory size =>
    refine hanswer (hsustained.preserves_modifyBench ?_) fun _ ↦ .nothing
    exact fun _ ↦ rfl
  | setScript faults crashes rejects =>
    refine hanswer (hsustained.preserves_modifyBench ?_) fun _ ↦ .nothing
    exact fun _ ↦ rfl
  | clearOutput =>
    exact hanswer (Keeps.modify fun runner hinv ↦
      hsustained.surroundings runner.supplied .empty runner.bench hinv rfl) fun _ ↦ .nothing
  | raise message => exact Preserves.fail _
  | look => exact Keeps.get_bind fun _ hinv ↦ hinv
  | _ => exact hstill.elim

end Sustained

end Runner

end TapeRunner
