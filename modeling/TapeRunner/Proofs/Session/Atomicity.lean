import TapeRunner.Proofs.Lockstep
import TapeRunner.Proofs.Session.Generations
import TapeRunner.Proofs.Session.Retuning

/-!
# Faults leave no trace

A step of a run and an instruction beside it decide on their fault before they do anything, and the
observers of the output, who are called in between, come after that decision. So unless one of them
raises a fault of its own, whatever ends in a fault has changed nothing, and ends in the same fault
if it is tried again (`Runner.atomic_advance`, `Runner.atomic_execute`). The loop of a blocking run,
which does not undo anything either, ends in a fault where one of its steps does, as that step has
found it (`Runner.Upheld.refuses_of_blockingSteps`).

A session absorbs the fault: what is left of the operation is to report it
(`Runner.Refuses.ends_step`, `Runner.ends_blockingRun_of_fault`). Before handlers that only listen,
the session is then idle with the fault for its status, and apart from that the same one with the
same engine (`Runner.faults_atomic`).
-/

set_option autoImplicit false
set_option relaxedAutoImplicit false

namespace TapeRunner

open Activity

/-! ### Whoever raises no fault -/

/-- The fault in which something has ended, if it has. -/
def faultOf? {Result : Type} : Except Halt Result → Option Fault
  | .error (.raised (.fault fault)) => some fault
  | _ => none

theorem eq_error_of_faultOf? {Result : Type} {outcome : Except Halt Result} {fault : Fault}
    (hfault : faultOf? outcome = some fault) : outcome = .error (.raised (.fault fault)) := by
  unfold faultOf? at hfault
  split at hfault
  · rw [Option.some.inj hfault]
  · cases hfault

/-- From no state does an activity end in a fault. -/
abbrev Runner.Faultless {Result : Type} (activity : Action Result) : Prop :=
  Keeps (fun _ ↦ True) Runner.unfaulted activity

/-- An observer that raises no fault of its own. -/
def Conduct.Faultless : Conduct → Prop
  | .rest => True
  | .raise error => ∀ fault, error ≠ .fault fault
  | .give _ next => ∀ outcome runner, (next outcome runner).Faultless

/-- Whoever only passes on the refusal of a line raises no fault. -/
theorem Conduct.faultless_inTurn (orders : List Order) : (inTurn orders).Faultless := by
  induction orders with
  | nil => trivial
  | cons order later ih =>
    intro outcome runner
    rcases outcome with error | _
    · by_cases hrefusal : error.isRefusal = true
      · simp only [if_pos hrefusal]
        rintro fault rfl
        exact absurd hrefusal Bool.false_ne_true
      · simp only [if_neg hrefusal]
        exact ih
    · exact ih

namespace Runner

variable {audience : Audience} {runner last middle : Runner} {position : Nat} {fault : Fault}
variable {instruction : String}

/-- The orders of an observer may end in faults, but these are its own business. -/
theorem faultless_perform {conduct : Conduct} (hfaultless : conduct.Faultless) :
    Faultless (conduct.perform audience) := by
  induction conduct with
  | rest => exact Keeps.pure ()
  | raise error =>
    rintro runner - fault ⟨⟩
    exact hfaultless fault rfl
  | give order next ih =>
    have hcaught : Faultless (caught (obey audience order)) := by
      intro runner _
      refine ends_caught.mpr (Ends.mono (yields_true _ _) fun outcome last _ ↦ ?_)
      rcases outcome with halt | reply
      · rcases halt with error | _
        · trivial
        · exact unfaulted_unfinished last
      · trivial
    exact hcaught.bind fun outcome ↦ Keeps.get_bind fun runner hrunner ↦
      ih outcome runner (hfaultless outcome runner) runner hrunner

/-- An observer that raises no fault of its own ends in none when it is called. -/
theorem faultless_conducted {conduct : Nat → Runner → Conduct}
    (hfaultless : ∀ runner, (conduct position runner).Faultless) (patience depth : Nat) :
    Faultless ((Audience.conducted conduct patience depth).react position) := by
  cases depth with
  | zero => exact fun runner _ ↦ unfaulted_unfinished runner
  | succ depth =>
    refine (Keeps.modify fun _ _ ↦ trivial).bind fun _ ↦ Keeps.get_bind fun runner hrunner ↦ ?_
    exact faultless_perform (hfaultless runner) runner hrunner

/-! ### The engine -/

/-- The run at a position refuses its next step for a fault. -/
def Refuses (runner : Runner) (position : Nat) (fault : Fault) : Prop :=
  ∃ run, runner.runs[position]? = some run ∧ run.turn runner.bench.script = .error (.fault fault)

/-- A step that is refused is a fault, and nothing else. -/
theorem Refuses.ends_advance (hrefuses : runner.Refuses position fault)
    {required : Except Halt Unit → Runner → Prop} :
    Ends (advance audience position) runner required ↔
      required (.error (.raised (.fault fault))) runner := by
  obtain ⟨run, hrun, hturn⟩ := hrefuses
  rw [Runner.ends_advance hrun]
  simp only [hturn]

theorem Refuses.runFrom_advance (hrefuses : runner.Refuses position fault) :
    runFrom (advance audience position) runner = (.error (.raised (.fault fault)), runner) := by
  have hends : Ends (advance audience position) runner fun outcome last ↦
      (outcome, last) = (.error (.raised (.fault fault)), runner) := hrefuses.ends_advance.mpr rfl
  exact hends

section Faultless

variable (hsinks : ∀ sink ∈ runner.sinks, Faultless (audience.react sink))
include hsinks

/-- To settle an effect is no fault, as it is one for nobody who watches the output. -/
theorem ends_settleAny_unfaulted (effect? : Option Effect) (fault : Fault) :
    Ends (settleAny audience position effect?) runner fun outcome _ ↦
      outcome ≠ .error (.raised (.fault fault)) := by
  have hsettled : Yields unfaulted (settleAny audience position effect?) runner fun _ _ ↦ True :=
    yields_settleAny (fun _ ↦ trivial) (fun _ _ ↦ trivial) hsinks
  refine Ends.mono hsettled fun outcome middle hmiddle ↦ ?_
  rcases outcome with halt | _
  · rintro ⟨⟩
    exact hmiddle fault rfl
  · rintro ⟨⟩

/-- A step that ends in a fault has been refused, and has changed nothing. -/
theorem refuses_of_advance (hended : runFrom (advance audience position) runner =
    (.error (.raised (.fault fault)), last)) : last = runner ∧ runner.Refuses position fault := by
  have hends : Ends (advance audience position) runner fun outcome last ↦
      outcome = .error (.raised (.fault fault)) →
        last = runner ∧ runner.Refuses position fault := by
    cases hrun : runner.runs[position]? with
    | none =>
      rw [advance, ends_bind, ends_runAt_iff, hrun]
      rintro ⟨⟩
    | some run =>
      rw [ends_advance hrun]
      cases hturn : run.turn runner.bench.script with
      | error error =>
        rintro ⟨⟩
        exact ⟨rfl, run, hrun, hturn⟩
      | ok turn =>
        refine Ends.mono (ends_settleAny_unfaulted hsinks turn.1 fault)
          fun outcome middle hother ↦ ?_
        rcases outcome with halt | _
        · exact fun hended ↦ absurd hended hother
        · rintro ⟨⟩
  exact hends.of_runFrom hended rfl

/-- An instruction beside the program that ends in a fault has changed nothing. -/
theorem eq_of_execute (hended : runFrom (execute audience position instruction) runner =
    (.error (.raised (.fault fault)), last)) : last = runner := by
  have hends : Ends (execute audience position instruction) runner fun outcome last ↦
      outcome = .error (.raised (.fault fault)) → last = runner := by
    cases hrun : runner.runs[position]? with
    | none =>
      rw [execute, ends_bind, ends_runAt_iff, hrun]
      rintro ⟨⟩
    | some run =>
      rw [ends_execute hrun]
      cases haside : run.aside runner.bench.script instruction with
      | error error => exact fun _ ↦ rfl
      | ok effect? =>
        exact Ends.mono (ends_settleAny_unfaulted hsinks effect? fault) fun _ _ hother hended ↦
          absurd hended hother
  exact hends.of_runFrom hended rfl

end Faultless

/-- If an activity ends in a fault, it has changed nothing, and ends in the same fault when it is
tried again. -/
def Atomic (activity : Action Unit) (runner : Runner) : Prop :=
  ∀ fault last, runFrom activity runner = (.error (.raised (.fault fault)), last) →
    last = runner ∧ runFrom activity last = (.error (.raised (.fault fault)), last)

theorem atomic_of_eq {activity : Action Unit} (hsame : ∀ fault last,
    runFrom activity runner = (.error (.raised (.fault fault)), last) → last = runner) :
    Atomic activity runner := by
  intro fault last hended
  obtain rfl := hsame fault last hended
  exact ⟨rfl, hended⟩

theorem atomic_advance (hsinks : ∀ sink ∈ runner.sinks, Faultless (audience.react sink)) :
    Atomic (advance audience position) runner :=
  atomic_of_eq fun _ _ hended ↦ (refuses_of_advance hsinks hended).1

theorem atomic_execute (hsinks : ∀ sink ∈ runner.sinks, Faultless (audience.react sink)) :
    Atomic (execute audience position instruction) runner :=
  atomic_of_eq fun _ _ hended ↦ eq_of_execute hsinks hended

/-! ### The loop of a blocking run -/

/-- The loop of a blocking run ends in a fault where one of its steps is refused, with everything as
that step has found it. The invariant says who watches the output meanwhile. -/
theorem Upheld.refuses_of_blockingSteps {inv : Runner → Prop} (hupheld : Upheld inv)
    (hreact : ∀ position, Preserves inv (audience.react position))
    (hfaultless : ∀ runner, inv runner → ∀ sink ∈ runner.sinks, Faultless (audience.react sink))
    {patience : Nat} (hinv : inv runner)
    (hended : runFrom (blockingSteps audience position patience) runner =
      (.error (.raised (.fault fault)), last)) :
    inv last ∧ last.session.speed = Speed.blocking ∧ last.Refuses position fault := by
  -- The invariant of the loop is `inv`. What is left open is a halt for anything but a fault.
  let halted (halt : Halt) (last : Runner) : Prop := ∀ fault, halt = .raised (.fault fault) →
    inv last ∧ last.session.speed = Speed.blocking ∧ last.Refuses position fault
  have hstep (runner : Runner) (hrunner : inv runner)
      (hspeed : runner.session.speed = Speed.blocking) :
      Yields halted (advance audience position) runner fun _ last ↦ inv last.stepCounted := by
    have hlast := (hupheld.preserves_advance hreact position runner hrunner).last
    have hrefuses (fault : Fault) (last : Runner) (hended : runFrom (advance audience position)
        runner = (.error (.raised (.fault fault)), last)) :=
      refuses_of_advance (hfaultless runner hrunner) hended
    unfold Yields Ends
    generalize runFrom (advance audience position) runner = ended at hlast hrefuses ⊢
    obtain ⟨halt | _, last⟩ := ended
    · rintro fault rfl
      obtain ⟨rfl, hfault⟩ := hrefuses fault last rfl
      exact ⟨hrunner, hspeed, hfault⟩
    · exact hupheld.session _ hlast (.inl rfl)
  have hloop : Yields halted (blockingSteps audience position patience) runner _ :=
    yields_blockingSteps (fun _ _ ↦ nofun) (fun _ _ _ ↦ nofun)
      (fun runner _ hrunner _ _ ↦ hstep runner hrunner) patience hinv
  exact Ends.of_runFrom hloop hended fault rfl

/-! ### What is left of an operation -/

/-- A step that is refused is a report of the fault, and goes on as a step does. -/
theorem Refuses.ends_step (hrefuses : runner.Refuses position fault)
    (hattached : runner.attached = some position) {required : Except Halt Unit → Runner → Prop} :
    Ends (step audience) runner required ↔ Ends (do
      reportFault audience fault
      tell audience .stepped
      againUnless runner.session.speed (rearm audience)) runner required := by
  have hwiped : runner.wiped.Refuses position fault := hrefuses
  rw [Runner.ends_step hattached, ends_bind, ends_attempt, hwiped.ends_advance]
  simp only [concludeStep]
  rw [ends_bind, ends_bind (reportFault audience fault), ends_reportFault, ends_reportFault]
  exact Iff.rfl

/-- A blocking run whose loop ends in a fault is, from there, a report of the fault. -/
theorem ends_blockingRun_of_fault {again : Action Unit} {logged : Runner}
    (hlog : runFrom (log .info "session.blocking_run" [runner.nameField]) runner = (.ok (), logged))
    (hloop : runFrom (blockingSteps audience position audience.patience) logged =
      (.error (.raised (.fault fault)), middle)) {required : Except Halt Unit → Runner → Prop} :
    Ends (blockingRun audience again position) runner required ↔ Ends (do
      reportFault audience fault
      againUnless runner.session.speed again) middle required := by
  rw [blockingRun_eq, ends_bind, ends_get]
  simp only
  rw [ends_bind, Ends, hlog]
  simp only
  rw [ends_bind, ends_attempt, Ends, hloop]
  exact Iff.rfl

/-! ### Absorption -/

/-- A fault has been absorbed: the session is idle with the fault for its status, events of these
kinds have been told, and apart from that it is the same session, with the same engine. -/
structure Absorbed (fault : Fault) (kinds : List EventKind) (runner last : Runner) : Prop where
  session_eq : last.session =
    { runner.session with
      speed := Speed.idle
      status := some (.failed fault)
      sequence := runner.session.sequence + kinds.length }
  message_eq : last.session.status.map Status.message = some fault.message
  attached_eq : last.attached = runner.attached
  supplied_eq : last.supplied = runner.supplied
  runs_eq : last.runs = runner.runs
  output_eq : last.output = runner.output
  recorded : ∃ events : Array Event, last.recorded = runner.recorded ++ events ∧
    events.toList.map Event.kind = kinds

/-- An operation ends regularly with a fault absorbed, unless there are too many steps for the line
about it. -/
def Absorbs (fault : Fault) (kinds : List EventKind) (runner : Runner)
    (ended : Except Halt Unit × Runner) : Prop :=
  (ended.1 = .ok () ∧ Absorbed fault kinds runner ended.2) ∨
    ∃ halt, ended.1 = .error halt ∧ halt.Overflows runner.session.steps

variable {kinds : List EventKind} {halted : Halt → Runner → Prop}

/-- What follows a report, before handlers that only listen, is told and heard. -/
theorem Attended.yields_heard (hattended : runner.Attended)
    (hpassive : audience.PassiveIn runner.bus) (kind : EventKind) :
    Yields halted (tell audience kind) runner fun _ ↦ runner.Heard [kind] := by
  refine Yields.mono (hattended.yields_told hpassive kind) ?_
  rintro _ _ ⟨hookCalls, lines, rfl⟩
  exact ⟨#[runner.counted.eventOf kind], hookCalls, lines, rfl, rfl⟩

/-- A fault is reported by a session that is idle already. -/
theorem Attended.yields_reportFault (hattended : runner.Attended)
    (hpassive : audience.PassiveIn runner.bus) (fault : Fault) :
    Yields (fun halt _ ↦ halt.Overflows runner.session.steps) (reportFault audience fault) runner
      fun _ ↦ (runner.idledWith (.failed fault)).Heard [.failed fault] := by
  have hconcluded : Yields (fun halt _ ↦ halt.Overflows runner.session.steps)
      (conclude audience (.error fault)) runner _ :=
    hattended.yields_concluded hpassive (.error fault) fun hlong error hrefusal ↦
      ⟨hlong, error, rfl, hrefusal⟩
  refine Yields.mono hconcluded ?_
  rintro _ _ ⟨hookCalls, lines, rfl⟩
  exact ⟨#[_], hookCalls, lines, rfl, rfl⟩

/-- An idle session is rearmed, if at all, by taking its timer away. -/
theorem Chronicled.yields_againUnless_of_idle (hchronicled : runner.Chronicled)
    (hidle : runner.session.speed = Speed.idle) (speed : Int) (bound : Nat) :
    Yields halted (againUnless speed (rearmWithin audience (bound + 1))) runner
      fun _ last ↦ last = runner ∨ ∃ lines, last = runner.cleared.withLines lines := by
  by_cases hsame : runner.session.speed = speed
  · exact (ends_againUnless_of_same hsame).mpr (.inl rfl)
  · refine (ends_againUnless_of_other hsame).mpr ?_
    exact Yields.mono (hchronicled.yields_rearm_of_idle hidle bound) fun _ _ ↦ .inr

/-- Once a fault has been told, it is absorbed by a session that is rearmed. -/
theorem Attended.yields_absorbed (hattended : runner.Attended)
    (hheard : (runner.idledWith (.failed fault)).Heard kinds middle) (speed : Int) (bound : Nat) :
    Yields halted (againUnless speed (rearmWithin audience (bound + 1))) middle
      fun _ ↦ Absorbed fault kinds runner := by
  obtain ⟨events, hookCalls, lines, hkinds, rfl⟩ := hheard
  refine Yields.mono (Chronicled.yields_againUnless_of_idle ?_ rfl speed bound) ?_
  · exact { hattended.toChronicled with }
  · rintro _ _ (rfl | ⟨lines, rfl⟩) <;>
      exact ⟨rfl, rfl, rfl, rfl, rfl, rfl, events, rfl, hkinds⟩

/-- To report a fault, and to tell something more, is to absorb the fault. -/
theorem Attended.yields_reportFault_absorbed (hattended : runner.Attended)
    (hpassive : audience.PassiveIn runner.bus) (fault : Fault) (speed : Int) (bound : Nat) :
    Yields (fun halt _ ↦ halt.Overflows runner.session.steps) (do
        reportFault audience fault
        againUnless speed (rearmWithin audience (bound + 1))) runner
      fun _ ↦ Absorbed fault [.failed fault] runner :=
  (hattended.yields_reportFault hpassive fault).bind fun _ _ hheard ↦
    hattended.yields_absorbed hheard speed bound

theorem Attended.yields_reportFault_stepped (hattended : runner.Attended)
    (hpassive : audience.PassiveIn runner.bus) (fault : Fault) (speed : Int) (bound : Nat) :
    Yields (fun halt _ ↦ halt.Overflows runner.session.steps) (do
        reportFault audience fault
        tell audience .stepped
        againUnless speed (rearmWithin audience (bound + 1))) runner
      fun _ ↦ Absorbed fault [.failed fault, .stepped] runner := by
  refine (hattended.yields_reportFault hpassive fault).bind fun _ reported hheard ↦ ?_
  have hidled : (runner.idledWith (.failed fault)).Attended := { hattended with }
  have hsame : reported.bus = runner.bus := by
    obtain ⟨_, _, _, _, rfl⟩ := hheard
    rfl
  refine ((hidled.of_heard hheard).yields_heard (hsame ▸ hpassive) .stepped).bind fun _ _ htold ↦ ?_
  exact hattended.yields_absorbed (hheard.trans htold) speed bound

theorem absorbs_of_yields {activity : Action Unit} {base : Runner}
    (hyields : Yields (fun halt _ ↦ halt.Overflows base.session.steps) activity runner
      fun _ ↦ Absorbed fault kinds base) :
    Absorbs fault kinds base (runFrom activity runner) :=
  hyields.ended.imp (fun ⟨_, hanswer, habsorbed⟩ ↦ ⟨hanswer, habsorbed⟩) id

/-! ### Sessions -/

/-- A step that is refused for a fault is a report of it. So is a tick, which is a step, and before
handlers that only listen it absorbs the fault. -/
structure StepAbsorbs (audience : Audience) (fault : Fault) (runner : Runner) : Prop where
  report : runFrom (step audience) runner = runFrom (do
    reportFault audience fault
    tell audience .stepped
    againUnless runner.session.speed (rearm audience)) runner
  tick : ∀ index, runner.current = some index → runner.session.active = true →
    0 < runner.session.speed →
      runFrom (callTimer audience index) runner = runFrom (step audience) runner
  absorbed : audience.PassiveIn runner.bus → 0 < audience.patience →
    Absorbs fault [.failed fault, .stepped] runner (runFrom (step audience) runner)

/-- A blocking run whose loop ends in a fault has made a step at the blocking speed that was refused
there and has changed nothing. From there on, the run is a report of the fault, and absorbs it
before handlers that only listen. -/
structure RunAbsorbs (audience : Audience) (position : Nat) (fault : Fault)
    (runner middle : Runner) : Prop where
  blocking : middle.session.speed = Speed.blocking
  refused : runFrom (advance audience position) middle = (.error (.raised (.fault fault)), middle)
  report : runFrom (runBlocking audience) runner = runFrom (do
    reportFault audience fault
    againUnless runner.session.speed (rearm audience)) middle
  absorbed : audience.PassiveIn runner.bus → 0 < audience.patience →
    Absorbs fault [.failed fault] middle (runFrom (runBlocking audience) runner)

theorem Founded.stepAbsorbs (hfounded : runner.Founded) (hsole : runner.Sole)
    (hattached : runner.attached = some position) (hrefuses : runner.Refuses position fault) :
    StepAbsorbs audience fault runner where
  report := runFrom_eq_of_ends fun _ ↦ hrefuses.ends_step hattached
  tick index hcurrent hactive hstepped := by
    have hcounts : (runner.session.active &&
        decide (Speed.regimeOf runner.session.speed = .stepped)) = true := by
      simp only [Bool.and_eq_true, decide_eq_true_eq, Speed.regimeOf_eq_stepped_iff]
      exact ⟨hactive, hstepped⟩
    refine runFrom_eq_of_ends fun required ↦ ?_
    rw [hsole.ends_callTimer hcurrent, if_pos hcounts]
  absorbed hpassive hpatience := by
    obtain ⟨bound, hbound⟩ : ∃ bound, audience.patience = bound + 1 :=
      ⟨audience.patience - 1, by omega⟩
    refine absorbs_of_yields ((hrefuses.ends_step hattached).mpr ?_)
    rw [rearm, hbound]
    exact hfounded.yields_reportFault_stepped hpassive fault _ bound

/-- From where its loop ends in a fault, a blocking run reports and absorbs it. -/
theorem Founded.runAbsorbs (hfounded : runner.Founded) (hmiddle : middle.Attended)
    (hbus : middle.bus = runner.bus) (hattached : runner.attached = some position)
    (hspeed : middle.session.speed = Speed.blocking) (hrefuses : middle.Refuses position fault)
    (hloop : runFrom (blockingSteps audience position audience.patience)
      (runFrom (log .info "session.blocking_run" [runner.nameField]) runner).2 =
        (.error (.raised (.fault fault)), middle)) :
    RunAbsorbs audience position fault runner middle := by
  have hlogged : Yields (fun _ _ ↦ False)
      (log .info "session.blocking_run" [runner.nameField]) runner fun _ _ ↦ True :=
    Yields.mono (hfounded.yields_log .info _ (plain_nameField runner Fields.plain_nil))
      fun _ _ _ ↦ trivial
  have hlog : runFrom (log .info "session.blocking_run" [runner.nameField]) runner =
      (.ok (), (runFrom (log .info "session.blocking_run" [runner.nameField]) runner).2) := by
    rcases hlogged.ended with ⟨_, hanswer, -⟩ | ⟨_, -, hnever⟩
    · exact Prod.ext hanswer rfl
    · exact hnever.elim
  have hends (required : Except Halt Unit → Runner → Prop) :
      Ends (runBlocking audience) runner required ↔ Ends (do
        reportFault audience fault
        againUnless runner.session.speed (rearm audience)) middle required := by
    rw [runBlocking, ends_bind, ends_requireRun, hattached]
    exact ends_blockingRun_of_fault hlog hloop
  refine ⟨hspeed, hrefuses.runFrom_advance, runFrom_eq_of_ends hends, fun hpassive hpatience ↦ ?_⟩
  obtain ⟨bound, hbound⟩ : ∃ bound, audience.patience = bound + 1 :=
    ⟨audience.patience - 1, by omega⟩
  refine absorbs_of_yields ((hends _).mpr ?_)
  rw [rearm, hbound]
  exact hmiddle.yields_reportFault_absorbed (hbus ▸ hpassive) fault _ bound

/-- Faults are atomic. Whatever the observers of the output do, as long as they raise no fault of
their own, a step of an engine and an instruction beside it change nothing when they end in a fault,
and end in the same fault when they are tried again. At every moment of every run, a step and a tick
of the session that meet a fault, and a blocking run whose loop meets one, however long it has been,
come from there on to a report of the fault and to nothing else. Before handlers that only listen,
they raise nothing, and leave the session idle, with the fault for its status, and apart from that
as it was; only the line about it can come in between, if the steps are too many to be counted
there. -/
theorem faults_atomic {bench : Bench} {hooks : List Hook} {journal : Journal} {start : Runner}
    (hstart : fresh bench hooks journal = .ok start) (hbound : journal.context.Plain)
    (hhooks : 2 * (hooks.length + 2 : Int) ≤ greatestInteger)
    (hreachable : start.Reachable runner) {conduct : Nat → Runner → Conduct}
    (hfaultless : ∀ sink ∈ start.sinks, ∀ runner, (conduct sink runner).Faultless)
    (patience depth : Nat) :
    let audience := Audience.conducted conduct patience depth
    (∀ other : Runner, other.sinks = start.sinks → ∀ position,
      Atomic (advance audience position) other ∧
        ∀ instruction, Atomic (execute audience position instruction) other) ∧
    ∀ position fault, runner.attached = some position →
      (∀ last, runFrom (advance audience position) runner =
        (.error (.raised (.fault fault)), last) → StepAbsorbs audience fault runner) ∧
      ∀ middle, runFrom (blockingSteps audience position audience.patience)
        (runFrom (log .info "session.blocking_run" [runner.nameField]) runner).2 =
          (.error (.raised (.fault fault)), middle) →
        RunAbsorbs audience position fault runner middle := by
  intro audience
  have hreact {inv : Runner → Prop} (hupheld : UpheldThroughout inv) (position : Nat) :
      Preserves inv (audience.react position) := by
    rw [show audience = Audience.conducted conduct patience depth from rfl,
      ← Audience.conductedUntil_never]
    exact hupheld.preserves_react _ conduct patience depth position
  have hfounded := upheldThroughout_founded.reachable hreachable
    (founded_of_fresh hstart hbound hhooks)
  have hsole := upheldThroughout_sole.reachable hreachable (sole_of_fresh hstart)
  have hsetUp := upheldThroughout_setUpAs start
  have hsetUpAs := hsetUp.reachable hreachable ⟨rfl, rfl, rfl, rfl⟩
  have hunfaulted (other : Runner) (hother : other.sinks = start.sinks) :
      ∀ sink ∈ other.sinks, Faultless (audience.react sink) := by
    intro sink hsink
    rw [hother] at hsink
    exact faultless_conducted (hfaultless sink hsink) patience depth
  refine ⟨fun other hother _ ↦ ⟨atomic_advance (hunfaulted other hother),
      fun _ ↦ atomic_execute (hunfaulted other hother)⟩,
    fun position fault hattached ↦ ⟨fun last hended ↦ ?_, fun middle hloop ↦ ?_⟩⟩
  · have hrefuses := (refuses_of_advance (hunfaulted runner hsetUpAs.sinks_eq) hended).2
    exact hfounded.stepAbsorbs hsole hattached hrefuses
  · have hlogged := (hsetUp.preserves_log .info "session.blocking_run" [runner.nameField] runner
      hsetUpAs).last
    have hbegun := (upheldThroughout_founded.preserves_log .info "session.blocking_run"
      [runner.nameField] runner hfounded).last
    obtain ⟨hlast, hspeed, hrefuses⟩ :=
      hsetUp.refuses_of_blockingSteps (hreact hsetUp)
        (fun other hother ↦ hunfaulted other hother.sinks_eq) hlogged hloop
    have hmiddle : middle.Founded := by
      have hkept := (upheldThroughout_founded.preserves_blockingSteps
        (hreact upheldThroughout_founded) position audience.patience _ hbegun).last
      rwa [hloop] at hkept
    exact hfounded.runAbsorbs hmiddle.toAttended (hlast.bus_eq.trans hsetUpAs.bus_eq.symm)
      hattached hspeed hrefuses hloop

/-- Adds one beside the program at every byte. -/
def addsOne (position : Nat) (_ : Runner) : Conduct :=
  .inTurn (if position = 0 then [.inject "+"] else [])

/-- A program writes a byte, to which the observer of the output adds one beside the program, and
then reads where there is no input. The session absorbs that, whether it is stepped or blocking. -/
theorem faults_atomic_exhausted :
    ∃ start ticked poked middle,
      fresh ⟨.tape, 1, "", 0, .empty⟩ [⟨.output, [], []⟩] .initial = .ok start ∧
      start.Reachable ticked ∧ start.Reachable poked ∧
      let audience := Audience.conducted addsOne 10 2
      (∃ last, runFrom (execute audience 0 "<") ticked =
        (.error (.raised (.fault .underflow)), last) ∧ last = ticked) ∧
      Absorbs .noInput [.failed .noInput, .stepped] ticked (runFrom (step audience) ticked) ∧
      runFrom (callTimer audience 0) ticked = runFrom (step audience) ticked ∧
      middle.session.steps = 2 ∧ middle.output = ⟨#[1]⟩ ∧
      Absorbs .noInput [.failed .noInput] middle (runFrom (runBlocking audience) poked) := by
  obtain ⟨start, hstart⟩ : ∃ start,
      fresh ⟨.tape, 1, "", 0, .empty⟩ [⟨.output, [], []⟩] .initial = .ok start := ⟨_, rfl⟩
  let audience := Audience.conducted addsOne 10 2
  let ticked := (runFrom ((Conduct.inTurn
    [.start "+.," ⟨true, false⟩, .fire 2]).perform audience) start).2
  let poked := (runFrom ((Conduct.inTurn
    [.start "+.," ⟨false, false⟩, .pokeSpeed (-1)]).perform audience) start).2
  let stuck := runFrom (execute audience 0 "<") ticked
  let refused := runFrom (advance audience 0) ticked
  let loop := runFrom (blockingSteps audience 0 10)
    (runFrom (log .info "session.blocking_run" [poked.nameField]) poked).2
  have hcourse : (decide (start.sinks = [0] ∧ ticked.attached = some 0 ∧
      ticked.session.active = true ∧ 0 < ticked.session.speed ∧ ticked.current = some 0 ∧
      poked.attached = some 0 ∧ faultOf? stuck.1 = some .underflow ∧
      faultOf? refused.1 = some .noInput ∧ faultOf? loop.1 = some .noInput ∧
      loop.2.session.steps = 2 ∧ loop.2.output = ⟨#[1]⟩)) = true := by
    cases hstart
    decide +kernel
  obtain ⟨hsinks, hticked, hactive, hstepped, hcurrent, hpoked, hstuck, hrefused, hloop, hsteps,
    houtput⟩ := of_decide_eq_true hcourse
  have hfaultless (sink : Nat) (_ : sink ∈ start.sinks) (runner : Runner) :
      (addsOne sink runner).Faultless := Conduct.faultless_inTurn _
  have hpassive (runner : Runner) (hreachable : start.Reachable runner) :
      audience.PassiveIn runner.bus := by
    have hsetUp := (upheldThroughout_setUpAs start).reachable hreachable ⟨rfl, rfl, rfl, rfl⟩
    refine passiveIn_conducted (fun type position _ hmem ↦ ?_) 10 1
    have hother : position ≠ 0 := by
      rintro rfl
      exact apart_of_reachable hstart hreachable 0 (by simp [hsetUp.sinks_eq, hsinks]) type hmem
    rw [addsOne, if_neg hother, Conduct.inTurn]
  have hfirst : start.Reachable ticked := reachable_perform _ 10 2 _ start
  have hsecond : start.Reachable poked := reachable_perform _ 10 2 _ start
  obtain ⟨hengine, hsession⟩ := faults_atomic hstart Fields.plain_nil (by decide) hfirst
    hfaultless 10 2
  have hstep := (hsession 0 .noInput hticked).1 refused.2
    (Prod.ext (eq_error_of_faultOf? hrefused) rfl)
  have hrun := ((faults_atomic hstart Fields.plain_nil (by decide) hsecond hfaultless 10 2).2
    0 .noInput hpoked).2 loop.2 (Prod.ext (eq_error_of_faultOf? hloop) rfl)
  have hsame : ticked.sinks = start.sinks :=
    ((upheldThroughout_setUpAs start).reachable hfirst ⟨rfl, rfl, rfl, rfl⟩).sinks_eq
  have hunderflow : stuck = (.error (.raised (.fault .underflow)), stuck.2) :=
    Prod.ext (eq_error_of_faultOf? hstuck) rfl
  exact ⟨start, ticked, poked, loop.2, hstart, hfirst, hsecond,
    ⟨stuck.2, hunderflow, ((hengine ticked hsame 0).2 "<" .underflow stuck.2 hunderflow).1⟩,
    hstep.absorbed (hpassive ticked hfirst) (by decide),
    hstep.tick 0 hcurrent hactive hstepped, hsteps, houtput,
    hrun.absorbed (hpassive poked hsecond) (by decide)⟩

end Runner

end TapeRunner
