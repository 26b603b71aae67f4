import TapeRunner.Proofs.Session.Accord
import TapeRunner.Proofs.Session.Injection
import TapeRunner.Proofs.Session.Protocol

/-!
# What an instruction beside the program leaves alone

A tape accepts an instruction beside the program exactly if it is one of the six commands and the
tape and the input have what it needs (`Rig.possible_iff`). Whatever becomes of it, before observers
that only listen, the session goes on as it was: one event more has been told, the engine stands
where it stood in its program, and the timers are untouched (`Runner.Injected`). This is so at every
moment of every run at which the session is attached to a tape (`Runner.injection_frame`). Such
moments are all those at which it is active, after orders that do not reach around the operations.
-/

set_option autoImplicit false
set_option relaxedAutoImplicit false

namespace TapeRunner

open Activity

/-! ### Possible instructions -/

namespace Rig

/-- What a command needs: a cell to go to, or a byte to read. -/
def Allows (rig : Rig) : Command → Prop
  | .right => rig.machine.head + 1 < rig.machine.cells.size
  | .left => 0 < rig.machine.head
  | .read => rig.supply.pending ≠ []
  | .increment | .decrement | .write => True

instance (rig : Rig) (command : Command) : Decidable (rig.Allows command) :=
  match command with
  | .right => inferInstanceAs (Decidable (_ < _))
  | .left => inferInstanceAs (Decidable (0 < _))
  | .read => inferInstanceAs (Decidable (_ ≠ []))
  | .increment | .decrement | .write => .isTrue trivial

/-- An instruction is possible if it spells a command that the tape and the input allow. -/
def Possible (rig : Rig) (instruction : String) : Prop :=
  ∃ character command, instruction = String.singleton character ∧
    Command.ofChar? character = some command ∧ rig.Allows command

variable {rig next : Rig} {command : Command} {instruction : String}

theorem perform_of_allows (hsound : rig.machine.Sound) (hallows : rig.Allows command) :
    ∃ effect, rig.machine.perform rig.supply.offer command = .ok effect := by
  have hupdated (change : UInt8 → UInt8) (finish : Machine → Effect) :
      ∃ effect, (rig.machine.update change).map finish = .ok effect := by
    rcases rig.machine.update_cases change with ⟨cells, hupdate, -⟩ | ⟨houtside, -⟩
    · exact ⟨_, by rw [hupdate]; rfl⟩
    · exact absurd hsound.head_lt houtside
  cases command with
  | right => exact ⟨_, if_neg (Nat.not_le.mpr hallows)⟩
  | left => exact ⟨_, if_neg (Nat.ne_of_gt hallows)⟩
  | increment => exact hupdated _ _
  | decrement => exact hupdated _ _
  | write =>
    have hcell := Array.getElem?_eq_getElem hsound.head_lt
    exact ⟨_, by simp only [Machine.perform, hcell]; rfl⟩
  | read =>
    cases hoffer : rig.supply.offer with
    | none => exact absurd ((Supply.offer_eq_none_iff _).mp hoffer) hallows
    | some number => exact hupdated _ _

theorem perform_of_not_allows (hprevents : ¬ rig.Allows command) :
    ∃ fault, rig.machine.perform rig.supply.offer command = .error (.fault fault) := by
  cases command with
  | right => exact ⟨.overflow, if_pos (Nat.not_lt.mp hprevents)⟩
  | left => exact ⟨.underflow, if_pos (Nat.eq_zero_of_not_pos hprevents)⟩
  | increment | decrement | write => exact absurd trivial hprevents
  | read =>
    have hnone := (Supply.offer_eq_none_iff _).mpr (not_not.mp hprevents)
    exact ⟨.noInput, by rw [hnone]; rfl⟩

/-- The engine accepts exactly what is possible. -/
theorem possible_iff (hsound : rig.machine.Sound) (instruction : String) :
    rig.Possible instruction ↔ ∃ next, rig.execute instruction = .ok next := by
  constructor
  · rintro ⟨character, command, rfl, hcommand, hallows⟩
    obtain ⟨effect, hdone⟩ := perform_of_allows hsound hallows
    refine ⟨rig.settle effect, ?_⟩
    rw [execute, Machine.execute_singleton _ _ hcommand, hdone]
    rfl
  · rintro ⟨next, hnext⟩
    by_cases hother : ∀ character ∈ commandCharacters, instruction ≠ String.singleton character
    · rw [execute, Machine.execute_of_not_command _ _ hother] at hnext
      cases hnext
    · push Not at hother
      obtain ⟨character, hmem, rfl⟩ := hother
      obtain ⟨command, hcommand⟩ := (mem_commandCharacters_iff character).mp hmem
      refine ⟨character, command, rfl, hcommand, ?_⟩
      by_contra hprevents
      obtain ⟨fault, hfault⟩ := perform_of_not_allows hprevents
      rw [execute, Machine.execute_singleton _ _ hcommand, hfault] at hnext
      cases hnext

/-- An instruction that is executed leaves the engine where it is in its program. -/
theorem place_of_execute (hsound : rig.machine.Sound) (hnext : rig.execute instruction = .ok next) :
    next.machine.code = rig.machine.code ∧ next.machine.marks = rig.machine.marks ∧
      next.machine.counter = rig.machine.counter := by
  unfold execute at hnext
  rcases hsound.execute_cases rig.supply.offer instruction with
    ⟨fault, hfault⟩ | ⟨effect, hdone, htouches⟩
  · rw [hfault] at hnext
    cases hnext
  · rw [hdone] at hnext
    cases hnext
    exact ⟨htouches.code_eq, htouches.marks_eq, htouches.counter_eq⟩

namespace TurnsOut

variable {outcome : Except Fault Unit} (hturnsOut : rig.TurnsOut instruction next outcome)
include hturnsOut

theorem isOk_iff (hsound : rig.machine.Sound) : outcome.isOk = true ↔ rig.Possible instruction := by
  rw [possible_iff hsound]
  rcases outcome with fault | _
  · refine ⟨nofun, fun ⟨other, hother⟩ ↦ ?_⟩
    cases hturnsOut.1.symm.trans hother
  · exact ⟨fun _ ↦ ⟨next, hturnsOut⟩, fun _ ↦ rfl⟩

theorem executed (hok : outcome.isOk = true) : rig.execute instruction = .ok next := by
  rcases outcome with fault | _
  · cases hok
  · exact hturnsOut

theorem eq_of_refused (hrefused : outcome.isOk = false) : next = rig := by
  rcases outcome with fault | _
  · exact hturnsOut.2
  · cases hrefused

/-- Executed or not, the engine stays in its place. -/
theorem place (hsound : rig.machine.Sound) :
    next.machine.code = rig.machine.code ∧ next.machine.marks = rig.machine.marks ∧
      next.machine.counter = rig.machine.counter := by
  rcases outcome with fault | _
  · rw [hturnsOut.2]
    exact ⟨rfl, rfl, rfl⟩
  · exact place_of_execute hsound hturnsOut

end TurnsOut

end Rig

/-! ### The frame -/

namespace Runner

variable {runner last : Runner} {audience : Audience} {program : String} {rig : Rig}
variable {instruction : String}

/-- What an instruction beside the program brings about, and what it leaves alone. It is accepted
exactly if it is possible. The tape, the input and the output are then those after the instruction,
and else as they were; the program and the counter stay in any case. Of the session nothing changes
but the count of its events, by one, and the event that is recorded shows it. The timers, the handle
of the current one, and all that the operations rely on are the same. -/
structure Injected (program : String) (rig : Rig) (instruction : String) (accepted : Bool)
    (runner last : Runner) : Prop where
  accepted_iff : accepted = true ↔ rig.Possible instruction
  engine : ∃ next, last.AttachedTo program next ∧
    (accepted = true → rig.execute instruction = .ok next) ∧ (accepted = false → next = rig) ∧
    next.machine.code = rig.machine.code ∧ next.machine.marks = rig.machine.marks ∧
    next.machine.counter = rig.machine.counter
  session_eq : last.session = { runner.session with sequence := runner.session.sequence + 1 }
  recorded_eq : last.recorded = runner.recorded.push (last.eventOf (.injected instruction accepted))
  timers_eq : last.timers = runner.timers
  current_eq : last.current = runner.current
  generation_eq : last.generation = runner.generation
  attached_eq : last.attached = runner.attached
  supplied_eq : last.supplied = runner.supplied
  others_eq : ∀ position, runner.attached ≠ some position →
    last.runs[position]? = runner.runs[position]?
  bench_eq : last.bench = runner.bench
  bus_eq : last.bus = runner.bus
  sinks_eq : last.sinks = runner.sinks
  journal_eq : ∃ lines, last.journal = { runner.journal with lines }

/-- An instruction beside the program of a sound tape is answered, told of once, and leaves the rest
alone. -/
theorem Attended.yields_inject {halted : Halt → Runner → Prop} (hattended : runner.Attended)
    (hpassive : audience.Passive) (hattachedTo : runner.AttachedTo program rig)
    (hsound : rig.machine.Sound) (instruction : String) :
    Yields halted (inject audience instruction) runner fun accepted ↦
      Injected program rig instruction accepted runner := by
  obtain ⟨position, hattached, hcarries⟩ := hattachedTo
  rw [inject_eq, Yields, ends_bind, ends_requireRun, hattached]
  refine Yields.bind (hcarries.yields_attempt_execute hsound hpassive instruction) ?_
  rintro outcome _ ⟨next, hturnsOut, hmoved, -, runs, output, hookCalls, rfl, hothers⟩
  have hexecuted : Attended { runner with runs, output, hookCalls } := { hattended with }
  refine Yields.bind (hexecuted.yields_acceptance instruction outcome) ?_
  rintro accepted _ ⟨haccepted, lines, rfl⟩
  have hlogged : (withLines { runner with runs, output, hookCalls } lines).Attended :=
    { hexecuted with }
  refine Yields.bind (hlogged.yields_told (hpassive.passiveIn _) _) ?_
  rintro _ _ ⟨further, added, rfl⟩
  exact {
    accepted_iff := haccepted ▸ hturnsOut.isOk_iff hsound
    engine := by
      refine ⟨next, ⟨position, hattached, hmoved⟩, ?_, ?_, hturnsOut.place hsound⟩
      · exact fun htrue ↦ hturnsOut.executed (haccepted.symm.trans htrue)
      · exact fun hfalse ↦ hturnsOut.eq_of_refused (haccepted.symm.trans hfalse)
    session_eq := rfl
    recorded_eq := rfl
    timers_eq := rfl
    current_eq := rfl
    generation_eq := rfl
    attached_eq := rfl
    supplied_eq := rfl
    others_eq := fun other hother ↦ hothers other fun hsame ↦ hother (hsame ▸ hattached)
    bench_eq := rfl
    bus_eq := rfl
    sinks_eq := rfl
    journal_eq := ⟨added, rfl⟩ }

/-- Every instruction beside the program is answered, whatever the text, and leaves alone what it
should. -/
def Framed (audience : Audience) (program : String) (rig : Rig) (runner : Runner) : Prop :=
  ∀ instruction, ∃ accepted last,
    runFrom (inject audience instruction) runner = (.ok accepted, last) ∧
      Injected program rig instruction accepted runner last

theorem Founded.framed (hfounded : runner.Founded) (hpassive : audience.Passive)
    (hattachedTo : runner.AttachedTo program rig) : Framed audience program rig runner := by
  intro instruction
  have hsound : rig.machine.Sound := by
    obtain ⟨position, -, hcarries⟩ := hattachedTo
    exact hfounded.sound position _ hcarries.1 _ rfl
  have hrun : Yields (fun _ _ ↦ False) (inject audience instruction) runner _ :=
    hfounded.yields_inject hpassive hattachedTo hsound instruction
  rcases hrun.ended with ⟨accepted, hanswer, hinjected⟩ | ⟨halt, -, hhalted⟩
  · exact ⟨accepted, _, Prod.ext hanswer rfl, hinjected⟩
  · exact hhalted.elim

end Runner

end TapeRunner
