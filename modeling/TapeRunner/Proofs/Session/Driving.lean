import TapeRunner.Proofs.Activity
import TapeRunner.Proofs.Machine.Soundness
import TapeRunner.Session.Runner

/-!
# Driving an engine

A step of a run is decided by the run alone: `Run.turn` is an error, or an effect on the tape and
the counter after it. The rest is bookkeeping on the runner, with the observers of the output called
in the middle (`Runner.ends_advance`, `Runner.ends_execute`, `Runner.yields_settle`). The turn of a
sound run is a fault or leaves a sound run behind (`Run.Sound.turn_cases`).
-/

set_option autoImplicit false
set_option relaxedAutoImplicit false

namespace TapeRunner

open Activity

/-- The error that is raised for a stop. -/
def Stop.error : Stop → Error
  | .fault cause => .fault cause
  | .broken table => .broken table

theorem Runner.raiseStop_eq (stop : Stop) : raiseStop stop = fail stop.error := by
  cases stop <;> rfl

/-! ### Turns of a run -/

namespace Run

/-- What a step of a run comes to: an error, or an effect on its tape, if it has one, and the
counter after it. -/
def turn (run : Run) (script : Script) : Except Error (Option Effect × Nat) :=
  match run.engine with
  | .tape machine =>
    match machine.advance run.supply.offer with
    | .error stop => .error stop.error
    | .ok (effect, counter) => .ok (some effect, counter)
  | .scripted counter =>
    match script.errorAt counter with
    | some error => .error error
    | none => .ok (none, counter + 1)

/-- What an instruction beside the program comes to. -/
def aside (run : Run) (script : Script) (instruction : String) : Except Error (Option Effect) :=
  match run.engine with
  | .tape machine =>
    match machine.execute run.supply.offer instruction with
    | .error stop => .error stop.error
    | .ok effect => .ok (some effect)
  | .scripted _ =>
    match script.errorOf instruction with
    | some error => .error error
    | none => .ok none

/-- An effect on a run is one on its tape, and touches nothing but the head and the cells. -/
def Touches (run : Run) (effect : Effect) : Prop :=
  ∃ machine, run.engine = .tape machine ∧ machine.Touches effect

/-- The machine of a run, if it has one, is sound. -/
def Sound (run : Run) : Prop := ∀ machine, run.engine = .tape machine → machine.Sound

variable {run : Run} {script : Script}

theorem Sound.settle {effect : Effect} (hsound : run.Sound) (htouches : run.Touches effect) :
    (run.settle effect).Sound := by
  obtain ⟨machine, htape, htouches⟩ := htouches
  rintro _ ⟨⟩
  exact htouches.sound (hsound machine htape) effect.machine.counter

theorem Sound.resumeAt (hsound : run.Sound) (counter : Nat) : (run.resumeAt counter).Sound := by
  intro next hnext
  cases hengine : run.engine with
  | tape machine =>
    obtain rfl : { machine with counter } = next := by simpa [Run.resumeAt, hengine] using hnext
    exact ⟨(hsound machine hengine).head_lt, (hsound machine hengine).marked⟩
  | scripted old => simp [Run.resumeAt, hengine] at hnext

/-- Every run that is built is sound. -/
theorem sound_of_build {bench : Bench} {program : String} {run : Run}
    (hbuild : bench.build program = .ok run) : run.Sound := by
  intro machine hmachine
  unfold Bench.build at hbuild
  split at hbuild
  · cases hbuild
    cases hmachine
  · split at hbuild
    · cases hbuild
    · next hsize =>
      cases hbuild
      cases hmachine
      exact .load program (by omega)

/-- The end of the program depends on the counter, which an effect does not move. -/
theorem Touches.atEnd_settle {effect : Effect} (htouches : run.Touches effect) :
    (run.settle effect).atEnd = run.atEnd := by
  obtain ⟨machine, htape, htouches⟩ := htouches
  simp only [atEnd, htape, Run.settle, Machine.atEnd, htouches.code_eq, htouches.counter_eq]

/-- A sound run without crashes is at fault or takes its turn. -/
theorem Sound.turn_cases (hsound : run.Sound) (hcrashes : script.crashes = []) :
    (∃ fault, run.turn script = .error (.fault fault)) ∨
      ∃ effect? counter, run.turn script = .ok (effect?, counter) ∧
        ∀ effect ∈ effect?, run.Touches effect := by
  cases hengine : run.engine with
  | tape machine =>
    rcases (hsound machine hengine).advance_cases run.supply.offer with
      ⟨fault, hfault⟩ | ⟨effect, counter, hdone, htouches⟩
    · exact .inl ⟨fault, by simp only [turn, hengine, hfault, Stop.error]⟩
    · refine .inr ⟨some effect, counter, by simp only [turn, hengine, hdone], ?_⟩
      rintro _ ⟨⟩
      exact ⟨machine, hengine, htouches⟩
  | scripted counter =>
    cases hfaults : script.faults.lookup (counter : Int) with
    | some reason =>
      exact .inl ⟨.refused reason, by simp only [turn, hengine, Script.errorAt, hfaults]⟩
    | none =>
      refine .inr ⟨none, counter + 1, ?_, nofun⟩
      simp only [turn, hengine, Script.errorAt, hfaults, hcrashes, List.lookup_nil, Option.map]

/-- What the turn of a sound run does, it does to the head and the cells. -/
theorem Sound.touches_of_turn (hsound : run.Sound) {effect : Effect} {counter : Nat}
    (hturn : run.turn script = .ok (some effect, counter)) : run.Touches effect := by
  cases hengine : run.engine with
  | tape machine =>
    refine ⟨machine, hengine, ?_⟩
    simp only [turn, hengine] at hturn
    rcases (hsound machine hengine).advance_cases run.supply.offer with
      ⟨fault, hfault⟩ | ⟨found, place, hdone, htouches⟩
    · simp [hfault] at hturn
    · obtain ⟨rfl, -⟩ : found = effect ∧ place = counter := by simpa [hdone] using hturn
      exact htouches
  | scripted old =>
    simp only [turn, hengine] at hturn
    split at hturn <;> simp at hturn

/-- At the end of its program, a tape has no further effect. -/
theorem atEnd_eq_false_of_turn {effect : Effect} {counter : Nat}
    (hturn : run.turn script = .ok (some effect, counter)) : run.atEnd = false := by
  cases hengine : run.engine with
  | tape machine =>
    simp only [turn, hengine] at hturn
    by_cases hinside : machine.counter < machine.code.size
    · simpa only [atEnd, hengine, Machine.atEnd, decide_eq_false_iff_not, Nat.not_le] using hinside
    · simp [Machine.advance, hinside] at hturn
  | scripted old =>
    simp only [turn, hengine] at hturn
    split at hturn <;> simp at hturn

/-- What an instruction beside the program does, it does to the head and the cells. -/
theorem touches_of_aside {instruction : String} {effect : Effect}
    (haside : run.aside script instruction = .ok (some effect)) : run.Touches effect := by
  cases hengine : run.engine with
  | tape machine =>
    refine ⟨machine, hengine, ?_⟩
    cases hdone : machine.execute run.supply.offer instruction with
    | error stop => simp [aside, hengine, hdone] at haside
    | ok done =>
      obtain rfl : done = effect := by simpa [aside, hengine, hdone] using haside
      rcases machine.execute_cases run.supply.offer instruction with
        ⟨fault, hfault⟩ | ⟨command, hcommand⟩
      · simp [hfault] at hdone
      · rw [hcommand] at hdone
        rcases machine.perform_cases run.supply.offer command with
          ⟨fault, hfault⟩ | ⟨found, hfound, htouches⟩ | ⟨-, hbroken⟩
        · simp [hfault] at hdone
        · obtain rfl : found = done := by simpa [hfound] using hdone
          exact htouches
        · simp [hbroken] at hdone
  | scripted counter =>
    simp only [aside, hengine] at haside
    split at haside <;> simp at haside

end Run

/-! ### What they do to the runner -/

namespace Runner

/-- The runner with one run changed. -/
def changeRun (runner : Runner) (position : Nat) (change : Run → Run) : Runner :=
  { runner with runs := runner.runs.modify position change }

/-- The runner with an effect connected to a run and to the output. -/
def settled (runner : Runner) (position : Nat) (effect : Effect) : Runner :=
  { runner with
    runs := runner.runs.modify position (·.settle effect)
    output := match effect.written with
      | some byte => runner.output.put byte.toNat
      | none => runner.output }

/-- Settles an effect, if there is one. -/
def settleAny (audience : Audience) (position : Nat) : Option Effect → Action Unit
  | some effect => settle audience position effect
  | none => pure ()

variable {runner : Runner} {audience : Audience} {position : Nat} {run : Run}

/-- Every run is sound. -/
def RunsSound (runner : Runner) : Prop :=
  ∀ (position : Nat) (run : Run), runner.runs[position]? = some run → run.Sound

/-- The runs stay sound if the one that is changed does. -/
theorem RunsSound.changeRun (hsound : runner.RunsSound) {change : Run → Run}
    (hchange : ∀ run, runner.runs[position]? = some run → run.Sound → (change run).Sound) :
    (runner.changeRun position change).RunsSound := by
  intro other run hrun
  rw [Runner.changeRun, Array.getElem?_modify] at hrun
  split at hrun
  · next hsame =>
    subst hsame
    obtain ⟨old, hold, rfl⟩ := Option.map_eq_some_iff.mp hrun
    exact hchange old hold (hsound _ old hold)
  · exact hsound other run hrun

theorem RunsSound.push (hsound : runner.RunsSound) (hrun : run.Sound) :
    RunsSound { runner with runs := runner.runs.push run } := by
  intro position found hfound
  rw [Array.getElem?_push] at hfound
  split at hfound
  · exact Option.some.inj hfound ▸ hrun
  · exact hsound position found hfound

theorem run?_eq_some (hattached : runner.attached = some position)
    (hrun : runner.runs[position]? = some run) : runner.run? = some run := by
  rw [run?, hattached]
  exact hrun

theorem ends_runAt_iff {required : Except Halt Run → Runner → Prop} :
    Ends (runAt position) runner required ↔ match runner.runs[position]? with
      | some run => required (.ok run) runner
      | none => required (.error (.raised (.broken .runs))) runner := by
  rw [runAt, ends_bind, ends_get]
  cases hrun : runner.runs[position]? <;> simp only [hrun, ends_pure, ends_fail]

theorem ends_runAt {required : Except Halt Run → Runner → Prop}
    (hrun : runner.runs[position]? = some run) :
    Ends (runAt position) runner required ↔ required (.ok run) runner := by
  rw [ends_runAt_iff, hrun]

/-- A step raises the error of its turn, or settles the effect and then moves the counter. -/
theorem ends_advance {required : Except Halt Unit → Runner → Prop}
    (hrun : runner.runs[position]? = some run) :
    Ends (advance audience position) runner required ↔
      match run.turn runner.bench.script with
      | .error error => required (.error (.raised error)) runner
      | .ok (effect?, counter) =>
        Ends (settleAny audience position effect?) runner fun outcome middle ↦
          match outcome with
          | .ok _ => required (.ok ()) (middle.changeRun position (·.resumeAt counter))
          | .error halt => required (.error halt) middle := by
  rw [advance, ends_bind, ends_runAt hrun]
  cases hengine : run.engine with
  | tape machine =>
    cases hdone : machine.advance run.supply.offer with
    | error stop => simp only [Run.turn, hengine, hdone, raiseStop_eq, ends_fail]
    | ok done =>
      simp only [Run.turn, hengine, hdone, settleAny, ends_bind]
      apply ends_congr
      intro outcome middle
      rcases outcome with halt | _ <;> exact Iff.rfl
  | scripted counter =>
    simp only [Run.turn, hengine, ends_bind, ends_get]
    cases herror : runner.bench.script.errorAt counter with
    | some error => exact Iff.rfl
    | none => exact Iff.rfl

/-- An instruction beside the program raises its error or has its effect settled. -/
theorem ends_execute {required : Except Halt Unit → Runner → Prop} {instruction : String}
    (hrun : runner.runs[position]? = some run) :
    Ends (execute audience position instruction) runner required ↔
      match run.aside runner.bench.script instruction with
      | .error error => required (.error (.raised error)) runner
      | .ok effect? => Ends (settleAny audience position effect?) runner required := by
  rw [execute, ends_bind, ends_runAt hrun]
  cases hengine : run.engine with
  | tape machine =>
    cases hdone : machine.execute run.supply.offer instruction with
    | error stop => simp only [Run.aside, hengine, hdone, raiseStop_eq, ends_fail]
    | ok effect => simp only [Run.aside, hengine, hdone, settleAny]
  | scripted counter =>
    simp only [Run.aside, hengine, ends_bind, ends_get]
    cases herror : runner.bench.script.errorOf instruction with
    | some error => exact Iff.rfl
    | none => exact Iff.rfl

variable {inv : Runner → Prop} {halted : Halt → Runner → Prop}

/-- After an effect, what the observers of the output keep goes on to hold. -/
theorem yields_settle {effect : Effect} (hsettled : inv (runner.settled position effect))
    (hreact : ∀ sink ∈ runner.sinks, Keeps inv halted (audience.react sink)) :
    Yields halted (settle audience position effect) runner fun _ ↦ inv := by
  rw [Yields, settle, ends_bind, modifyRun, ends_modify]
  cases hwritten : effect.written with
  | none =>
    simp only [ends_pure]
    simpa only [settled, hwritten] using hsettled
  | some byte =>
    simp only [emit, ends_bind, ends_modify, ends_get]
    refine Keeps.forM runner.sinks hreact _ ?_
    simpa only [settled, hwritten] using hsettled

theorem yields_settleAny {effect? : Option Effect} (hnone : effect? = none → inv runner)
    (hsettled : ∀ effect ∈ effect?, inv (runner.settled position effect))
    (hreact : ∀ sink ∈ runner.sinks, Keeps inv halted (audience.react sink)) :
    Yields halted (settleAny audience position effect?) runner fun _ ↦ inv := by
  cases effect? with
  | none => exact hnone rfl
  | some effect => exact yields_settle (hsettled effect rfl) hreact

end Runner

end TapeRunner
