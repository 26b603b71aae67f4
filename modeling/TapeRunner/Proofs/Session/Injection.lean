import Mathlib.Data.List.Infix
import TapeRunner.Proofs.Session.Driving
import TapeRunner.Session.Order

/-!
# An instruction beside the program

A command does to the tape, the head and the two ends what it does because of the tape and the head
alone, and not because of the program (`Machine.perform_besideOf`). So one of the six commands
beside the program does what a step does that finds it under the counter, with the same faults, save
that the counter stays (`Rig.execute_eq_step`). Every other text is refused, and nothing changes: a
part of the two loop brackets as such, the empty text and both brackets included, and anything else
as unknown (`Machine.execute_of_not_command`).
-/

set_option autoImplicit false
set_option relaxedAutoImplicit false

namespace TapeRunner

open Activity

/-! ### Commands and other texts -/

/-- The characters that spell the commands. -/
def commandCharacters : List Char := ['>', '<', '+', '-', '.', ',']

theorem mem_commandCharacters_iff (character : Char) :
    character ∈ commandCharacters ↔ ∃ command, Command.ofChar? character = some command := by
  constructor
  · intro hmem
    simp only [commandCharacters, List.mem_cons, List.not_mem_nil, or_false] at hmem
    rcases hmem with rfl | rfl | rfl | rfl | rfl | rfl <;> exact ⟨_, rfl⟩
  · rintro ⟨command, hcommand⟩
    unfold Command.ofChar? at hcommand
    split at hcommand
    · decide
    · decide
    · decide
    · decide
    · decide
    · decide
    · cases hcommand

/-- Why a text is refused that is no command: as a part of the loop brackets, or as unknown. -/
def rejection (instruction : String) : Fault :=
  if instruction.toList <:+: ['[', ']'] then .loopOutside instruction else .unknown instruction

/-- The parts of the loop brackets are four. -/
theorem isInfix_brackets_iff (instruction : String) :
    instruction.toList <:+: ['[', ']'] ↔ instruction ∈ ["", "[", "]", "[]"] := by
  have hlists (text : List Char) :
      text <:+: ['[', ']'] ↔ text = [] ∨ text = ['['] ∨ text = [']'] ∨ text = ['[', ']'] := by
    simp only [List.infix_cons_iff, List.infix_nil, List.prefix_cons_iff, List.prefix_nil]
    constructor
    · rintro ((rfl | ⟨rest, rfl, rfl | ⟨later, rfl, rfl⟩⟩) | (rfl | ⟨rest, rfl, rfl⟩) | rfl) <;>
        simp
    · rintro (rfl | rfl | rfl | rfl) <;> simp
  rw [hlists]
  simp only [List.mem_cons, List.not_mem_nil, or_false, ← String.toList_inj]
  exact Iff.rfl

namespace Machine

variable {machine other : Machine} {offered : Option Int} {character : Char} {command : Command}

theorem symbol_of_command (hcommand : Command.ofChar? character = some command) :
    Symbol.ofChar character = .command command := by
  have hopen : character ≠ '[' := by
    rintro rfl
    cases hcommand
  have hclose : character ≠ ']' := by
    rintro rfl
    cases hcommand
  rw [Symbol.ofChar, if_neg hopen, if_neg hclose, hcommand]

/-- The machine at its own place in its own program, with the tape and the head of another one. -/
def besideOf (machine other : Machine) : Machine :=
  { machine with cells := other.cells, head := other.head }

/-- A command depends on the tape and the head, and does nothing to the program. -/
theorem perform_besideOf (hcells : other.cells = machine.cells) (hhead : other.head = machine.head)
    (offered : Option Int) (command : Command) :
    machine.perform offered command = (other.perform offered command).map fun effect ↦
      { effect with machine := machine.besideOf effect.machine } := by
  obtain ⟨code, marks, cells, head, counter⟩ := other
  obtain rfl : cells = machine.cells := hcells
  obtain rfl : head = machine.head := hhead
  have hupdated (change : UInt8 → UInt8) (consumed : Bool) :
      (machine.update change).map (⟨·, consumed, none⟩) =
        ((update ⟨code, marks, machine.cells, machine.head, counter⟩ change).map
          (⟨·, consumed, none⟩)).map fun effect : Effect ↦
            { effect with machine := machine.besideOf effect.machine } := by
    unfold update
    split <;> rfl
  cases command with
  | right | left | write =>
    simp only [perform]
    split <;> rfl
  | increment => exact hupdated _ _
  | decrement => exact hupdated _ _
  | read =>
    cases offered with
    | none => rfl
    | some number => exact hupdated _ _

/-- A single character that spells a command is carried out as this command. -/
theorem execute_singleton (machine : Machine) (offered : Option Int)
    (hcommand : Command.ofChar? character = some command) :
    machine.execute offered (String.singleton character) = machine.perform offered command := by
  have hloop : String.singleton character ∉ ["", "[", "]", "[]"] := by
    intro hmem
    simp only [List.mem_cons, List.not_mem_nil, or_false, ← String.toList_inj,
      String.toList_singleton] at hmem
    rcases hmem with hempty | hopen | hclose | hboth
    · cases hempty
    · cases hopen
      cases hcommand
    · cases hclose
      cases hcommand
    · cases hboth
  rw [execute, if_neg hloop, String.toList_singleton]
  simp only [hcommand]

/-- A text that is no command is refused. -/
theorem execute_of_not_command (machine : Machine) (offered : Option Int) {instruction : String}
    (hother : ∀ character ∈ commandCharacters, instruction ≠ String.singleton character) :
    machine.execute offered instruction = .error (.fault (rejection instruction)) := by
  rw [execute, rejection]
  simp only [isInfix_brackets_iff]
  by_cases hloop : instruction ∈ ["", "[", "]", "[]"]
  · rw [if_pos hloop, if_pos hloop]
  · rw [if_neg hloop, if_neg hloop]
    rcases hcharacters : instruction.toList with _ | ⟨character, _ | ⟨second, later⟩⟩
    · rfl
    · cases hcommand : Command.ofChar? character with
      | none => simp only [hcommand]
      | some command =>
        have hmem := (mem_commandCharacters_iff character).mpr ⟨command, hcommand⟩
        refine absurd ?_ (hother character hmem)
        rw [← String.toList_inj, hcharacters, String.toList_singleton]
    · rfl

/-- A command beside the program does what a step does that finds it under the counter, whatever is
offered as input. -/
theorem execute_eq_advance (hcommand : character ∈ commandCharacters)
    (hcells : other.cells = machine.cells) (hhead : other.head = machine.head)
    (hfound : other.code[other.counter]? = some character) (offered : Option Int) :
    machine.execute offered (String.singleton character) = (other.advance offered).map fun done ↦
      { done.1 with machine := machine.besideOf done.1.machine } := by
  obtain ⟨command, hcommand⟩ := (mem_commandCharacters_iff character).mp hcommand
  rw [other.advance_of_found offered hfound, symbol_of_command hcommand,
    execute_singleton _ _ hcommand, perform_besideOf hcells hhead]
  dsimp only
  cases other.perform offered command <;> rfl

end Machine

/-! ### Beside the program and in it -/

/-- A rig with the program and the counter of a machine: what is left of a step of another program
for the machine that does not take it. -/
def Rig.beside (rig : Rig) (machine : Machine) : Rig :=
  { rig with machine := machine.besideOf rig.machine }

/-- With both ends connected, a command does the same in the two places. -/
theorem Rig.execute_eq_step (rig : Rig) {other : Machine} {character : Char}
    (hcommand : character ∈ commandCharacters) (hcells : other.cells = rig.machine.cells)
    (hhead : other.head = rig.machine.head)
    (hfound : other.code[other.counter]? = some character) :
    rig.execute (String.singleton character) =
      (step { rig with machine := other }).map fun done ↦ done.beside rig.machine := by
  rw [step_eq_map, execute, Machine.execute_eq_advance hcommand hcells hhead hfound]
  cases other.advance rig.supply.offer <;> rfl

/-- A text that is no command is refused by every engine, and nothing changes. -/
theorem Runner.runFrom_execute_of_not_command (audience : Audience) {runner : Runner}
    {position : Nat} {run : Run} {machine : Machine} {instruction : String}
    (hother : ∀ character ∈ commandCharacters, instruction ≠ String.singleton character)
    (hrun : runner.runs[position]? = some run) (htape : run.engine = .tape machine) :
    runFrom (execute audience position instruction) runner =
      (.error (.raised (.fault (rejection instruction))), runner) := by
  have hrefused := machine.execute_of_not_command run.supply.offer hother
  have hends : Ends (execute audience position instruction) runner fun outcome last ↦
      outcome = .error (.raised (.fault (rejection instruction))) ∧ last = runner := by
    rw [ends_execute hrun]
    simp only [Run.aside, htape, hrefused, Stop.error, and_self]
  exact Prod.ext hends.1 hends.2

/-- An instruction beside the program agrees with the program. If it is one of the six commands, it
changes the tape, the head and the two ends as a step does from the same tape, head and ends that
finds it under the counter, or is refused for the same fault, and the counter stays; it does so for
whatever numbers are read. Every other text is refused, for a fault that depends on the text alone,
and nothing changes. -/
theorem Rig.execute_agrees_with_step (rig : Rig) (instruction : String) :
    (∀ character ∈ commandCharacters, instruction = String.singleton character →
      ∀ other : Machine, other.cells = rig.machine.cells → other.head = rig.machine.head →
        other.code[other.counter]? = some character →
          rig.execute instruction =
            ((step { rig with machine := other }).map fun done ↦ done.beside rig.machine) ∧
          ∀ offered, rig.machine.execute offered instruction =
            (other.advance offered).map fun done ↦
              { done.1 with machine := rig.machine.besideOf done.1.machine }) ∧
    ((∀ character ∈ commandCharacters, instruction ≠ String.singleton character) →
      rig.execute instruction = .error (.fault (rejection instruction)) ∧
      (∀ offered,
        rig.machine.execute offered instruction = .error (.fault (rejection instruction))) ∧
      ∀ (audience : Audience) (runner : Runner) (position : Nat) (program : String),
        runner.runs[position]? = some ⟨program, .tape rig.machine, rig.supply⟩ →
          runFrom (Runner.execute audience position instruction) runner =
            (.error (.raised (.fault (rejection instruction))), runner)) := by
  constructor
  · rintro character hcommand rfl other hcells hhead hfound
    exact ⟨rig.execute_eq_step hcommand hcells hhead hfound,
      Machine.execute_eq_advance hcommand hcells hhead hfound⟩
  · intro hother
    have hrefused (offered : Option Int) := rig.machine.execute_of_not_command offered hother
    refine ⟨?_, hrefused, fun audience runner position program hrun ↦ ?_⟩
    · rw [execute, hrefused]
      rfl
    · exact Runner.runFrom_execute_of_not_command audience hother hrun rfl

/-- Beside another program, a read takes the byte that the program `,` would take, and a text of two
commands is refused. -/
theorem Rig.execute_agrees_with_step_reading :
    let rig : Rig := ⟨.load "+" 2, .ofText "a", .empty⟩
    rig.execute "," =
      (step { rig with machine := .load "," 2 }).map (fun done ↦ done.beside rig.machine) ∧
    rig.execute "+-" = .error (.fault (.unknown "+-")) ∧
    ∃ start, Runner.fresh ⟨.tape, 2, "a", 0, .empty⟩ [] .initial = .ok start ∧
      let audience : Audience := ⟨fun _ ↦ pure (), 1⟩
      let runner := (runFrom (Runner.start audience "+" ⟨true, false⟩) start).2
      runFrom (Runner.execute audience 0 "+-") runner =
        (.error (.raised (.fault (.unknown "+-"))), runner) := by
  intro rig
  obtain ⟨start, hstart⟩ :
      ∃ start, Runner.fresh ⟨.tape, 2, "a", 0, .empty⟩ [] .initial = .ok start := ⟨_, rfl⟩
  have hrun : (runFrom (Runner.start ⟨fun _ ↦ pure (), 1⟩ "+" ⟨true, false⟩) start).2.runs[0]? =
      some ⟨"+", .tape rig.machine, rig.supply⟩ := by
    cases hstart
    decide +kernel
  have hother (character : Char) (_ : character ∈ commandCharacters) :
      "+-" ≠ String.singleton character := by
    intro hsame
    have hone : "+-".toList.length = 1 := by
      rw [hsame, String.toList_singleton, List.length_singleton]
    exact absurd hone (by decide)
  obtain ⟨hrefused, -, hunchanged⟩ := (rig.execute_agrees_with_step "+-").2 hother
  refine ⟨?_, hrefused, start, hstart, hunchanged _ _ 0 "+" hrun⟩
  exact ((rig.execute_agrees_with_step ",").1 ',' (by decide) rfl (.load "," 2) rfl rfl
    (by decide)).1

end TapeRunner
