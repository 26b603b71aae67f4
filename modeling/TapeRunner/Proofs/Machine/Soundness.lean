import TapeRunner.Proofs.Machine.Matching
import TapeRunner.Proofs.Machine.Stepping

/-!
# Machines never break

A machine is sound if its head is on its tape and every bracket of its program has a mark. A loaded
machine is sound (`Sound.load`), and the symbol under the counter of a sound machine is a fault or
moves nothing but the head and the cells, to a sound machine again (`Sound.advance_cases`). So the
look-ups that could leave their tables never do, and the only way to be stuck is a fault.
-/

set_option autoImplicit false
set_option relaxedAutoImplicit false

namespace TapeRunner

/-! ### Marks of brackets -/

namespace BracketScan

variable {scan : BracketScan} {text : List Char} {position : Nat}

/-- Every character that has been read has a mark, and a bracket is not marked as plain. -/
def Marked (scan : BracketScan) (text : List Char) : Prop :=
  scan.marks.size = text.length ∧ ∀ (position : Nat) (character : Char),
    text[position]? = some character → IsBracket character →
      scan.marks[position]? ≠ some Mark.plain

/-- Only a character that is no bracket gets a plain mark. -/
theorem getElem?_marks_read_eq_plain (scan : BracketScan) (character : Char)
    (hplain : (scan.read character).marks[position]? = some .plain) :
    scan.marks[position]? = some .plain ∨
      position = scan.marks.size ∧ ¬ IsBracket character := by
  have hpush {marks : Array Mark} {mark : Mark} (hsome : (marks.push mark)[position]? = some .plain)
      (hmark : mark ≠ Mark.plain) : marks[position]? = some .plain := by
    rw [Array.getElem?_push] at hsome
    split at hsome
    · exact absurd (Option.some.inj hsome) hmark
    · exact hsome
  by_cases hbracket : IsBracket character
  · left
    unfold read at hplain
    split at hplain
    · exact hpush hplain nofun
    · split at hplain
      · split at hplain
        · exact hpush hplain nofun
        · have hset := hpush hplain nofun
          rw [Array.getElem?_setIfInBounds] at hset
          split at hset
          · split at hset <;> simp at hset
          · exact hset
      · next hopen hclose => exact absurd hbracket (not_or.mpr ⟨hopen, hclose⟩)
  · rw [read_plain scan hbracket, Array.getElem?_push] at hplain
    split at hplain
    · next hend => exact .inr ⟨hend, hbracket⟩
    · exact .inl hplain

/-- Reading keeps the marks in order. -/
theorem Marked.read (hmarked : scan.Marked text) (character : Char) :
    (scan.read character).Marked (text ++ [character]) := by
  refine ⟨by simp [hmarked.1], fun position found hfound hbracket hplain ↦ ?_⟩
  have hsize := hmarked.1
  rw [List.getElem?_append] at hfound
  rcases scan.getElem?_marks_read_eq_plain character hplain with hold | ⟨hend, hnone⟩
  · obtain ⟨hinside, -⟩ := Array.getElem?_eq_some_iff.mp hold
    rw [if_pos (hsize ▸ hinside)] at hfound
    exact hmarked.2 position found hfound hbracket hold
  · rw [if_neg (by omega), hend, hsize, Nat.sub_self] at hfound
    exact hnone (Option.some.inj hfound ▸ hbracket)

end BracketScan

/-- A bracket of a program has a mark, and not a plain one. -/
theorem exists_mark_of_bracket (text : List Char) {position : Nat} {character : Char}
    (hfound : text[position]? = some character) (hbracket : IsBracket character) :
    ∃ mark, (bracketMarks text)[position]? = some mark ∧ mark ≠ Mark.plain := by
  have hread (later read : List Char) (scan : BracketScan) (hmarked : scan.Marked read) :
      (later.foldl BracketScan.read scan).Marked (read ++ later) := by
    induction later generalizing read scan with
    | nil => simpa using hmarked
    | cons character later ih => simpa using ih _ _ (hmarked.read character)
  obtain ⟨hsize, hmarks⟩ := hread text [] .empty ⟨rfl, by simp⟩
  have hinside : position < (bracketMarks text).size := by
    rw [size_bracketMarks]
    exact (List.getElem?_eq_some_iff.mp hfound).1
  refine ⟨_, Array.getElem?_eq_getElem hinside, fun hplain ↦ ?_⟩
  exact hmarks position character hfound hbracket ((Array.getElem?_eq_getElem hinside).trans
    (congrArg some hplain))

/-- The symbols of loops are spelled by brackets. -/
theorem isBracket_of_symbol {character : Char}
    (hsymbol : Symbol.ofChar character = .loopStart ∨ Symbol.ofChar character = .loopEnd) :
    IsBracket character := by
  by_cases hbracket : IsBracket character
  · exact hbracket
  · have hopen : character ≠ '[' := fun h ↦ hbracket (.inl h)
    have hclose : character ≠ ']' := fun h ↦ hbracket (.inr h)
    rw [Symbol.ofChar, if_neg hopen, if_neg hclose] at hsymbol
    split at hsymbol <;> simp at hsymbol

/-! ### Sound machines -/

namespace Machine

/-- The head is on the tape, and every bracket of the program has a mark. -/
structure Sound (machine : Machine) : Prop where
  head_lt : machine.head < machine.cells.size
  marked : ∀ (position : Nat) (character : Char), machine.code[position]? = some character →
    IsBracket character → ∃ mark, machine.marks[position]? = some mark ∧ mark ≠ Mark.plain

variable {machine : Machine}

theorem Sound.load (code : String) {size : Nat} (hsize : 0 < size) : (load code size).Sound where
  head_lt := by simpa [Machine.load] using hsize
  marked := fun position character hfound hbracket ↦
    exists_mark_of_bracket code.toList (by simpa [Machine.load] using hfound) hbracket

/-- What a command does: nothing but the head and the cells can change. -/
structure Touches (machine : Machine) (effect : Effect) : Prop where
  code_eq : effect.machine.code = machine.code
  marks_eq : effect.machine.marks = machine.marks
  counter_eq : effect.machine.counter = machine.counter
  head_lt : machine.head < machine.cells.size → effect.machine.head < effect.machine.cells.size

theorem Touches.quietly (machine : Machine) : machine.Touches machine.quietly :=
  ⟨rfl, rfl, rfl, id⟩

/-- Soundness does not depend on the counter. -/
theorem Touches.sound {effect : Effect} (htouches : machine.Touches effect)
    (hsound : machine.Sound) (counter : Nat) : { effect.machine with counter }.Sound where
  head_lt := htouches.head_lt hsound.head_lt
  marked := by
    rw [htouches.code_eq, htouches.marks_eq]
    exact hsound.marked

theorem update_cases (machine : Machine) (change : UInt8 → UInt8) :
    (∃ cells, machine.update change = .ok { machine with cells } ∧
        cells.size = machine.cells.size) ∨
      ¬ machine.head < machine.cells.size ∧ machine.update change = .error (.broken .cells) := by
  unfold update
  split
  · next hinside => exact .inl ⟨_, rfl, by simp⟩
  · next houtside => exact .inr ⟨houtside, rfl⟩

/-- A command is a fault or touches the head and the cells, unless the head has left the tape. -/
theorem perform_cases (machine : Machine) (offered : Option Int) (command : Command) :
    (∃ fault, machine.perform offered command = .error (.fault fault)) ∨
      (∃ effect, machine.perform offered command = .ok effect ∧ machine.Touches effect) ∨
      ¬ machine.head < machine.cells.size ∧
        machine.perform offered command = .error (.broken .cells) := by
  have hupdated (change : UInt8 → UInt8) (finish : Machine → Effect)
      (hfinish : ∀ next, (finish next).machine = next) :
      (∃ effect, (machine.update change).map finish = .ok effect ∧ machine.Touches effect) ∨
        ¬ machine.head < machine.cells.size ∧
          (machine.update change).map finish = .error (.broken .cells) := by
    rcases machine.update_cases change with ⟨cells, hupdate, hsize⟩ | ⟨houtside, hupdate⟩
    · refine .inl ⟨_, by rw [hupdate]; rfl, ?_⟩
      constructor
      · rw [hfinish]
      · rw [hfinish]
      · rw [hfinish]
      · rw [hfinish, hsize]
        exact id
    · exact .inr ⟨houtside, by rw [hupdate]; rfl⟩
  cases command with
  | right =>
    by_cases hlast : machine.cells.size ≤ machine.head + 1
    · exact .inl ⟨.overflow, if_pos hlast⟩
    · refine .inr (.inl ⟨_, if_neg hlast, ⟨rfl, rfl, rfl, fun _ ↦ ?_⟩⟩)
      exact Nat.lt_of_not_le hlast
  | left =>
    by_cases hfirst : machine.head = 0
    · exact .inl ⟨.underflow, if_pos hfirst⟩
    · refine .inr (.inl ⟨_, if_neg hfirst, ⟨rfl, rfl, rfl, fun hinside ↦ ?_⟩⟩)
      exact Nat.lt_of_le_of_lt (Nat.sub_le _ _) hinside
  | increment => exact .inr (hupdated _ _ fun _ ↦ rfl)
  | decrement => exact .inr (hupdated _ _ fun _ ↦ rfl)
  | write =>
    by_cases hinside : machine.head < machine.cells.size
    · have hcell := Array.getElem?_eq_getElem hinside
      refine .inr (.inl
        ⟨⟨machine, false, some machine.cells[machine.head]⟩, ?_, ⟨rfl, rfl, rfl, id⟩⟩)
      simp only [perform, hcell]
    · have hnone := Array.getElem?_eq_none (Nat.le_of_not_lt hinside)
      exact .inr (.inr ⟨hinside, by simp only [perform, hnone]⟩)
  | read =>
    cases offered with
    | none => exact .inl ⟨_, rfl⟩
    | some number => exact .inr (hupdated _ _ fun _ ↦ rfl)

/-- An instruction beside the program is a fault or a command. -/
theorem execute_cases (machine : Machine) (offered : Option Int) (instruction : String) :
    (∃ fault, machine.execute offered instruction = .error (.fault fault)) ∨
      ∃ command, machine.execute offered instruction = machine.perform offered command := by
  by_cases hloop : instruction ∈ ["", "[", "]", "[]"]
  · exact .inl ⟨.loopOutside instruction, if_pos hloop⟩
  · rw [execute, if_neg hloop]
    rcases instruction.toList with _ | ⟨character, _ | ⟨other, later⟩⟩
    · exact .inl ⟨_, rfl⟩
    · cases hcommand : Command.ofChar? character with
      | none => exact .inl ⟨.unknown instruction, by simp only [hcommand]⟩
      | some command => exact .inr ⟨command, by simp only [hcommand]⟩
    · exact .inl ⟨_, rfl⟩

/-- An instruction beside the program of a sound machine is a fault or touches the head and the
cells. -/
theorem Sound.execute_cases (hsound : machine.Sound) (offered : Option Int)
    (instruction : String) :
    (∃ fault, machine.execute offered instruction = .error (.fault fault)) ∨
      ∃ effect, machine.execute offered instruction = .ok effect ∧ machine.Touches effect := by
  rcases machine.execute_cases offered instruction with hfault | ⟨command, hcommand⟩
  · exact .inl hfault
  · rw [hcommand]
    rcases machine.perform_cases offered command with hfault | hdone | ⟨houtside, -⟩
    · exact .inl hfault
    · exact .inr hdone
    · exact absurd hsound.head_lt houtside

/-- At a bracket, a sound machine is at fault or goes somewhere. -/
theorem Sound.branch_cases (hsound : machine.Sound) {bracket : Char}
    (hfound : machine.code[machine.counter]? = some bracket) (hbracket : IsBracket bracket)
    (leaves : UInt8 → Bool) :
    (∃ fault, machine.branch bracket leaves = .error (.fault fault)) ∨
      ∃ counter, machine.branch bracket leaves = .ok counter := by
  obtain ⟨mark, hmark, hplain⟩ := hsound.marked _ _ hfound hbracket
  cases mark with
  | plain => exact absurd rfl hplain
  | unmatched => exact .inl ⟨.unmatched bracket machine.counter, by simp only [branch, hmark]⟩
  | partner target =>
    exact .inr ⟨_, machine.branch_of_partner bracket leaves hmark
      (Array.getElem?_eq_getElem hsound.head_lt)⟩

/-- A step of a sound machine is a fault or touches the head and the cells. -/
theorem Sound.advance_cases (hsound : machine.Sound) (offered : Option Int) :
    (∃ fault, machine.advance offered = .error (.fault fault)) ∨
      ∃ effect counter, machine.advance offered = .ok (effect, counter) ∧
        machine.Touches effect := by
  by_cases hinside : machine.counter < machine.code.size
  · have hfound := Array.getElem?_eq_getElem hinside
    rw [machine.advance_of_found offered hfound]
    have hturn (leaves : UInt8 → Bool)
        (hbracket : IsBracket machine.code[machine.counter]) :
        (∃ fault, (machine.branch machine.code[machine.counter] leaves).map (machine.quietly, ·) =
            .error (.fault fault)) ∨
          ∃ effect counter, (machine.branch machine.code[machine.counter] leaves).map
            (machine.quietly, ·) = .ok (effect, counter) ∧ machine.Touches effect := by
      rcases hsound.branch_cases hfound hbracket leaves with ⟨fault, hfault⟩ | ⟨counter, hgoes⟩
      · exact .inl ⟨fault, by rw [hfault]; rfl⟩
      · exact .inr ⟨machine.quietly, counter, by rw [hgoes]; rfl, .quietly machine⟩
    cases hsymbol : Symbol.ofChar machine.code[machine.counter] with
    | command command =>
      rcases machine.perform_cases offered command with
        ⟨fault, hfault⟩ | ⟨effect, hdone, htouches⟩ | ⟨houtside, -⟩
      · exact .inl ⟨fault, by simp only [hfault]; rfl⟩
      · exact .inr ⟨effect, machine.counter + 1, by simp only [hdone]; rfl, htouches⟩
      · exact absurd hsound.head_lt houtside
    | loopStart => exact hturn _ (isBracket_of_symbol (.inl hsymbol))
    | loopEnd => exact hturn _ (isBracket_of_symbol (.inr hsymbol))
    | comment => exact .inr ⟨machine.quietly, _, rfl, .quietly machine⟩
  · exact .inl ⟨.finished, by rw [advance, dif_neg hinside]⟩

end Machine

end TapeRunner
