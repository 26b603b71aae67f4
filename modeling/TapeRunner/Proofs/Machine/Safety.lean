import TapeRunner.Proofs.Machine.Depth
import TapeRunner.Proofs.Machine.Soundness

/-!
# Machines stay within their bounds

A machine is asked for steps of its program and for instructions beside it, in any order, with any
number offered as input or none (`Machine.Request`). A request that is refused leaves it as it is.
What a request can do to a machine is to perform a command, or to move the counter to the next
character or behind the partner of a bracket (`Machine.advance_inversion`). So the tape keeps its
length, the head stays on it and the counter does not leave the program by more than one
(`Machine.Within.grant_cases`), and as every look-up is one in these bounds, a request is granted or
is a fault, whatever came before it (`Machine.within_after_requests`).
-/

set_option autoImplicit false
set_option relaxedAutoImplicit false

namespace TapeRunner.Machine

/-- What a machine can be asked for: the next step of its program, or an instruction beside it. -/
inductive Request
  | step
  | execute (instruction : String)
deriving DecidableEq

/-- The machine that a request leads to, with a number offered as input or none. -/
def grant (machine : Machine) (offered : Option Int) : Request → Except Stop Machine
  | .step => (machine.advance offered).map fun done ↦ { done.1.machine with counter := done.2 }
  | .execute instruction => (machine.execute offered instruction).map (·.machine)

/-- The machine after a request. One that is refused leaves it as it is. -/
def after (machine : Machine) (request : Request × Option Int) : Machine :=
  match machine.grant request.2 request.1 with
  | .ok next => next
  | .error _ => machine

variable {machine next : Machine} {offered : Option Int} {effect : Effect} {counter size : Nat}
variable {code : String}

/-! ### What a request does -/

/-- What follows a part that can stop has a result if the part has one. -/
theorem exists_ok_of_map_eq_ok {First Second : Type} {first : Except Stop First}
    {finish : First → Second} {result : Second} (hmapped : first.map finish = .ok result) :
    ∃ found, first = .ok found ∧ finish found = result := by
  cases first with
  | error stop => cases hmapped
  | ok found => exact ⟨found, rfl, Except.ok.inj hmapped⟩

theorem size_cells_of_update {change : UInt8 → UInt8}
    (hdone : machine.update change = .ok next) : next.cells.size = machine.cells.size := by
  rcases machine.update_cases change with ⟨cells, hupdate, hsize⟩ | ⟨-, hbroken⟩
  · obtain rfl := Except.ok.inj (hupdate.symm.trans hdone)
    exact hsize
  · cases hbroken.symm.trans hdone

/-- A command does not change the length of the tape. -/
theorem size_cells_of_perform {command : Command}
    (hdone : machine.perform offered command = .ok effect) :
    effect.machine.cells.size = machine.cells.size := by
  have hupdated {change : UInt8 → UInt8} {finish : Machine → Effect}
      (hfinish : ∀ next, (finish next).machine = next)
      (hmapped : (machine.update change).map finish = .ok effect) :
      effect.machine.cells.size = machine.cells.size := by
    obtain ⟨next, hupdate, rfl⟩ := exists_ok_of_map_eq_ok hmapped
    rw [hfinish]
    exact size_cells_of_update hupdate
  cases command with
  | right | left | write =>
    simp only [perform] at hdone
    split at hdone
    · cases hdone <;> rfl
    · cases hdone <;> rfl
  | increment => exact hupdated (fun _ ↦ rfl) hdone
  | decrement => exact hupdated (fun _ ↦ rfl) hdone
  | read =>
    cases offered with
    | none => cases hdone
    | some number => exact hupdated (fun _ ↦ rfl) hdone

/-- A bracket sends the counter to the next character or behind its partner. -/
theorem branch_inversion {bracket : Char} {leaves : UInt8 → Bool}
    (hgoes : machine.branch bracket leaves = .ok counter) :
    counter = machine.counter + 1 ∨
      ∃ target, machine.marks[machine.counter]? = some (.partner target) ∧
        counter = target + 1 := by
  unfold branch at hgoes
  split at hgoes
  · cases hgoes
  · split at hgoes
    · cases hgoes
    · split at hgoes
      · split at hgoes
        · next target hmark => exact .inr ⟨target, hmark, (Except.ok.inj hgoes).symm⟩
        · cases hgoes
      · exact .inl (Except.ok.inj hgoes).symm

/-- A step performs a command and goes to the next character, or it changes nothing and goes there
or behind the partner of a bracket. -/
theorem advance_inversion (hdone : machine.advance offered = .ok (effect, counter)) :
    machine.counter < machine.code.size ∧
      ((∃ command, machine.perform offered command = .ok effect ∧
          counter = machine.counter + 1) ∨
        effect = machine.quietly ∧ (counter = machine.counter + 1 ∨
          ∃ target, machine.marks[machine.counter]? = some (.partner target) ∧
            counter = target + 1)) := by
  have hturned {bracket : Char} {leaves : UInt8 → Bool}
      (hmapped : (machine.branch bracket leaves).map (machine.quietly, ·) =
        .ok (effect, counter)) :
      effect = machine.quietly ∧ (counter = machine.counter + 1 ∨
        ∃ target, machine.marks[machine.counter]? = some (.partner target) ∧
          counter = target + 1) := by
    obtain ⟨place, hgoes, ⟨⟩⟩ := exists_ok_of_map_eq_ok hmapped
    exact ⟨rfl, branch_inversion hgoes⟩
  by_cases hinside : machine.counter < machine.code.size
  · refine ⟨hinside, ?_⟩
    rw [machine.advance_of_found offered (Array.getElem?_eq_getElem hinside)] at hdone
    split at hdone
    · next command _ =>
      obtain ⟨found, hperform, ⟨⟩⟩ := exists_ok_of_map_eq_ok hdone
      exact .inl ⟨command, hperform, rfl⟩
    · exact .inr (hturned hdone)
    · exact .inr (hturned hdone)
    · cases hdone
      exact .inr ⟨rfl, .inl rfl⟩
  · rw [advance, dif_neg hinside] at hdone
    cases hdone

/-- An instruction beside the program performs a command. -/
theorem execute_inversion {instruction : String}
    (hdone : machine.execute offered instruction = .ok effect) :
    ∃ command, machine.perform offered command = .ok effect := by
  rcases machine.execute_cases offered instruction with ⟨fault, hfault⟩ | ⟨command, hcommand⟩
  · cases hfault.symm.trans hdone
  · exact ⟨command, hcommand.symm.trans hdone⟩

/-! ### Bounds -/

/-- A machine works on a program, with its bracket marks, and on a tape of a size: the head is on
the tape, and the counter in the program or at its end. -/
structure Within (code : String) (size : Nat) (machine : Machine) : Prop where
  code_eq : machine.code = code.toList.toArray
  marks_eq : machine.marks = bracketMarks code.toList
  size_eq : machine.cells.size = size
  head_lt : machine.head < size
  counter_le : machine.counter ≤ code.length

theorem within_load (code : String) (hsize : 0 < size) : (load code size).Within code size where
  code_eq := rfl
  marks_eq := rfl
  size_eq := Array.size_replicate
  head_lt := hsize
  counter_le := Nat.zero_le _

namespace Within

variable (hwithin : machine.Within code size)
include hwithin

theorem sound : machine.Sound where
  head_lt := by
    rw [hwithin.size_eq]
    exact hwithin.head_lt
  marked := fun position character hfound hbracket ↦ by
    rw [hwithin.marks_eq]
    exact exists_mark_of_bracket code.toList (by simpa [hwithin.code_eq] using hfound) hbracket

/-- The partner of a bracket is in the program. -/
theorem target_lt {position target : Nat}
    (hmark : machine.marks[position]? = some (.partner target)) : target < code.length := by
  rw [hwithin.marks_eq, getElem?_bracketMarks_eq_partner_iff] at hmark
  rw [← String.length_toList]
  rcases hmark with hloop | hloop
  · exact hloop.stop_lt
  · exact Nat.lt_trans hloop.start_lt hloop.stop_lt

/-- What is looked up for a bracket under the counter is there: it has a partner in the program, or
is marked as having none. -/
theorem mark_cases {bracket : Char} (hfound : machine.code[machine.counter]? = some bracket)
    (hbracket : IsBracket bracket) :
    machine.marks[machine.counter]? = some .unmatched ∨
      ∃ target < code.length, machine.marks[machine.counter]? = some (.partner target) := by
  obtain ⟨mark, hmark, hplain⟩ := hwithin.sound.marked _ _ hfound hbracket
  cases mark with
  | plain => exact absurd rfl hplain
  | unmatched => exact .inl hmark
  | partner target => exact .inr ⟨target, hwithin.target_lt hmark, hmark⟩

/-- What touches the head and the cells, and leaves the tape its length, stays within the bounds. -/
theorem of_touches (htouches : machine.Touches effect)
    (hsize : effect.machine.cells.size = machine.cells.size) (hcounter : counter ≤ code.length) :
    { effect.machine with counter }.Within code size where
  code_eq := htouches.code_eq.trans hwithin.code_eq
  marks_eq := htouches.marks_eq.trans hwithin.marks_eq
  size_eq := hsize.trans hwithin.size_eq
  head_lt := by
    rw [← hwithin.size_eq, ← hsize]
    exact htouches.head_lt hwithin.sound.head_lt
  counter_le := hcounter

/-- A request is a fault or leads to a machine within the bounds. -/
theorem grant_cases (offered : Option Int) (request : Request) :
    (∃ fault, machine.grant offered request = .error (.fault fault)) ∨
      ∃ next, machine.grant offered request = .ok next ∧ next.Within code size := by
  cases request with
  | step =>
    rcases hwithin.sound.advance_cases offered with
      ⟨fault, hfault⟩ | ⟨effect, counter, hdone, htouches⟩
    · exact .inl ⟨fault, by simp only [grant, hfault]; rfl⟩
    · refine .inr ⟨_, by simp only [grant, hdone]; rfl, ?_⟩
      -- A sound step only touches the head and the cells. Where it sends the counter is inverted.
      obtain ⟨hinside, hhow⟩ := advance_inversion hdone
      have hnext : machine.counter + 1 ≤ code.length := by
        rw [hwithin.code_eq, List.size_toArray, String.length_toList] at hinside
        exact hinside
      rcases hhow with ⟨command, hperform, rfl⟩ | ⟨rfl, rfl | ⟨target, hmark, rfl⟩⟩
      · exact hwithin.of_touches htouches (size_cells_of_perform hperform) hnext
      · exact hwithin.of_touches htouches rfl hnext
      · exact hwithin.of_touches htouches rfl (hwithin.target_lt hmark)
  | execute instruction =>
    rcases hwithin.sound.execute_cases offered instruction with
      ⟨fault, hfault⟩ | ⟨effect, hdone, htouches⟩
    · exact .inl ⟨fault, by simp only [grant, hfault]; rfl⟩
    · obtain ⟨command, hperform⟩ := execute_inversion hdone
      refine .inr ⟨effect.machine, by simp only [grant, hdone]; rfl, ?_⟩
      have hcounter := htouches.counter_eq ▸ hwithin.counter_le
      exact hwithin.of_touches htouches (size_cells_of_perform hperform) hcounter

theorem after (request : Request × Option Int) : (machine.after request).Within code size := by
  unfold Machine.after
  rcases hwithin.grant_cases request.2 request.1 with ⟨fault, hfault⟩ | ⟨next, hdone, hnext⟩
  · rw [hfault]
    exact hwithin
  · rw [hdone]
    exact hnext

theorem afterAll (requests : List (Request × Option Int)) :
    (requests.foldl Machine.after machine).Within code size := by
  induction requests generalizing machine with
  | nil => exact hwithin
  | cons request later ih => exact ih (hwithin.after request)

end Within

/-- Machines stay within their bounds and never break. After any requests, whatever input they are
offered and whether they are granted or not, a machine has the program and the length of tape that
it was loaded with, bytes in its cells, its head on the tape and its counter in the program or at
its end. A bracket under the counter is found in the table, and the next request, whatever it is, is
granted or is a fault. -/
theorem within_after_requests (code : String) (hsize : 0 < size)
    (requests : List (Request × Option Int)) :
    let machine := requests.foldl after (load code size)
    machine.code = code.toList.toArray ∧ machine.cells.size = size ∧
      (∀ cell ∈ machine.cells, cell.toNat ≤ 255) ∧ machine.head < machine.cells.size ∧
      machine.counter ≤ code.length ∧
      (∀ bracket, machine.code[machine.counter]? = some bracket → IsBracket bracket →
        machine.marks[machine.counter]? = some .unmatched ∨
          ∃ target < code.length, machine.marks[machine.counter]? = some (.partner target)) ∧
      ∀ offered request, (∃ next, machine.grant offered request = .ok next) ∨
        ∃ fault, machine.grant offered request = .error (.fault fault) := by
  intro machine
  have hwithin : machine.Within code size := (within_load code hsize).afterAll requests
  refine ⟨hwithin.code_eq, hwithin.size_eq, fun cell _ ↦ ?_, hwithin.sound.head_lt,
    hwithin.counter_le, fun _ ↦ hwithin.mark_cases, fun offered request ↦ ?_⟩
  · exact Nat.le_of_lt_succ cell.toNat_lt
  · rcases hwithin.grant_cases offered request with hfault | ⟨next, hdone, -⟩
    · exact .inr hfault
    · exact .inl ⟨next, hdone⟩

/-- A program waits in its loop for an input that does not come, and an instruction beside it does
not get past the end of the tape. -/
theorem within_after_requests_waiting :
    let machine := [(Request.step, none), (.step, none), (.step, none),
      (.execute ">", some (-1))].foldl after (load "+[,]" 1)
    machine.counter = 2 ∧ machine.head < machine.cells.size ∧
      (∃ fault, machine.grant none .step = .error (.fault fault)) ∧
        ∃ next, machine.grant (some (-1)) .step = .ok next := by
  intro machine
  obtain ⟨-, -, -, hhead, -, -, hgrant⟩ := within_after_requests "+[,]" Nat.zero_lt_one
    [(Request.step, none), (.step, none), (.step, none), (.execute ">", some (-1))]
  have hrefused : (machine.grant none .step).isOk = false := by decide +kernel
  have hgranted : (machine.grant (some (-1)) .step).isOk = true := by decide +kernel
  refine ⟨by decide +kernel, hhead, ?_, ?_⟩
  · rcases hgrant none .step with ⟨next, hdone⟩ | hfault
    · rw [hdone] at hrefused
      cases hrefused
    · exact hfault
  · rcases hgrant (some (-1)) .step with hdone | ⟨fault, hfault⟩
    · exact hdone
    · rw [hfault] at hgranted
      cases hgranted

end TapeRunner.Machine
