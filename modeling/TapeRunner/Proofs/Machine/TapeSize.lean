import Mathlib.Data.List.Forall2
import TapeRunner.Proofs.Machine.Safety

/-!
# Longer tapes

A tape is made longer by zeros beyond its last cell (`Machine.widen`). A step that is no overflow
does not see them: it does the same on the longer tape, and they stay zero (`Rig.step_widen`). So
the record of any number of calls of the step, refused ones among them, is the same on the longer
tape if none of them overflows (`Rig.calls_widen`), and the two rigs differ after each call in the
length of the tape only (`Rig.calls_of_longer_tape`).
-/

set_option autoImplicit false
set_option relaxedAutoImplicit false

namespace TapeRunner

/-! ### Machines on a longer tape -/

namespace Machine

/-- The machine with a number of further cells, all zero, beyond its tape. -/
def widen (machine : Machine) (extra : Nat) : Machine :=
  { machine with cells := machine.cells ++ Array.replicate extra 0 }

variable {machine : Machine}

theorem load_widen (code : String) (size extra : Nat) :
    (load code size).widen extra = load code (size + extra) := by
  simp only [load, widen, Array.replicate_append_replicate]

theorem size_cells_widen (machine : Machine) (extra : Nat) :
    (machine.widen extra).cells.size = machine.cells.size + extra := by
  simp [widen]

/-- The cells of the tape are where they were. -/
theorem getElem?_cells_widen (extra : Nat) {position : Nat}
    (hinside : position < machine.cells.size) :
    (machine.widen extra).cells[position]? = machine.cells[position]? :=
  Array.getElem?_append_left hinside

/-- The cells beyond it are zero. -/
theorem getElem?_cells_widen_beyond {extra position : Nat}
    (hbeyond : machine.cells.size ≤ position)
    (hinside : position < (machine.widen extra).cells.size) :
    (machine.widen extra).cells[position]? = some 0 := by
  rw [size_cells_widen] at hinside
  rw [widen, Array.getElem?_append_right hbeyond, Array.getElem?_replicate, if_pos (by omega)]

/-- Changing the cell under the head does not meet the further cells. -/
theorem update_widen (hinside : machine.head < machine.cells.size) (change : UInt8 → UInt8)
    (extra : Nat) :
    (machine.widen extra).update change = (machine.update change).map (·.widen extra) := by
  have hinside' : machine.head < (machine.cells ++ Array.replicate extra (0 : UInt8)).size := by
    rw [Array.size_append]
    omega
  simp only [update, widen, dif_pos hinside, dif_pos hinside', Except.map,
    Array.getElem_append_left hinside, Array.set_append_left hinside]

end Machine

/-- The effect on a tape with further cells. -/
def Effect.widen (effect : Effect) (extra : Nat) : Effect :=
  { effect with machine := effect.machine.widen extra }

namespace Machine

variable {machine : Machine}

/-- A command does the same on the longer tape, unless it moves beyond the shorter one. -/
theorem perform_widen (hinside : machine.head < machine.cells.size) (offered : Option Int)
    (command : Command) (hfits : machine.perform offered command ≠ .error (.fault .overflow))
    (extra : Nat) :
    (machine.widen extra).perform offered command =
      (machine.perform offered command).map (·.widen extra) := by
  have hupdate (change : UInt8 → UInt8) (finish : Machine → Effect)
      (hfinish : ∀ next, finish (next.widen extra) = (finish next).widen extra) :
      ((machine.widen extra).update change).map finish =
        ((machine.update change).map finish).map (·.widen extra) := by
    rw [update_widen hinside]
    cases machine.update change with
    | error stop => rfl
    | ok next => exact congrArg Except.ok (hfinish next)
  cases command with
  | right =>
    have hroom : ¬ machine.cells.size ≤ machine.head + 1 := fun hlast ↦ hfits (if_pos hlast)
    have hroom' : ¬ (machine.widen extra).cells.size ≤ (machine.widen extra).head + 1 := by
      rw [size_cells_widen]
      change ¬ machine.cells.size + extra ≤ machine.head + 1
      omega
    simp only [perform, if_neg hroom, if_neg hroom']
    rfl
  | left =>
    by_cases hfirst : machine.head = 0
    · have hfirst' : (machine.widen extra).head = 0 := hfirst
      simp only [perform, if_pos hfirst, if_pos hfirst']
      rfl
    · have hfirst' : ¬ (machine.widen extra).head = 0 := hfirst
      simp only [perform, if_neg hfirst, if_neg hfirst']
      rfl
  | increment => exact hupdate _ _ fun _ ↦ rfl
  | decrement => exact hupdate _ _ fun _ ↦ rfl
  | write =>
    have hcell : (machine.widen extra).cells[(machine.widen extra).head]? =
        some machine.cells[machine.head] :=
      (getElem?_cells_widen extra hinside).trans (Array.getElem?_eq_getElem hinside)
    simp only [perform, hcell, Array.getElem?_eq_getElem hinside]
    rfl
  | read =>
    cases offered with
    | none => rfl
    | some number => exact hupdate _ _ fun _ ↦ rfl

/-- A bracket looks at the cell under the head only. -/
theorem branch_widen (hinside : machine.head < machine.cells.size) (bracket : Char)
    (leaves : UInt8 → Bool) (extra : Nat) :
    (machine.widen extra).branch bracket leaves = machine.branch bracket leaves := by
  have hcell := getElem?_cells_widen extra hinside
  rw [branch, branch, show (machine.widen extra).cells[(machine.widen extra).head]? =
    machine.cells[machine.head]? from hcell]
  rfl

/-- The symbol under the counter does the same on the longer tape, unless it moves beyond the
shorter one. -/
theorem advance_widen (hinside : machine.head < machine.cells.size) (offered : Option Int)
    (hfits : machine.advance offered ≠ .error (.fault .overflow)) (extra : Nat) :
    (machine.widen extra).advance offered =
      (machine.advance offered).map fun done ↦ (done.1.widen extra, done.2) := by
  have hturn (branched : Except Stop Nat) :
      branched.map ((machine.widen extra).quietly, ·) =
        (branched.map (machine.quietly, ·)).map fun done ↦ (done.1.widen extra, done.2) := by
    cases branched <;> rfl
  cases hfound : machine.code[machine.counter]? with
  | none =>
    have houtside : ¬ machine.counter < machine.code.size := by
      simpa using Array.getElem?_eq_none_iff.mp hfound
    have houtside' : ¬ (machine.widen extra).counter < (machine.widen extra).code.size := houtside
    rw [advance, advance, dif_neg houtside, dif_neg houtside']
    rfl
  | some character =>
    have hfound' : (machine.widen extra).code[(machine.widen extra).counter]? = some character :=
      hfound
    rw [machine.advance_of_found offered hfound] at hfits ⊢
    rw [(machine.widen extra).advance_of_found offered hfound']
    cases hsymbol : Symbol.ofChar character with
    | command command =>
      have hfits' : machine.perform offered command ≠ .error (.fault .overflow) := by
        intro hover
        simp only [hsymbol, hover] at hfits
        exact hfits rfl
      simp only [perform_widen hinside offered command hfits']
      cases machine.perform offered command <;> rfl
    | loopStart =>
      simp only [branch_widen hinside]
      exact hturn _
    | loopEnd =>
      simp only [branch_widen hinside]
      exact hturn _
    | comment => rfl

end Machine

/-! ### Rigs on a longer tape -/

namespace Rig

/-- The rig with a number of further cells, all zero, beyond its tape. -/
def widen (rig : Rig) (extra : Nat) : Rig := { rig with machine := rig.machine.widen extra }

variable {rig narrow : Rig} {code input : String} {size : Nat}

/-- A step does the same on the longer tape, unless it moves beyond the shorter one. -/
theorem step_widen (hinside : rig.machine.head < rig.machine.cells.size)
    (hfits : rig.step ≠ .error (.fault .overflow)) (extra : Nat) :
    (rig.widen extra).step = rig.step.map (·.widen extra) := by
  have hfits' : rig.machine.advance rig.supply.offer ≠ .error (.fault .overflow) := by
    intro hover
    rw [step_eq_map, hover] at hfits
    exact hfits rfl
  have hwide := Machine.advance_widen hinside rig.supply.offer hfits' extra
  rw [step_eq_map, step_eq_map, show (rig.widen extra).machine.advance
    (rig.widen extra).supply.offer = _ from hwide]
  cases rig.machine.advance rig.supply.offer <;> rfl

/-- One call of the step: the reason if it is refused, and the rig after it. A refused step leaves
the rig as it is. -/
def call (rig : Rig) : Option Stop × Rig :=
  match rig.step with
  | .ok next => (none, next)
  | .error stop => (some stop, rig)

/-- The record of a number of calls, one after the other. A refused one does not end them. -/
def calls : Nat → Rig → List (Option Stop × Rig)
  | 0, _ => []
  | count + 1, rig => rig.call :: calls count rig.call.2

/-- A call asks the machine for a step. -/
theorem machine_call (rig : Rig) :
    rig.call.2.machine = rig.machine.after (.step, rig.supply.offer) := by
  rw [call, step_eq_map, Machine.after, Machine.grant]
  cases rig.machine.advance rig.supply.offer <;> rfl

/-- A machine within its bounds is within them after a call. -/
theorem within_call (hwithin : rig.machine.Within code size) :
    rig.call.2.machine.Within code size := by
  rw [machine_call]
  exact hwithin.after _

/-- The machine is within its bounds after each of a number of calls. -/
theorem within_calls (hwithin : rig.machine.Within code size) (count : Nat) :
    ∀ call ∈ rig.calls count, call.2.machine.Within code size := by
  induction count generalizing rig with
  | zero => exact fun _ hnone ↦ absurd hnone List.not_mem_nil
  | succ count ih => exact List.forall_mem_cons.mpr ⟨within_call hwithin, ih (within_call hwithin)⟩

/-- A call is the same on the longer tape, unless it is an overflow. -/
theorem call_widen (hinside : rig.machine.head < rig.machine.cells.size)
    (hfits : rig.call.1 ≠ some (.fault .overflow)) (extra : Nat) :
    (rig.widen extra).call = (rig.call.1, rig.call.2.widen extra) := by
  have hfits' : rig.step ≠ .error (.fault .overflow) := by
    intro hover
    rw [call, hover] at hfits
    exact hfits rfl
  rw [call, call, step_widen hinside hfits']
  cases rig.step <;> rfl

/-- Calls without an overflow leave the same record on the longer tape. -/
theorem calls_widen (hwithin : rig.machine.Within code size) (count : Nat)
    (hfits : ∀ call ∈ rig.calls count, call.1 ≠ some (.fault .overflow)) (extra : Nat) :
    (rig.widen extra).calls count =
      (rig.calls count).map fun call ↦ (call.1, call.2.widen extra) := by
  induction count generalizing rig with
  | zero => rfl
  | succ count ih =>
    obtain ⟨hfirst, hlater⟩ := List.forall_mem_cons.mp hfits
    rw [calls, calls, call_widen hwithin.sound.head_lt hfirst, List.map_cons,
      ih (within_call hwithin) hlater]

/-! ### What can be seen of the length -/

/-- Two rigs on tapes of two lengths differ in the length only: they are at the same place of the
same program, with the same input left and the same output, the cells of the shorter tape are the
first of the longer one, and those beyond them are zero. -/
structure Extends (size larger : Int) (wide narrow : Rig) : Prop where
  code_eq : wide.machine.code = narrow.machine.code
  counter_eq : wide.machine.counter = narrow.machine.counter
  head_eq : wide.machine.head = narrow.machine.head
  output_eq : wide.output = narrow.output
  supply_eq : wide.supply = narrow.supply
  size_eq : (narrow.machine.cells.size : Int) = size
  larger_eq : (wide.machine.cells.size : Int) = larger
  cells_eq : ∀ position : Nat, position < size →
    wide.machine.cells[position]? = narrow.machine.cells[position]?
  cells_beyond : ∀ position : Nat, size ≤ position → position < larger →
    wide.machine.cells[position]? = some 0

theorem extends_widen (hwithin : rig.machine.Within code size) (extra : Nat) :
    Extends size (size + extra : Nat) (rig.widen extra) rig where
  code_eq := rfl
  counter_eq := rfl
  head_eq := rfl
  output_eq := rfl
  supply_eq := rfl
  size_eq := congrArg Nat.cast hwithin.size_eq
  larger_eq := by
    have hsize := Machine.size_cells_widen rig.machine extra
    rw [hwithin.size_eq] at hsize
    exact congrArg Nat.cast hsize
  cells_eq := fun position hinside ↦ by
    refine Machine.getElem?_cells_widen extra ?_
    rw [hwithin.size_eq]
    exact Int.ofNat_lt.mp hinside
  cells_beyond := fun position hbeyond hinside ↦ by
    refine Machine.getElem?_cells_widen_beyond ?_ ?_
    · rw [hwithin.size_eq]
      exact Int.ofNat_le.mp hbeyond
    · rw [Machine.size_cells_widen, hwithin.size_eq]
      exact Int.ofNat_lt.mp hinside

/-- The length of a tape matters at its right end only. A program that is loaded on a tape loads on
every longer one, and as long as no call overflows the shorter tape, each call goes the same way on
both, with the same reason if it is refused, and leaves rigs that differ in the length only. -/
theorem calls_of_longer_tape {size larger : Int} (hload : load? code size input = some narrow)
    (hlarger : size ≤ larger) (count : Nat)
    (hfits : ∀ call ∈ narrow.calls count, call.1 ≠ some (.fault .overflow)) :
    ∃ wide, load? code larger input = some wide ∧
      List.Forall₂ (fun call call' ↦ call'.1 = call.1 ∧ Extends size larger call'.2 call.2)
        (narrow.calls count) (wide.calls count) := by
  have hpositive : ¬ size ≤ 0 := fun hnone ↦ by simp [load?, hnone] at hload
  obtain ⟨cells, rfl⟩ := Int.eq_ofNat_of_zero_le (by omega : 0 ≤ size)
  obtain ⟨extra, hextra⟩ := Int.le.dest hlarger
  obtain rfl : larger = ((cells + extra : Nat) : Int) := by omega
  rw [load?, if_neg hpositive, Int.toNat_natCast] at hload
  obtain rfl := Option.some.inj hload
  have hwithin : (Machine.load code cells).Within code cells := Machine.within_load code (by omega)
  refine ⟨Rig.widen ⟨.load code cells, .ofText input, .empty⟩ extra, ?_, ?_⟩
  · rw [load?, if_neg (by omega), widen, Machine.load_widen]
    rfl
  · rw [calls_widen hwithin count hfits, List.forall₂_map_right_iff, List.forall₂_same]
    intro call hcall
    exact ⟨rfl, extends_widen (within_calls hwithin count call hcall) extra⟩

/-- A program that goes to its last cell and back, copies one byte and is then out of input, on
tapes of two and of five cells. -/
theorem calls_of_longer_tape_copy :
    ∃ narrow wide, load? ">,.<,+" 2 "A" = some narrow ∧ load? ">,.<,+" 5 "A" = some wide ∧
      List.Forall₂ (fun call call' ↦ call'.1 = call.1 ∧ Extends 2 5 call'.2 call.2)
        (narrow.calls 6) (wide.calls 6) ∧
      (narrow.calls 6).map (·.1) =
        [none, none, none, none, some (.fault .noInput), some (.fault .noInput)] := by
  have hnarrow : load? ">,.<,+" 2 "A" = some _ := rfl
  have hlarger : (2 : Int) ≤ 5 := by decide
  obtain ⟨wide, hwide, hsame⟩ := calls_of_longer_tape hnarrow hlarger 6 (by decide +kernel)
  exact ⟨_, wide, hnarrow, hwide, hsame, by decide +kernel⟩

end Rig

end TapeRunner
