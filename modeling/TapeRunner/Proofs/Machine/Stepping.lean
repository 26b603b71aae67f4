import TapeRunner.Machine.Rig

/-!
# Steps of a rig

One step of a rig is the step of its machine, connected to the two ends (`step_eq_map`), and what
the machine does depends on the character under the counter (`Machine.advance_of_found`).

`Rig.stepTimes` composes (`stepTimes_add_of_eq`) and cannot go past a rig that refuses its next
step, so a rig comes to a halt at most once: the number of steps, the way in which it halts and
the rig in which it does are determined (`Rig.Halts.unique`). A run either reaches the end of its
program or a fault; `Rig.Halts` says which, after how many steps and where.
-/

set_option autoImplicit false
set_option relaxedAutoImplicit false

namespace TapeRunner

/-- What a machine does at a character. -/
theorem Machine.advance_of_found (machine : Machine) (offered : Option Int) {character : Char}
    (hfound : machine.code[machine.counter]? = some character) :
    machine.advance offered = match Symbol.ofChar character with
      | .command command => (machine.perform offered command).map (·, machine.counter + 1)
      | .loopStart => (machine.branch character (· == 0)).map (machine.quietly, ·)
      | .loopEnd => (machine.branch character (· != 0)).map (machine.quietly, ·)
      | .comment => .ok (machine.quietly, machine.counter + 1) := by
  obtain ⟨hinside, rfl⟩ := Array.getElem?_eq_some_iff.mp hfound
  exact dif_pos hinside

/-- Where a bracket with a partner sends the counter. -/
theorem Machine.branch_of_partner (machine : Machine) (bracket : Char) (leaves : UInt8 → Bool)
    {target : Nat} {cell : UInt8} (hmark : machine.marks[machine.counter]? = some (.partner target))
    (hcell : machine.cells[machine.head]? = some cell) :
    machine.branch bracket leaves =
      .ok (if leaves cell then target + 1 else machine.counter + 1) := by
  simp only [branch, hmark, hcell]
  split <;> rfl

namespace Rig

variable {rig middle last other : Rig} {count further : Nat}

/-- A step is what the machine does, with its effect settled and the counter moved. -/
theorem step_eq_map (rig : Rig) : rig.step = (rig.machine.advance rig.supply.offer).map fun done ↦
    (rig.settle done.1).resumeAt done.2 := by
  rw [step]
  cases rig.machine.advance rig.supply.offer <;> rfl

/-! ### Composing counted steps -/

@[simp] theorem stepTimes_zero (rig : Rig) : stepTimes 0 rig = (none, rig) := rfl

/-- A step that succeeds comes first. -/
theorem stepTimes_succ_of_step (hstep : rig.step = .ok middle) (count : Nat) :
    stepTimes (count + 1) rig = stepTimes count middle := by
  rw [stepTimes, hstep]

/-- Steps that succeed can be split off. -/
theorem stepTimes_add_of_eq (hfirst : stepTimes count rig = (none, middle)) (further : Nat) :
    stepTimes (count + further) rig = stepTimes further middle := by
  induction count generalizing rig with
  | zero =>
    cases hfirst
    rw [Nat.zero_add]
  | succ count ih =>
    rw [Nat.succ_add, stepTimes]
    rw [stepTimes] at hfirst
    cases hstep : rig.step with
    | error stop =>
      rw [hstep] at hfirst
      cases hfirst
    | ok next =>
      rw [hstep] at hfirst
      exact ih hfirst

/-- Whatever makes some steps makes fewer steps as well. -/
theorem exists_stepTimes_of_add (hwhole : stepTimes (count + further) rig = (none, last)) :
    ∃ middle, stepTimes count rig = (none, middle) := by
  induction count generalizing rig with
  | zero => exact ⟨rig, rfl⟩
  | succ count ih =>
    rw [Nat.succ_add, stepTimes] at hwhole
    cases hstep : rig.step with
    | error stop =>
      rw [hstep] at hwhole
      cases hwhole
    | ok next =>
      rw [hstep] at hwhole
      obtain ⟨middle, hmiddle⟩ := ih hwhole
      exact ⟨middle, by rw [stepTimes_succ_of_step hstep, hmiddle]⟩

/-- No steps succeed beyond a rig that refuses its next one. -/
theorem le_of_stepTimes {stop : Stop} (hrefused : stepTimes count rig = (none, middle))
    (hstep : middle.step = .error stop) (hother : stepTimes further rig = (none, other)) :
    further ≤ count := by
  rcases Nat.lt_or_ge count further with hmore | hless
  · obtain ⟨rest, rfl⟩ : ∃ rest, further = count + (rest + 1) := ⟨further - count - 1, by omega⟩
    rw [stepTimes_add_of_eq hrefused, stepTimes, hstep] at hother
    cases hother
  · exact hless

/-! ### Halting -/

/-- Past the last character there is no step. -/
theorem step_of_atEnd (hend : rig.machine.atEnd = true) : rig.step = .error (.fault .finished) := by
  have houtside : ¬ rig.machine.counter < rig.machine.code.size := by
    simpa [Machine.atEnd] using hend
  rw [step, Machine.advance, dif_neg houtside]
  rfl

/-- Making `count` steps, the rig comes to `last`, where it stands at the end of its program or, if
there is a fault, is refused the next step before the end. -/
def Halts (rig : Rig) (count : Nat) (fault? : Option Fault) (last : Rig) : Prop :=
  stepTimes count rig = (none, last) ∧
    match fault? with
    | none => last.machine.atEnd = true
    | some fault => last.machine.atEnd = false ∧ last.step = .error (.fault fault)

/-- A rig that has come to a halt is at fault if it steps on. -/
theorem Halts.exists_fault {fault? : Option Fault} (hhalts : rig.Halts count fault? last) :
    ∃ fault, last.step = .error (.fault fault) := by
  cases fault? with
  | none => exact ⟨_, step_of_atEnd hhalts.2⟩
  | some fault => exact ⟨fault, hhalts.2.2⟩

/-- The steps that succeed are at most those up to the halt. -/
theorem Halts.le_count {fault? : Option Fault} (hhalts : rig.Halts count fault? last)
    (hother : stepTimes further rig = (none, other)) : further ≤ count := by
  obtain ⟨_, hstop⟩ := hhalts.exists_fault
  exact le_of_stepTimes hhalts.1 hstop hother

/-- Where steps have succeeded on the way to the halt, the next one does as well, unless it is the
halt already. -/
theorem Halts.progress {fault? : Option Fault} (hhalts : rig.Halts count fault? last)
    (hother : stepTimes further rig = (none, other)) :
    (further = count ∧ other = last) ∨
      ∃ next, other.step = .ok next ∧ stepTimes (further + 1) rig = (none, next) := by
  rcases Nat.lt_or_ge further count with hbefore | hafter
  · obtain ⟨rest, rfl⟩ : ∃ rest, count = further + 1 + rest := ⟨count - further - 1, by omega⟩
    obtain ⟨next, hnext⟩ := exists_stepTimes_of_add hhalts.1
    refine .inr ⟨next, ?_, hnext⟩
    rw [stepTimes_add_of_eq hother, stepTimes] at hnext
    cases hstep : other.step with
    | ok middle =>
      rw [hstep] at hnext
      exact congrArg Except.ok (congrArg Prod.snd hnext)
    | error stop =>
      rw [hstep] at hnext
      cases hnext
  · obtain rfl : further = count := Nat.le_antisymm (hhalts.le_count hother) hafter
    exact .inl ⟨rfl, congrArg Prod.snd (hother.symm.trans hhalts.1)⟩

/-- A rig halts in one way only. -/
theorem Halts.unique {fault? fault'? : Option Fault} (hhalts : rig.Halts count fault? last)
    (hagain : rig.Halts further fault'? other) :
    further = count ∧ fault'? = fault? ∧ other = last := by
  obtain rfl : further = count :=
    Nat.le_antisymm (hhalts.le_count hagain.1) (hagain.le_count hhalts.1)
  obtain rfl : other = last := by
    have hsame := hagain.1.symm.trans hhalts.1
    exact congrArg Prod.snd hsame
  refine ⟨rfl, ?_, rfl⟩
  obtain ⟨-, hhow⟩ := hhalts
  obtain ⟨-, hhow'⟩ := hagain
  cases fault? <;> cases fault'? <;> simp_all

/-- A rig halts one step later than the rig that its step leads to. -/
theorem Halts.of_step {next : Rig} {fault? : Option Fault} (hstep : rig.step = .ok next)
    (hhalts : next.Halts count fault? last) : rig.Halts (count + 1) fault? last :=
  ⟨(stepTimes_succ_of_step hstep count).trans hhalts.1, hhalts.2⟩

/-- From each place on the way to the halt, the rest of the way leads there. -/
theorem Halts.of_stepTimes {fault? : Option Fault} (hhalts : rig.Halts count fault? last)
    (hother : stepTimes further rig = (none, other)) :
    ∃ rest, count = further + rest ∧ other.Halts rest fault? last := by
  obtain ⟨rest, rfl⟩ : ∃ rest, count = further + rest :=
    ⟨count - further, by have hle := hhalts.le_count hother; omega⟩
  exact ⟨rest, rfl, (stepTimes_add_of_eq hother rest).symm.trans hhalts.1, hhalts.2⟩

/-- A rig that has some way to its halt makes the first step of it. -/
theorem Halts.exists_step {fault? : Option Fault} (hhalts : rig.Halts (count + 1) fault? last) :
    ∃ next, rig.step = .ok next ∧ next.Halts count fault? last := by
  rcases hhalts.progress (stepTimes_zero rig) with ⟨hnow, -⟩ | ⟨next, hstep, -⟩
  · exact absurd hnow (Nat.succ_ne_zero count).symm
  · exact ⟨next, hstep, (stepTimes_succ_of_step hstep count).symm.trans hhalts.1, hhalts.2⟩

end Rig

end TapeRunner
