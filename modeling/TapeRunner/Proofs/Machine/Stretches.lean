import TapeRunner.Proofs.Machine.Soundness

/-!
# Stretches of steps

A stretch of steps passes as long as every step is made and none comes to the end of the program
(`Rig.Passes`). The step that is the first not to do so stops it, at the end or by a fault
(`Rig.StopsAfter`). A rig with a sound machine does one or the other within any number of steps
(`Rig.passes_or_stops`).
-/

set_option autoImplicit false
set_option relaxedAutoImplicit false

namespace TapeRunner.Rig

/-- A number of steps are made, and none of them comes to the end of the program. -/
def Passes : Nat → Rig → Rig → Prop
  | 0, rig, last => last = rig
  | count + 1, rig, last =>
    ∃ next, rig.step = .ok next ∧ next.machine.atEnd = false ∧ Passes count next last

/-- After a number of steps that pass comes one that does not: it is made and comes to the end of
the program, or it is a fault. -/
def StopsAfter (count : Nat) (rig : Rig) (outcome : Except Fault Unit) (last : Rig) : Prop :=
  ∃ before, Passes count rig before ∧ match outcome with
    | .ok _ => before.step = .ok last ∧ last.machine.atEnd = true
    | .error fault => before.step = .error (.fault fault) ∧ last = before

variable {rig next last : Rig} {count : Nat}

/-- Steps that pass are steps that are made. -/
theorem stepTimes_of_passes (hpasses : Passes count rig last) :
    stepTimes count rig = (none, last) := by
  induction count generalizing rig with
  | zero =>
    cases hpasses
    rfl
  | succ count ih =>
    obtain ⟨next, hstep, -, hrest⟩ := hpasses
    rw [stepTimes_succ_of_step hstep]
    exact ih hrest

theorem StopsAfter.of_step {outcome : Except Fault Unit} (hstep : rig.step = .ok next)
    (hend : next.machine.atEnd = false) (hstops : StopsAfter count next outcome last) :
    StopsAfter (count + 1) rig outcome last := by
  obtain ⟨before, hpasses, hhow⟩ := hstops
  exact ⟨before, ⟨next, hstep, hend, hpasses⟩, hhow⟩

/-- A sound machine is at fault or makes a step that leaves it sound. -/
theorem step_cases (hsound : rig.machine.Sound) :
    (∃ fault, rig.step = .error (.fault fault)) ∨
      ∃ next, rig.step = .ok next ∧ next.machine.Sound := by
  rw [step_eq_map]
  rcases hsound.advance_cases rig.supply.offer with
    ⟨fault, hfault⟩ | ⟨effect, counter, hdone, htouches⟩
  · exact .inl ⟨fault, by rw [hfault]; rfl⟩
  · exact .inr ⟨(rig.settle effect).resumeAt counter, by rw [hdone]; rfl,
      htouches.sound hsound counter⟩

/-- Steps that are made leave a sound machine sound. -/
theorem sound_of_stepTimes (hsound : rig.machine.Sound)
    (hsteps : rig.stepTimes count = (none, last)) : last.machine.Sound := by
  induction count generalizing rig with
  | zero =>
    obtain rfl : rig = last := congrArg Prod.snd hsteps
    exact hsound
  | succ count ih =>
    rcases step_cases hsound with ⟨fault, hfault⟩ | ⟨next, hstep, hnext⟩
    · rw [stepTimes, hfault] at hsteps
      cases hsteps
    · exact ih hnext ((stepTimes_succ_of_step hstep count).symm.trans hsteps)

/-- Any number of steps pass, unless one of them is the first to stop. -/
theorem passes_or_stops (hsound : rig.machine.Sound) (count : Nat) :
    (∃ last, Passes count rig last) ∨
      ∃ fewer < count, ∃ outcome last, StopsAfter fewer rig outcome last := by
  induction count generalizing rig with
  | zero => exact .inl ⟨rig, rfl⟩
  | succ count ih =>
    rcases step_cases hsound with ⟨fault, hfault⟩ | ⟨next, hstep, hnext⟩
    · exact .inr ⟨0, Nat.succ_pos _, .error fault, rig, rig, rfl, hfault, rfl⟩
    · cases hend : next.machine.atEnd with
      | true => exact .inr ⟨0, Nat.succ_pos _, .ok (), next, rig, rfl, hstep, hend⟩
      | false =>
        rcases ih hnext with ⟨last, hpasses⟩ | ⟨fewer, hfewer, outcome, last, hstops⟩
        · exact .inl ⟨last, next, hstep, hend, hpasses⟩
        · exact .inr ⟨fewer + 1, Nat.succ_lt_succ hfewer, outcome, last,
            hstops.of_step hstep hend⟩

end TapeRunner.Rig
