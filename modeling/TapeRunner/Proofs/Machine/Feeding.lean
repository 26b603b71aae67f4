import TapeRunner.Proofs.Machine.Stepping

/-!
# Input that comes later

A text that is fed behind the pending input makes no difference to a step, unless the step reads and
nothing is pending (`Rig.step_feed_cases`). So what a rig does without the text it does with it as
well (`Rig.stepTimes_feed`), and where a rig halts with the text it halts without it, maybe earlier,
for want of input (`Rig.Halts.of_feed`). Texts that are fed in turn are fed as one
(`Rig.feed_feed`).
-/

set_option autoImplicit false
set_option relaxedAutoImplicit false

namespace TapeRunner

/-! ### What a machine does with an offer -/

namespace Machine

/-- A command that takes no input does the same whatever is offered, and a command that is offered
nothing takes nothing. -/
theorem perform_none_cases (machine : Machine) (offered : Option Int) (command : Command) :
    machine.perform none command = .error (.fault .noInput) ∨
      machine.perform offered command = machine.perform none command ∧
        ∀ effect, machine.perform none command = .ok effect → effect.consumed = false := by
  have hupdated (change : UInt8 → UInt8) (effect : Effect)
      (hdone : (machine.update change).map quietly = .ok effect) : effect.consumed = false := by
    cases hupdate : machine.update change with
    | error stop =>
      rw [hupdate] at hdone
      cases hdone
    | ok next =>
      rw [hupdate] at hdone
      cases hdone
      rfl
  cases command with
  | read => exact .inl rfl
  | increment => exact .inr ⟨rfl, hupdated _⟩
  | decrement => exact .inr ⟨rfl, hupdated _⟩
  | right | left | write =>
    refine .inr ⟨rfl, fun effect hdone ↦ ?_⟩
    simp only [perform] at hdone
    split at hdone
    · cases hdone <;> rfl
    · cases hdone <;> rfl

/-- The symbol under the counter does the same whatever is offered, unless it is a read. -/
theorem advance_none_cases (machine : Machine) (offered : Option Int) :
    machine.advance none = .error (.fault .noInput) ∨
      machine.advance offered = machine.advance none ∧
        ∀ effect counter, machine.advance none = .ok (effect, counter) →
          effect.consumed = false := by
  have hbranched (branched : Except Stop Nat) (effect : Effect) (counter : Nat)
      (hdone : branched.map (machine.quietly, ·) = .ok (effect, counter)) :
      effect.consumed = false := by
    cases branched <;> cases hdone
    rfl
  unfold advance
  split
  · dsimp only
    split
    · next command _ =>
      rcases machine.perform_none_cases offered command with hread | ⟨hsame, hquiet⟩
      · left
        rw [hread]
        rfl
      · right
        rw [hsame]
        refine ⟨rfl, fun effect counter hdone ↦ ?_⟩
        cases hperform : machine.perform none command with
        | error stop =>
          rw [hperform] at hdone
          cases hdone
        | ok found =>
          rw [hperform] at hdone
          cases hdone
          exact hquiet _ hperform
    · exact .inr ⟨rfl, fun effect counter ↦ hbranched _ effect counter⟩
    · exact .inr ⟨rfl, fun effect counter ↦ hbranched _ effect counter⟩
    · refine .inr ⟨rfl, ?_⟩
      rintro _ _ ⟨⟩
      rfl
  · exact .inr ⟨rfl, nofun⟩

end Machine

/-! ### Feeding a supply -/

namespace Supply

/-- What is pending is offered first. -/
theorem offer_feed {supply : Supply} (hpending : supply.pending ≠ []) (text : String) :
    (supply.feed text).offer = supply.offer := by
  obtain ⟨byte, later, hcons⟩ := List.exists_cons_of_ne_nil hpending
  simp only [offer, pending_feed, hcons, List.cons_append, List.head?_cons]

theorem rest_feed {supply : Supply} (hpending : supply.pending ≠ []) (text : String) :
    (supply.feed text).rest = supply.rest.feed text := by
  obtain ⟨byte, later, hcons⟩ := List.exists_cons_of_ne_nil hpending
  simp only [rest, feed, hcons, List.cons_append, List.tail_cons]

theorem bytesOf_append (text later : String) :
    bytesOf (text ++ later) = bytesOf text ++ bytesOf later := by
  simp only [bytesOf, String.toList_append, List.map_append]

end Supply

namespace Rig

variable {rig last : Rig} {count : Nat} {text : String}

/-- Texts that are fed in turn are fed as one. -/
theorem feed_feed (rig : Rig) (text later : String) :
    (rig.feed text).feed later = rig.feed (text ++ later) := by
  simp only [feed, Supply.feed, Supply.bytesOf_append, List.append_assoc]

/-- An effect that takes input only where some is pending does not meet the text behind it. -/
theorem settle_feed {effect : Effect}
    (hpending : effect.consumed = true → rig.supply.pending ≠ []) (text : String) :
    (rig.feed text).settle effect = (rig.settle effect).feed text := by
  cases hconsumed : effect.consumed with
  | true => simp only [settle, feed, hconsumed, if_true, Supply.rest_feed (hpending hconsumed)]
  | false => simp only [settle, feed, hconsumed, Bool.false_eq_true, if_false]

/-- A step is at fault for want of input, or it is the same with a text behind the pending input. -/
theorem step_feed_cases (rig : Rig) (text : String) :
    rig.step = .error (.fault .noInput) ∨ (rig.feed text).step = rig.step.map (·.feed text) := by
  have hsame (hadvance : rig.machine.advance (rig.feed text).supply.offer =
        rig.machine.advance rig.supply.offer)
      (hpending : ∀ effect counter, rig.machine.advance rig.supply.offer = .ok (effect, counter) →
        effect.consumed = true → rig.supply.pending ≠ []) :
      (rig.feed text).step = rig.step.map (·.feed text) := by
    rw [step_eq_map, step_eq_map, show (rig.feed text).machine = rig.machine from rfl, hadvance]
    cases hdone : rig.machine.advance rig.supply.offer with
    | error stop => rfl
    | ok done =>
      have hsettle := settle_feed (hpending done.1 done.2 hdone) text
      simp only [Except.map, hsettle]
      rfl
  by_cases hpending : rig.supply.pending = []
  · have hnone := (Supply.offer_eq_none_iff _).mpr hpending
    rcases rig.machine.advance_none_cases (rig.feed text).supply.offer with
      hread | ⟨hadvance, hquiet⟩
    · left
      rw [step_eq_map, hnone, hread]
      rfl
    · right
      rw [← hnone] at hadvance hquiet
      refine hsame hadvance fun effect counter hdone hconsumed ↦ ?_
      exact absurd ((hquiet effect counter hdone).symm.trans hconsumed) Bool.false_ne_true
  · exact .inr (hsame (congrArg _ (Supply.offer_feed hpending text)) fun _ _ _ _ ↦ hpending)

/-- A step that is made without a text is made with it, too. -/
theorem step_feed {next : Rig} (hstep : rig.step = .ok next) (text : String) :
    (rig.feed text).step = .ok (next.feed text) := by
  rcases rig.step_feed_cases text with hread | hsame
  · cases hstep.symm.trans hread
  · rw [hsame, hstep]
    rfl

/-- Steps that are made without a text are made with it, too. -/
theorem stepTimes_feed (hsteps : stepTimes count rig = (none, last)) (text : String) :
    stepTimes count (rig.feed text) = (none, last.feed text) := by
  induction count generalizing rig with
  | zero =>
    cases hsteps
    rfl
  | succ count ih =>
    rw [stepTimes] at hsteps
    cases hstep : rig.step with
    | error stop =>
      rw [hstep] at hsteps
      cases hsteps
    | ok next =>
      rw [hstep] at hsteps
      rw [stepTimes_succ_of_step (step_feed hstep text)]
      exact ih hsteps

/-- Where a rig halts with a text behind its input, it halts at once without the text, or it makes
the first step of the way. -/
theorem Halts.of_feed_or_step {fault? : Option Fault}
    (hhalts : (rig.feed text).Halts count fault? last) :
    (∃ reason?, rig.Halts 0 reason? rig) ∨ ∃ next fewer, count = fewer + 1 ∧
      rig.step = .ok next ∧ (next.feed text).Halts fewer fault? last := by
  have hstill : stepTimes 0 (rig.feed text) = (none, rig.feed text) := rfl
  cases hend : rig.machine.atEnd with
  | true => exact .inl ⟨none, rfl, hend⟩
  | false =>
    cases hstep : rig.step with
    | error stop =>
      have hfault : ∃ fault, stop = .fault fault := by
        rcases rig.step_feed_cases text with hread | hsame
        · exact ⟨_, Except.error.inj (hstep.symm.trans hread)⟩
        · rw [hstep] at hsame
          rcases hhalts.progress hstill with ⟨-, hlast⟩ | ⟨_, hnext, -⟩
          · obtain ⟨fault, hstop⟩ := hhalts.exists_fault
            rw [← hlast] at hstop
            exact ⟨fault, Except.error.inj (hsame.symm.trans hstop)⟩
          · cases hsame.symm.trans hnext
      obtain ⟨fault, rfl⟩ := hfault
      exact .inl ⟨some fault, rfl, hend, hstep⟩
    | ok next =>
      have hfed := step_feed hstep text
      obtain ⟨fewer, hcount, hrest⟩ := hhalts.of_stepTimes (stepTimes_succ_of_step hfed 0)
      exact .inr ⟨next, fewer, by omega, rfl, hrest⟩

/-- Where a rig halts with a text behind its input, it halts without the text after no more
steps. -/
theorem Halts.of_feed {fault? : Option Fault} (hhalts : (rig.feed text).Halts count fault? last) :
    ∃ fewer ≤ count, ∃ reason? place, rig.Halts fewer reason? place := by
  induction count generalizing rig with
  | zero =>
    rcases hhalts.of_feed_or_step with ⟨reason?, hnow⟩ | ⟨_, _, hcount, -⟩
    · exact ⟨0, Nat.le_refl 0, reason?, rig, hnow⟩
    · cases hcount
  | succ count ih =>
    rcases hhalts.of_feed_or_step with ⟨reason?, hnow⟩ | ⟨next, fewer, hcount, hstep, hrest⟩
    · exact ⟨0, Nat.zero_le _, reason?, rig, hnow⟩
    · obtain rfl := Nat.succ.inj hcount
      obtain ⟨earlier, hearlier, reason?, place, hhere⟩ := ih hrest
      exact ⟨earlier + 1, Nat.succ_le_succ hearlier, reason?, place, hhere.of_step hstep⟩

end Rig

end TapeRunner
