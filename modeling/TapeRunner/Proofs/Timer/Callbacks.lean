import TapeRunner.Proofs.Timer.Rounds
import TapeRunner.Timer.Rehearsal

/-!
# Firing timers whose callbacks take part

What a callback does may depend on everything that is on the stage, and what it does next on how its
last cue came out: it may make timers, cancel any of them, fire again and raise. `Reaction` is the
tree of these decisions, and the callbacks that follow rules are among them
(`Stage.callTimer_eq_react`).

None of this takes a timer away or brings a cancelled one back (`Stage.preserves_react`), and what
is called inside of a call is recorded behind it (`Stage.exists_nested`). So firing goes in rounds
before any callbacks (`Stage.fire_in_rounds`).
-/

set_option autoImplicit false
set_option relaxedAutoImplicit false

namespace TapeRunner.TimerRehearsal

open Activity

/-! ### Reactions -/

/-- What a callback does: nothing more, an error of its own, or a cue, whose outcome and the stage
after it decide what comes next. -/
inductive Reaction
  | rest
  | raise (error : Error)
  | give (cue : Cue) (next : Except Error Reply → Stage → Reaction)

namespace Reaction

/-- Carries out a reaction; `call` is what calling the timer at a position does. -/
def perform (call : Nat → Activity Stage Unit) : Reaction → Activity Stage Unit
  | rest => pure ()
  | raise error => fail error
  | give cue next => do
    let outcome ← caught (Stage.perform call cue)
    let stage ← get
    perform call (next outcome stage)

/-- Gives cues in turn, up to the first that raises an error, which is passed on. -/
def inTurn : List Cue → Reaction
  | [] => rest
  | cue :: later => give cue fun outcome _ ↦
    match outcome with
    | .ok _ => inTurn later
    | .error error => raise error

end Reaction

namespace Stage

/-- How a task reacts that follows rules: at a call that is listed in a rule, with the cues of the
rule. -/
def ruled (position : Nat) (stage : Stage) : Reaction :=
  let number := (stage.called.toList.filter (· = position)).length
  match stage.timers[position]? with
  | none => .raise .noEntry
  | some timer => .inTurn (timer.task.rules.flatMap fun rule ↦
      if number ∈ rule.1 then rule.2 else [])

/-- Calls a timer whose callback reacts by what is on the stage, its own call among it. Its cues may
fire timers again, down to a depth. -/
def react (reaction : Nat → Stage → Reaction) : Nat → Nat → Activity Stage Unit
  | 0, _ => giveUp
  | depth + 1, position => do
    modify fun stage ↦ { stage with called := stage.called.push position }
    let stage ← get
    (reaction position stage).perform (react reaction depth)

/-- Cues in turn are carried out one after the other. -/
theorem perform_inTurn (call : Nat → Activity Stage Unit) (cues : List Cue) :
    (Reaction.inTurn cues).perform call = cues.forM (fun cue ↦ do
      let _ ← perform call cue) := by
  induction cues with
  | nil => rfl
  | cons cue later ih =>
    -- An error that is caught and passed on ends the reaction as it ends the cue.
    have hcue : (Reaction.inTurn (cue :: later)).perform call =
        perform call cue >>= fun _ ↦ (Reaction.inTurn later).perform call := by
      funext stage
      change runFrom (caught (perform call cue) >>= _) stage = runFrom (_ >>= _) stage
      rw [runFrom_bind, runFrom_bind, runFrom_caught_eq]
      rcases runFrom (perform call cue) stage with ⟨halt | reply, last⟩
      · cases halt <;> rfl
      · rfl
    rw [hcue, ih]
    simp only [List.forM_eq_forM, List.forM_cons, bind_assoc, pure_bind]

/-- Callbacks that follow rules are callbacks that react. -/
theorem callTimer_eq_react (depth : Nat) : callTimer depth = react ruled depth := by
  induction depth with
  | zero => rfl
  | succ depth ih =>
    have hrules (number : Nat) (rules : List Rule) :
        (rules.forM fun rule ↦ if number ∈ rule.1 then rule.2.forM (fun cue ↦ do
            let _ ← perform (react ruled depth) cue) else pure ()) =
          (Reaction.inTurn (rules.flatMap fun rule ↦
            if number ∈ rule.1 then rule.2 else [])).perform (react ruled depth) := by
      rw [perform_inTurn]
      simp only [List.forM_eq_forM]
      induction rules with
      | nil => rfl
      | cons rule later ihRules =>
        rw [List.forM_cons, List.flatMap_cons, List.forM_append, ihRules]
        split <;> rfl
    funext position
    simp only [callTimer, react, ruled, ih]
    refine bind_congr fun _ ↦ bind_congr fun stage ↦ ?_
    cases stage.timers[position]? with
    | none => rfl
    | some timer => exact hrules _ timer.task.rules

/-! ### What a callback leaves -/

/-- From a stage, timers have only been added and cancelled, and the calls recorded before stay the
first ones. -/
def Onward (base stage : Stage) : Prop :=
  Timer.Grown base.timers stage.timers ∧ base.called.toList <+: stage.called.toList

variable {base : Stage} {call : Nat → Activity Stage Unit}

theorem preserves_perform (hcall : ∀ position, Preserves (Onward base) (call position))
    (cue : Cue) : Preserves (Onward base) (perform call cue) := by
  cases cue with
  | every name numerator denominator rules =>
    simp only [perform]
    split
    · exact Preserves.fail _
    · refine Keeps.get_bind fun stage hbase ↦ ?_
      split
      · exact hbase
      · next hmade => exact ⟨hbase.1.trans (.every hmade), hbase.2⟩
  | cancel index =>
    refine Keeps.get_bind fun stage hbase ↦ ?_
    split
    · exact hbase
    · exact ⟨hbase.1.trans (.cancel _ _), hbase.2⟩
  | fire rounds =>
    exact Keeps.bind (Keeps.fireRounds (fun position stage hbase _ ↦ hcall position stage hbase)
      rounds 0) fun _ ↦ Keeps.pure _
  | raise message => exact Preserves.fail _

theorem preserves_reaction (hcall : ∀ position, Preserves (Onward base) (call position))
    (reaction : Reaction) : Preserves (Onward base) (reaction.perform call) := by
  induction reaction with
  | rest => exact Keeps.pure ()
  | raise error => exact Preserves.fail error
  | give cue next ih =>
    refine Keeps.bind (preserves_perform hcall cue).caught fun outcome ↦ ?_
    exact Keeps.get_bind fun stage hstage ↦ ih outcome stage stage hstage

/-- The induction is on how deep calls may be inside calls. -/
theorem preserves_react (reaction : Nat → Stage → Reaction) (depth position : Nat) :
    Preserves (Onward base) (react reaction depth position) := by
  induction depth generalizing position with
  | zero => exact fun _ hbase ↦ hbase
  | succ depth ih =>
    refine Keeps.bind (Keeps.modify fun stage hbase ↦ ?_) fun _ ↦ ?_
    · rw [Onward, Array.toList_push]
      exact ⟨hbase.1, hbase.2.trans (List.prefix_append _ _)⟩
    · exact Keeps.get_bind fun stage hstage ↦ preserves_reaction ih _ stage hstage

/-- A call is recorded first, and behind it what is called meanwhile. -/
theorem exists_nested (reaction : Nat → Stage → Reaction) (depth position : Nat) (stage : Stage) :
    ∃ nested, (runFrom (react reaction (depth + 1) position) stage).2.called.toList =
      stage.called.toList ++ position :: nested := by
  have hkeeps : Yields (fun _ ↦ Onward { stage with called := stage.called.push position })
      (react reaction (depth + 1) position) stage fun _ ↦
        Onward { stage with called := stage.called.push position } := by
    rw [react, Yields, ends_bind, ends_modify]
    refine Keeps.get_bind (fun next hnext ↦ ?_) _ ⟨.refl _, List.prefix_rfl⟩
    exact preserves_reaction (preserves_react reaction depth) _ next hnext
  obtain ⟨nested, hnested⟩ := hkeeps.last.2
  exact ⟨nested, by simpa using hnested.symm⟩

/-! ### Firing before callbacks that take part -/

/-- Whatever the callbacks do, and however deep they fire, firing goes in rounds. No timer has a
turn in the round in which it is made, or after its cancellation; and in each turn its own call is
recorded first, and behind it those that are made inside of it. To fire some rounds and then some
more is to fire all of them. -/
theorem fire_in_rounds (reaction : Nat → Stage → Reaction) (depth rounds : Nat) (stage : Stage) :
    let fire := Timer.fire (·.timers) (react reaction (depth + 1))
    let ended := runFrom (fire rounds) stage
    (∃ laps, Timer.Firing (·.timers) (react reaction (depth + 1)) rounds stage laps
        ended.1 ended.2 ∧
      (∀ lap ∈ laps, ∀ turn ∈ lap.turns, turn.position < lap.before.timers.size) ∧
      (∀ turn ∈ laps.flatMap Timer.Lap.turns,
        ¬ Timer.IsCancelled stage.timers turn.position) ∧
      ((laps.flatMap Timer.Lap.turns).Pairwise fun turn later ↦
        ¬ Timer.IsCancelled turn.after.timers later.position) ∧
      ∀ turn ∈ laps.flatMap Timer.Lap.turns, ∃ nested,
        turn.after.called.toList = turn.before.called.toList ++ turn.position :: nested) ∧
    ∀ further, fire (rounds + further) = do
      let fired ← fire rounds
      return fired + (← fire further) := by
  intro fire ended
  refine ⟨?_, fun further ↦ Timer.fire_add rounds further⟩
  obtain ⟨laps, hfiring⟩ : ∃ laps, Timer.Firing (·.timers) (react reaction (depth + 1)) rounds
      stage laps ended.1 ended.2 :=
    Timer.ends_fire rounds stage
  obtain ⟨hbefore, hlater⟩ := hfiring.not_isCancelled fun position base ↦
    (preserves_react reaction (depth + 1) position base ⟨.refl _, List.prefix_rfl⟩).last.1
  refine ⟨laps, hfiring, fun lap hlap _ ↦ (hfiring.round lap hlap).position_lt, hbefore, hlater,
    fun turn hturn ↦ ?_⟩
  obtain ⟨lap, hlap, hmem⟩ := List.mem_flatMap.mp hturn
  obtain ⟨nested, hnested⟩ := exists_nested reaction depth turn.position turn.before
  rw [((hfiring.round lap hlap).ran turn hmem).2] at hnested
  exact ⟨nested, hnested⟩

/-- Three timers. At its first call the first one fires a round and then cancels the third, and the
second one raises at its third call. -/
def trio : Stage :=
  ⟨#[⟨1, ⟨"a", [([1], [.fire 1, .cancel 2])]⟩, false⟩, ⟨1, ⟨"b", [([3], [.raise "no"])]⟩, false⟩,
    ⟨1, ⟨"c", []⟩, false⟩], #[]⟩

/-- The round inside of the first call has three turns, and the round around it has two, since the
third timer is cancelled when its turn comes. The second round ends where the second timer
raises. -/
example : (runFrom (Timer.fire (·.timers) (callTimer 3) 1) trio).1 = .ok 2 ∧
    (runFrom (Timer.fire (·.timers) (callTimer 3) 2) trio).1 = .error (.raised (.raised "no")) ∧
    (runFrom (Timer.fire (·.timers) (callTimer 3) 2) trio).2.called = #[0, 0, 1, 2, 1, 0, 1] :=
  ⟨rfl, rfl, by decide +kernel⟩

end Stage

end TapeRunner.TimerRehearsal
