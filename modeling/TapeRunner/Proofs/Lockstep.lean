import TapeRunner.Proofs.Activity

/-!
# Two activities in lockstep

`Activity.Alike` compares two activities from two states of their own: they answer the same or end
early for the same reason, and the states that they leave belong together. Activities that do so
from any two states that belong together are in lockstep (`Activity.Lockstep`), and what is in
lockstep part by part is so as a sequence (`Lockstep.bind`) and when its faults are answers
(`Lockstep.attempt`). Where each side is known to go on by itself, what it leaves is compared and
not how it got there (`Alike.of_yields`); and where each side is known to be the same run as another
one, those are compared (`Alike.of_ends`, `Alike.of_rest`).
-/

set_option autoImplicit false
set_option relaxedAutoImplicit false

namespace TapeRunner.Activity

variable {Left Right Result Next : Type} {related : Left → Right → Prop}

/-- From two states, two activities end with the same outcome, in states that belong together. -/
def Alike (related : Left → Right → Prop) (one : Activity Left Result)
    (other : Activity Right Result) (left : Left) (right : Right) : Prop :=
  (runFrom one left).1 = (runFrom other right).1 ∧
    related (runFrom one left).2 (runFrom other right).2

/-- From any two states that belong together, two activities end alike. -/
def Lockstep (related : Left → Right → Prop) (one : Activity Left Result)
    (other : Activity Right Result) : Prop :=
  ∀ left right, related left right → Alike related one other left right

/-- What ends in the same way in every respect is the same run. -/
theorem runFrom_eq_of_ends {State : Type} {activity same : Activity State Result}
    {state later : State}
    (hends : ∀ required, Ends activity state required ↔ Ends same later required) :
    runFrom activity state = runFrom same later :=
  (hends fun outcome last ↦ (outcome, last) = runFrom same later).mpr rfl

/-- What ends as required wherever the rest does so, from one of some states, is the rest from one
of them. -/
theorem exists_runFrom_eq {State Choice : Type} {activity rest : Activity State Result}
    {state : State} {later : Choice → State}
    (hrest : ∀ (halted : Halt → State → Prop) (required : Result → State → Prop),
      (∀ choice, Yields halted rest (later choice) required) →
        Yields halted activity state required) :
    ∃ choice, runFrom activity state = runFrom rest (later choice) := by
  -- What is required of every end is that it be one of the rest, from some choice.
  have hreached : Yields
      (fun halt last ↦ ∃ choice, (Except.error halt, last) = runFrom rest (later choice))
      activity state
      fun result last ↦ ∃ choice, (Except.ok result, last) = runFrom rest (later choice) := by
    refine hrest _ _ fun choice ↦ ?_
    unfold Yields Ends
    have hself : ∃ found, runFrom rest (later choice) = runFrom rest (later found) := ⟨choice, rfl⟩
    generalize runFrom rest (later choice) = ended at hself ⊢
    obtain ⟨halt | result, last⟩ := ended <;> exact hself
  rcases hreached.ended with ⟨_, hanswer, choice, hchoice⟩ | ⟨_, hanswer, choice, hchoice⟩ <;>
    exact ⟨choice, by rw [← hchoice, ← hanswer]⟩

section Sequences

variable {one : Activity Left Result} {other : Activity Right Result}
variable {next : Result → Activity Left Next} {further : Result → Activity Right Next}
variable {left : Left} {right : Right}

/-- Runs are compared by other ones that they are the same as. -/
theorem Alike.of_runFrom {same : Activity Left Result} {equal : Activity Right Result}
    {after : Left} {later : Right} (hone : runFrom one left = runFrom same after)
    (hother : runFrom other right = runFrom equal later)
    (halike : Alike related same equal after later) : Alike related one other left right := by
  unfold Alike
  rw [hone, hother]
  exact halike

/-- Activities are compared by what is left to do of them, from wherever that may start. -/
theorem Alike.of_rest {Choice Selection : Type} {same : Activity Left Result}
    {equal : Activity Right Result} {after : Choice → Left} {later : Selection → Right}
    (hone : ∀ (halted : Halt → Left → Prop) (required : Result → Left → Prop),
      (∀ choice, Yields halted same (after choice) required) → Yields halted one left required)
    (hother : ∀ (halted : Halt → Right → Prop) (required : Result → Right → Prop),
      (∀ choice, Yields halted equal (later choice) required) →
        Yields halted other right required)
    (hrest : ∀ choice selection,
      Alike related same equal (after choice) (later selection)) :
    Alike related one other left right := by
  obtain ⟨choice, hleft⟩ := exists_runFrom_eq hone
  obtain ⟨selection, hright⟩ := exists_runFrom_eq hother
  exact (hrest choice selection).of_runFrom hleft hright

theorem Alike.of_ends {same : Activity Left Result} {equal : Activity Right Result}
    {after : Left} {later : Right}
    (hone : ∀ required, Ends one left required ↔ Ends same after required)
    (hother : ∀ required, Ends other right required ↔ Ends equal later required)
    (halike : Alike related same equal after later) : Alike related one other left right :=
  halike.of_runFrom (runFrom_eq_of_ends hone) (runFrom_eq_of_ends hother)

theorem Alike.mono {weaker : Left → Right → Prop} (halike : Alike related one other left right)
    (hweaker : ∀ left right, related left right → weaker left right) :
    Alike weaker one other left right :=
  ⟨halike.1, hweaker _ _ halike.2⟩

/-- The rest of two sequences is compared from where their first parts have led. -/
theorem Alike.bind (hfirst : Alike related one other left right)
    (hnext : ∀ result left right, related left right →
      Alike related (next result) (further result) left right) :
    Alike related (one >>= next) (other >>= further) left right := by
  unfold Alike at hfirst ⊢
  rw [runFrom_bind, runFrom_bind]
  generalize runFrom one left = first, runFrom other right = second at hfirst ⊢
  obtain ⟨outcome, after⟩ := first
  obtain ⟨same, later⟩ := second
  obtain ⟨rfl, hrelated⟩ := hfirst
  rcases outcome with halt | result
  · exact ⟨rfl, hrelated⟩
  · exact hnext result after later hrelated

/-- Where each side goes on by itself, it is enough that they end up with the same answer, in states
that belong together. -/
theorem Alike.of_yields {reached : Result → Left → Prop} {arrived : Result → Right → Prop}
    (hone : Yields (fun _ _ ↦ False) one left reached)
    (hother : Yields (fun _ _ ↦ False) other right arrived)
    (hsame : ∀ result after answer later, reached result after → arrived answer later →
      result = answer ∧ related after later) :
    Alike related one other left right := by
  unfold Alike
  rcases hone.ended with ⟨result, hresult, hreached⟩ | ⟨_, _, hfalse⟩
  · rcases hother.ended with ⟨answer, hanswer, harrived⟩ | ⟨_, _, hfalse⟩
    · obtain ⟨rfl, hrelated⟩ := hsame _ _ _ _ hreached harrived
      exact ⟨hresult.trans hanswer.symm, hrelated⟩
    · exact hfalse.elim
  · exact hfalse.elim

/-- Whoever attempts activities that end alike goes on alike. -/
theorem Alike.attempt (hsame : Alike related one other left right) :
    Alike related (attempt one) (attempt other) left right := by
  unfold Alike at hsame ⊢
  rw [runFrom_attempt, runFrom_attempt]
  generalize runFrom one left = first, runFrom other right = second at hsame ⊢
  obtain ⟨outcome, after⟩ := first
  obtain ⟨same, later⟩ := second
  obtain ⟨rfl, hrelated⟩ := hsame
  rcases outcome with halt | result
  · rcases halt with error | _
    · cases error <;> exact ⟨rfl, hrelated⟩
    · exact ⟨rfl, hrelated⟩
  · exact ⟨rfl, hrelated⟩

/-- What each of two activities keeps by itself is kept besides. -/
theorem Alike.and {inv : Left → Prop} {same : Right → Prop}
    (halike : Alike related one other left right)
    (hone : Yields (fun _ ↦ inv) one left fun _ ↦ inv)
    (hother : Yields (fun _ ↦ same) other right fun _ ↦ same) :
    Alike (fun left right ↦ related left right ∧ inv left ∧ same right) one other left right :=
  ⟨halike.1, halike.2, hone.last, hother.last⟩

end Sequences

/-! ### Activities in lockstep -/

theorem Lockstep.pure (result : Result) :
    Lockstep related (Pure.pure result : Activity Left Result) (Pure.pure result) :=
  fun _ _ hrelated ↦ ⟨rfl, hrelated⟩

theorem Lockstep.fail (error : Error) :
    Lockstep related (Activity.fail error : Activity Left Result) (Activity.fail error) :=
  fun _ _ hrelated ↦ ⟨rfl, hrelated⟩

theorem Lockstep.giveUp :
    Lockstep related (Activity.giveUp : Activity Left Result) Activity.giveUp :=
  fun _ _ hrelated ↦ ⟨rfl, hrelated⟩

theorem Lockstep.modify {change : Left → Left} {alter : Right → Right}
    (hchange : ∀ left right, related left right → related (change left) (alter right)) :
    Lockstep related (modify change : Activity Left Unit) (modify alter) :=
  fun left right hrelated ↦ ⟨rfl, hchange left right hrelated⟩

theorem Lockstep.bind {one : Activity Left Result} {other : Activity Right Result}
    {next : Result → Activity Left Next} {further : Result → Activity Right Next}
    (hfirst : Lockstep related one other)
    (hnext : ∀ result, Lockstep related (next result) (further result)) :
    Lockstep related (one >>= next) (other >>= further) :=
  fun left right hrelated ↦ (hfirst left right hrelated).bind hnext

/-- What is done next may depend on the state. -/
theorem Lockstep.get_bind {next : Left → Activity Left Next} {further : Right → Activity Right Next}
    (hnext : ∀ left right, related left right →
      Alike related (next left) (further right) left right) :
    Lockstep related (get >>= next) (get >>= further) := by
  intro left right hrelated
  have hsame := hnext left right hrelated
  unfold Alike at hsame ⊢
  rw [runFrom_bind, runFrom_bind]
  exact hsame

theorem Lockstep.attempt {one : Activity Left Result} {other : Activity Right Result}
    (hsame : Lockstep related one other) :
    Lockstep related (Activity.attempt one) (Activity.attempt other) :=
  fun left right hrelated ↦ (hsame left right hrelated).attempt

end TapeRunner.Activity
