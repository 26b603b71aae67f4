import TapeRunner.Proofs.Lockstep

/-!
# Activities that keep track of others

`Activity.Tracks` compares two activities of which the first may get lost: from any two states that
belong together they end alike, or the first one ends in a state that is lost, and from a lost state
it never finds its way back. So once it is lost, it does not matter any more what either of them
does. This goes through sequences (`Tracks.bind`), through whatever catches errors
(`Tracks.attempt`, `Tracks.caught`, `Tracks.survives`), through lists of activities and through the
rounds of timers (`Tracks.forM`, `Tracks.fireRounds`).
-/

set_option autoImplicit false
set_option relaxedAutoImplicit false

namespace TapeRunner.Activity

variable {State Result Next : Type} {related : State → State → Prop} {lost : State → Prop}

/-- From two states, two activities end alike, or the first one is lost in the end. -/
def AlikeUnlessLost (related : State → State → Prop) (lost : State → Prop)
    (one other : Activity State Result) (left right : State) : Prop :=
  Alike related one other left right ∨ lost (runFrom one left).2

/-- From any two states that belong together, two activities end alike unless the first one gets
lost; and where it is lost, it stays so. -/
structure Tracks (related : State → State → Prop) (lost : State → Prop)
    (one other : Activity State Result) : Prop where
  alike {left right : State} : related left right →
    AlikeUnlessLost related lost one other left right
  stays : Preserves lost one

variable {one other : Activity State Result} {left right : State}

namespace AlikeUnlessLost

/-- The rest is compared from where the first parts have led, and does not matter where the first
one is lost. -/
theorem bind {next further : Result → Activity State Next}
    (hfirst : AlikeUnlessLost related lost one other left right)
    (hnext : ∀ result left right, related left right →
      AlikeUnlessLost related lost (next result) (further result) left right)
    (hstays : ∀ result, Preserves lost (next result)) :
    AlikeUnlessLost related lost (one >>= next) (other >>= further) left right := by
  unfold AlikeUnlessLost Alike at hfirst ⊢
  rw [runFrom_bind, runFrom_bind]
  generalize runFrom one left = first, runFrom other right = second at hfirst ⊢
  obtain ⟨outcome, after⟩ := first
  obtain ⟨same, later⟩ := second
  rcases hfirst with ⟨rfl, hrelated⟩ | hlost
  · rcases outcome with halt | result
    · exact .inl ⟨rfl, hrelated⟩
    · exact hnext result after later hrelated
  · rcases outcome with halt | result
    · exact .inr hlost
    · exact .inr (hstays result after hlost).last

theorem get_bind {next further : State → Activity State Result}
    (hnext : AlikeUnlessLost related lost (next left) (further right) left right) :
    AlikeUnlessLost related lost (get >>= next) (get >>= further) left right := by
  unfold AlikeUnlessLost Alike at hnext ⊢
  rw [runFrom_bind, runFrom_bind]
  exact hnext

/-- Runs are compared by other ones that they are the same as. -/
theorem of_ends {same equal : Activity State Result} {after later : State}
    (hone : ∀ required, Ends one left required ↔ Ends same after required)
    (hother : ∀ required, Ends other right required ↔ Ends equal later required)
    (halike : AlikeUnlessLost related lost same equal after later) :
    AlikeUnlessLost related lost one other left right := by
  unfold AlikeUnlessLost Alike at halike ⊢
  rwa [runFrom_eq_of_ends hone, runFrom_eq_of_ends hother]

/-- What is answered by how an activity ends, in the state in which it ends, is answered alike. -/
theorem answered {whole : Activity State Result → Activity State Next}
    {answer : Except Halt Result → Except Halt Next}
    (hwhole : ∀ activity state, runFrom (whole activity) state =
      (answer (runFrom activity state).1, (runFrom activity state).2))
    (halike : AlikeUnlessLost related lost one other left right) :
    AlikeUnlessLost related lost (whole one) (whole other) left right := by
  unfold AlikeUnlessLost Alike at halike ⊢
  rw [hwhole, hwhole]
  exact halike.imp_left fun hsame ↦ ⟨congrArg answer hsame.1, hsame.2⟩

theorem caught (halike : AlikeUnlessLost related lost one other left right) :
    AlikeUnlessLost related lost (caught one) (caught other) left right :=
  halike.answered runFrom_caught_eq

end AlikeUnlessLost

namespace Tracks

theorem pure (result : Result) :
    Tracks related lost (Pure.pure result : Activity State Result) (Pure.pure result) where
  alike hrelated := .inl ⟨rfl, hrelated⟩
  stays := Keeps.pure result

theorem fail (error : Error) :
    Tracks related lost (Activity.fail error : Activity State Result) (Activity.fail error) where
  alike hrelated := .inl ⟨rfl, hrelated⟩
  stays := Preserves.fail error

theorem giveUp :
    Tracks related lost (Activity.giveUp : Activity State Result) Activity.giveUp where
  alike hrelated := .inl ⟨rfl, hrelated⟩
  stays _ hlost := hlost

theorem modify {change alter : State → State}
    (hchange : ∀ left right, related left right → related (change left) (alter right))
    (hstays : ∀ state, lost state → lost (change state)) :
    Tracks related lost (modify change : Activity State Unit) (modify alter) where
  alike hrelated := .inl ⟨rfl, hchange _ _ hrelated⟩
  stays := Keeps.modify hstays

theorem bind {next further : Result → Activity State Next} (hfirst : Tracks related lost one other)
    (hnext : ∀ result, Tracks related lost (next result) (further result)) :
    Tracks related lost (one >>= next) (other >>= further) where
  alike hrelated := (hfirst.alike hrelated).bind (fun result _ _ ↦ (hnext result).alike)
    fun result ↦ (hnext result).stays
  stays := Keeps.bind hfirst.stays fun result ↦ (hnext result).stays

/-- What is done next may depend on the state. -/
theorem get_bind {next further : State → Activity State Result}
    (hnext : ∀ left right, related left right →
      AlikeUnlessLost related lost (next left) (further right) left right)
    (hstays : ∀ state, lost state → Yields (fun _ ↦ lost) (next state) state fun _ ↦ lost) :
    Tracks related lost (get >>= next) (get >>= further) where
  alike hrelated := .get_bind (hnext _ _ hrelated)
  stays := Keeps.get_bind hstays

theorem attempt (htracks : Tracks related lost one other) :
    Tracks related lost (Activity.attempt one) (Activity.attempt other) where
  alike hrelated := (htracks.alike hrelated).answered runFrom_attempt_eq
  stays := htracks.stays.attempt

theorem survives {one other : Activity State Unit} (htracks : Tracks related lost one other) :
    Tracks related lost (Activity.survives one) (Activity.survives other) where
  alike hrelated := (htracks.alike hrelated).answered runFrom_survives_eq
  stays := htracks.stays.survives

/-! ### Repetition -/

theorem forM {Item : Type} {one other : Item → Activity State Unit} (items : List Item)
    (hitem : ∀ item, Tracks related lost (one item) (other item)) :
    Tracks related lost (items.forM one) (items.forM other) := by
  induction items with
  | nil => exact pure ()
  | cons item later ih => exact (hitem item).bind fun _ ↦ ih

section Timers

variable {Task : Type} {timersOf : State → Array (Timer Task)}
variable {one other : Nat → Activity State Unit}
variable (htimers : ∀ left right, related left right → timersOf left = timersOf right)
variable (hcall : ∀ index, Tracks related lost (one index) (other index))
include htimers hcall

theorem fireListed (listed : List Nat) (fired : Nat) :
    Tracks related lost (Timer.fireListed timersOf one listed fired)
      (Timer.fireListed timersOf other listed fired) := by
  induction listed generalizing fired with
  | nil => exact pure fired
  | cons index later ih =>
    have hlater := (hcall index).bind fun _ ↦ ih (fired + 1)
    refine get_bind (fun left right hrelated ↦ ?_) fun state hlost ↦ ?_
    · rw [htimers left right hrelated]
      split
      · exact hlater.alike hrelated
      · exact (ih fired).alike hrelated
    · split
      · exact hlater.stays state hlost
      · exact (ih fired).stays state hlost

theorem fireRounds (rounds fired : Nat) :
    Tracks related lost (Timer.fireRounds timersOf one rounds fired)
      (Timer.fireRounds timersOf other rounds fired) := by
  induction rounds generalizing fired with
  | zero => exact pure fired
  | succ rounds ih =>
    have hround (listed : List Nat) := (fireListed htimers hcall listed fired).bind ih
    refine get_bind (fun left right hrelated ↦ ?_) fun state ↦ (hround _).stays state
    rw [htimers left right hrelated]
    exact (hround _).alike hrelated

end Timers

end Tracks

end TapeRunner.Activity
