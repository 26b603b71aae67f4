import TapeRunner.Proofs.Activity

/-!
# Activities that are cut off

`Activity.Truncates` compares two activities of which the first may be cut off on the way of the
second: from every state they do the same, or the first ends unfinished, in a state that is related
to the one in which the second ends. A relation that later activities keep goes through sequences
(`Truncates.bind`), through whatever catches errors (`Truncates.attempt`, `Truncates.caught`,
`Truncates.survives`), through lists of activities and through the rounds of timers
(`Truncates.forM`, `Truncates.fireRounds`).
-/

set_option autoImplicit false
set_option relaxedAutoImplicit false

namespace TapeRunner.Activity

variable {State Result Next : Type}

/-- The shorter activity does the same as the longer one, or it is cut off in a state that is
related to the one in which the longer one ends. -/
def Truncates (related : State → State → Prop) (short long : Activity State Result) : Prop :=
  ∀ state, runFrom short state = runFrom long state ∨
    (runFrom short state).1 = .error .unfinished ∧
      related (runFrom short state).2 (runFrom long state).2

variable {related : State → State → Prop} {short long : Activity State Result}

namespace Truncates

theorem refl (activity : Activity State Result) : Truncates related activity activity :=
  fun _ ↦ .inl rfl

/-- What gives up at once is cut off from whatever keeps the relation. -/
theorem giveUp (hrefl : ∀ state, related state state)
    (hkeeps : ∀ base, Preserves (related base) long) :
    Truncates related Activity.giveUp long :=
  fun state ↦ .inr ⟨rfl, (hkeeps state state (hrefl state)).last⟩

/-! ### Sequences -/

/-- If the first part is cut off, the rest of the longer sequence has to keep the relation. -/
theorem bind {shortNext longNext : Result → Activity State Next}
    (hfirst : Truncates related short long)
    (hnext : ∀ result, Truncates related (shortNext result) (longNext result))
    (hkeeps : ∀ base result, Preserves (related base) (longNext result)) :
    Truncates related (short >>= shortNext) (long >>= longNext) := by
  intro state
  rw [runFrom_bind, runFrom_bind]
  have hstate := hfirst state
  generalize runFrom short state = shorter, runFrom long state = longer at hstate ⊢
  obtain ⟨outcome, middle⟩ := shorter
  -- The rest is not reached in the shorter sequence, and in the longer one it keeps the relation.
  rcases hstate with rfl | ⟨rfl, hrelated⟩
  · rcases outcome with halt | result
    · exact .inl rfl
    · exact hnext result middle
  · refine .inr ⟨rfl, ?_⟩
    obtain ⟨halt | result, last⟩ := longer
    · exact hrelated
    · exact (hkeeps middle result last hrelated).last

/-- A first part that is the same in both is not cut off. -/
theorem after (first : Activity State Result) {shortNext longNext : Result → Activity State Next}
    (hnext : ∀ result, Truncates related (shortNext result) (longNext result)) :
    Truncates related (first >>= shortNext) (first >>= longNext) := by
  intro state
  rw [runFrom_bind, runFrom_bind]
  rcases runFrom first state with ⟨halt | result, after⟩
  · exact .inl rfl
  · exact hnext result after

/-- What is answered in the end makes no difference. -/
theorem map (hfirst : Truncates related short long) (answer : Result → Next) :
    Truncates related (do return answer (← short)) (do return answer (← long)) :=
  hfirst.bind (fun _ ↦ .refl _) fun _ _ ↦ Keeps.pure _

/-! ### Catching errors -/

/-- Whatever decides on an answer by how an activity ended is cut off with the activity. -/
theorem answered {whole : Activity State Result → Activity State Next}
    {answer : Except Halt Result → Except Halt Next}
    (hwhole : ∀ activity state, runFrom (whole activity) state =
      (answer (runFrom activity state).1, (runFrom activity state).2))
    (hcutOff : answer (.error .unfinished) = .error .unfinished)
    (hactivity : Truncates related short long) : Truncates related (whole short) (whole long) := by
  intro state
  rw [hwhole, hwhole]
  rcases hactivity state with hsame | ⟨hcut, hrelated⟩
  · exact .inl (by rw [hsame])
  · exact .inr ⟨by rw [hcut, hcutOff], hrelated⟩

theorem attempt (hactivity : Truncates related short long) :
    Truncates related (attempt short) (attempt long) :=
  answered runFrom_attempt_eq rfl hactivity

theorem caught (hactivity : Truncates related short long) :
    Truncates related (caught short) (caught long) :=
  answered runFrom_caught_eq rfl hactivity

theorem survives {short long : Activity State Unit} (hactivity : Truncates related short long) :
    Truncates related (survives short) (survives long) :=
  answered runFrom_survives_eq rfl hactivity

/-! ### Repetition -/

theorem forM {Item : Type} {short long : Item → Activity State Unit} (items : List Item)
    (hitem : ∀ item, Truncates related (short item) (long item))
    (hkeeps : ∀ base item, Preserves (related base) (long item)) :
    Truncates related (items.forM short) (items.forM long) := by
  induction items with
  | nil => exact refl _
  | cons item later ih =>
    exact (hitem item).bind (fun _ ↦ ih) fun base _ ↦ Keeps.forM later fun other _ ↦
      hkeeps base other

section Timers

variable {Task : Type} {timersOf : State → Array (Timer Task)}
variable {short long : Nat → Activity State Unit}
variable (hcall : ∀ index, Truncates related (short index) (long index))
variable (hkeeps : ∀ base index, Preserves (related base) (long index))
include hcall hkeeps

theorem fireListed (listed : List Nat) (fired : Nat) :
    Truncates related (Timer.fireListed timersOf short listed fired)
      (Timer.fireListed timersOf long listed fired) := by
  induction listed generalizing fired with
  | nil => exact refl _
  | cons index later ih =>
    refine after _ fun state ↦ ?_
    split
    · exact (hcall index).bind (fun _ ↦ ih (fired + 1)) fun base _ ↦
        Keeps.fireListed (fun index state hrelated _ ↦ hkeeps base index state hrelated) later _
    · exact ih fired

/-- Rounds are cut off with one of their calls. -/
theorem fireRounds (rounds fired : Nat) :
    Truncates related (Timer.fireRounds timersOf short rounds fired)
      (Timer.fireRounds timersOf long rounds fired) := by
  induction rounds generalizing fired with
  | zero => exact refl _
  | succ rounds ih =>
    refine after _ fun state ↦ (fireListed hcall hkeeps _ fired).bind (fun fired ↦ ih fired) ?_
    exact fun base fired ↦ Keeps.fireRounds
      (fun index state hrelated _ ↦ hkeeps base index state hrelated) rounds fired

end Timers

end Truncates

end TapeRunner.Activity
