import TapeRunner.Number.Rounding

/-!
The speed of a session: zero is idle, a positive speed steps at a cadence, and anything below zero
runs to the end in one go.
-/

set_option autoImplicit false
set_option relaxedAutoImplicit false

namespace TapeRunner.Speed

/-- No automatic steps. -/
def idle : Int := 0

/-- The fastest speed that a session is driven up to. -/
def top : Int := 100

/-- Run to the end in one go. -/
def blocking : Int := -1

/-- The way in which a speed moves a session on. -/
inductive Regime
  | idle
  | stepped
  | blocking
deriving DecidableEq

/-- The word for a regime. -/
def Regime.name : Regime → String
  | .idle => "idle"
  | .stepped => "stepped"
  | .blocking => "blocking"

/-- The regime of a speed. -/
def regimeOf (speed : Int) : Regime :=
  if speed = idle then .idle
  else if 0 < speed then .stepped
  else .blocking

/-- The nearest speed from `blocking` to `top`. -/
def clamp (speed : Int) : Int := max blocking (min top speed)

theorem regimeOf_eq_idle_iff (speed : Int) : regimeOf speed = .idle ↔ speed = 0 := by
  unfold regimeOf idle
  split
  · simp_all
  · split <;> simp_all

theorem regimeOf_eq_stepped_iff (speed : Int) : regimeOf speed = .stepped ↔ 0 < speed := by
  unfold regimeOf idle
  split
  · simp_all
  · split <;> simp_all

theorem blocking_le_clamp (speed : Int) : blocking ≤ clamp speed := by
  unfold clamp blocking
  omega

theorem clamp_le_top (speed : Int) : clamp speed ≤ top := by
  unfold clamp blocking top
  omega

/-- The milliseconds between two steps: a second is shared by ten times as many steps as the speed
says. Only a stepped speed has a cadence. -/
def cadence? (speed : Int) : Option Float :=
  if speed ≤ 0 then none else some (Number.nearest 1000 (speed * 10))

/-- The speeds with a cadence are those of the stepped regime. -/
theorem isSome_cadence? (speed : Int) : (cadence? speed).isSome ↔ regimeOf speed = .stepped := by
  rw [regimeOf_eq_stepped_iff]
  unfold cadence?
  split <;> simp <;> omega

/-- What is said about a speed without a cadence. -/
def noCadenceMessage (speed : Int) : String :=
  "cadence is only defined for stepped speeds, got " ++ toString speed

/-- The seconds between two steps. -/
def interval (cadence : Float) : Float := cadence / 1000

end TapeRunner.Speed
