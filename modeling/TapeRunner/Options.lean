import TapeRunner.Speed
import TapeRunner.Validation

/-!
# Start options

With which speed a session begins.
-/

set_option autoImplicit false
set_option relaxedAutoImplicit false

namespace TapeRunner

/-- Whether a session advances by itself from its start, and if so, in one go. -/
structure StartOptions where
  directStart : Bool
  superSpeed : Bool
deriving DecidableEq

namespace StartOptions

/-- The speed of a fresh session. -/
def initialSpeed (options : StartOptions) : Int :=
  if !options.directStart then Speed.idle
  else if options.superSpeed then Speed.blocking
  else Speed.top

/-- A session begins idle, at the top speed or blocking. -/
theorem initialSpeed_mem (options : StartOptions) :
    options.initialSpeed ∈ [Speed.idle, Speed.top, Speed.blocking] := by
  unfold initialSpeed
  split
  · simp
  · split <;> simp

/-- Reads the options from fields. An absent option is off, and unknown fields are passed over. -/
def ofFields (fields : Fields) : Checked StartOptions := do
  let readFlag (name : String) : Checked Bool :=
    Reader.flag.field [name] (.ok false) (fields.get? name)
  let (directStart, superSpeed) ←
    Checked.both (readFlag "direct_start") (readFlag "start_super_speed")
  return ⟨directStart, superSpeed⟩

end StartOptions

end TapeRunner
