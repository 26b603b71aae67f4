import TapeRunner.Number.Rounding

/-!
Doubles as text: a double is its sign and a whole multiple of a power of two, and the number of
thousandths nearest to that exact value is written with a point before the last three digits.
-/

set_option autoImplicit false
set_option relaxedAutoImplicit false

namespace TapeRunner.Number

/-- A finite double taken apart: `± digits · 2 ^ exponent`. -/
structure Parts where
  negative : Bool
  digits : Nat
  exponent : Int
deriving DecidableEq

/-- What a double stands for. -/
inductive Reading
  | finite (parts : Parts)
  | infinite (negative : Bool)
  | undefined
deriving DecidableEq

/-- Reads the three fields of a bit pattern. -/
def readBits (bits : Nat) : Reading :=
  let negative := bits >>> 63 % 2 = 1
  let field := bits >>> 52 % 2048
  let fraction := bits % Nat.pow 2 52
  if field = 2047 then
    if fraction = 0 then .infinite negative else .undefined
  else if field = 0 then .finite ⟨negative, fraction, leastExponent⟩
  else .finite ⟨negative, fraction + Nat.pow 2 52, leastExponent + (field - 1)⟩

/-- What a double stands for. -/
def read (number : Float) : Reading := readBits number.toBits.toNat

/-- The whole number of units of `1 / scale` nearest to a magnitude. -/
def Parts.inUnits (parts : Parts) (scale : Nat) : Nat :=
  if parts.exponent < 0 then
    roundHalfEven (parts.digits * scale) (Nat.pow 2 (-parts.exponent).toNat)
  else parts.digits * scale * Nat.pow 2 parts.exponent.toNat

/-- Digits filled with zeros on the left. -/
def padded (width number : Nat) : String :=
  let digits := Nat.toDigits 10 number
  String.ofList (List.replicate (width - digits.length) '0' ++ digits)

/-- A double with three digits after the point, rounded half to even on its exact value. The sign
of a negative number stays, also where it rounds to zero. -/
def threeDecimals (number : Float) : String :=
  match read number with
  | .undefined => "nan"
  | .infinite negative => if negative then "-inf" else "inf"
  | .finite parts =>
    let thousandths := parts.inUnits 1000
    (if parts.negative then "-" else "") ++ toString (thousandths / 1000) ++ "." ++
      padded 3 (thousandths % 1000)

end TapeRunner.Number
