import TapeRunner.Number.Decimal

/-!
# The shortest decimal of a double

Of all decimals that are nearer to a double than to any other double, the one with the fewest
digits, and of those the nearest. Numbers from a ten-thousandth up to below ten to the power of 16
are written with a point among the digits, all others with an exponent.
-/

set_option autoImplicit false
set_option relaxedAutoImplicit false

namespace TapeRunner.Number

/-- Decimal digits and the power of ten of the last one. -/
structure Decimal where
  digits : Nat
  exponent : Int
deriving DecidableEq

/-- A positive double as a multiple of `1 / scale`, with the ends of the interval that rounds to it;
the ends belong to it or not. -/
structure Interval where
  value : Nat
  low : Nat
  high : Nat
  scale : Nat
  closed : Bool
deriving DecidableEq

namespace Interval

/-- The interval of a double. Below a power of two the neighbour is only half as far away. -/
def of (parts : Parts) : Interval :=
  let below := if parts.digits = Nat.pow 2 52 && parts.exponent ≠ leastExponent then 1 else 2
  let power := parts.exponent - 2
  let raise := Nat.pow 2 power.toNat
  ⟨4 * parts.digits * raise, (4 * parts.digits - below) * raise, (4 * parts.digits + 2) * raise,
    Nat.pow 2 (-power).toNat, parts.digits % 2 = 0⟩

/-- A decimal lies in the interval. -/
def holds (interval : Interval) (decimal : Decimal) : Bool :=
  let number := decimal.digits * Nat.pow 10 decimal.exponent.toNat * interval.scale
  let unit := Nat.pow 10 (-decimal.exponent).toNat
  if interval.closed then interval.low * unit ≤ number && number ≤ interval.high * unit
  else interval.low * unit < number && number < interval.high * unit

/-- The whole number of units of a power of ten in the value, and whether the next one is nearer. -/
def unitsOf (interval : Interval) (exponent : Int) : Nat × Bool :=
  let number := interval.value * Nat.pow 10 (-exponent).toNat
  let unit := interval.scale * Nat.pow 10 exponent.toNat
  let rest := 2 * (number % unit)
  (number / unit, unit < rest || (unit = rest && number / unit % 2 = 1))

/-- The nearer of the two decimals next to the value on a grid, if it lies in the interval, else
the other one, if that does. -/
def nextTo (interval : Interval) (exponent : Int) : Option Decimal :=
  let (units, upper) := interval.unitsOf exponent
  let lower : Decimal := ⟨units, exponent⟩
  let higher : Decimal := ⟨units + 1, exponent⟩
  let (first, second) := if upper then (higher, lower) else (lower, higher)
  if interval.holds first then some first
  else if interval.holds second then some second
  else none

/-- The first grid with a decimal in the interval, from a coarse grid to ever finer ones. -/
def search (interval : Interval) : Nat → Int → Decimal
  | 0, exponent => ⟨(interval.unitsOf exponent).1, exponent⟩
  | grids + 1, exponent =>
    match interval.nextTo exponent with
    | some decimal => decimal
    | none => search interval grids (exponent - 1)

end Interval

/-- Drops zeros at the end, as far as a bound allows. -/
def Decimal.trimmed : Nat → Decimal → Decimal
  | 0, decimal => decimal
  | bound + 1, decimal =>
    if decimal.digits ≠ 0 && decimal.digits % 10 = 0 then
      trimmed bound ⟨decimal.digits / 10, decimal.exponent + 1⟩
    else decimal

/-- The shortest decimal of a positive double. No double reaches ten to the power of 309, and
none needs a grid finer than ten to the power of -324. -/
def shortestOf (parts : Parts) : Decimal :=
  ((Interval.of parts).search 640 309).trimmed 640

/-- The text of a decimal. -/
def Decimal.text (decimal : Decimal) : String :=
  let digits := Nat.toDigits 10 decimal.digits
  let point : Int := digits.length + decimal.exponent
  if -4 < point && point ≤ 16 then
    if point ≤ 0 then
      "0." ++ String.ofList (List.replicate (-point).toNat '0' ++ digits)
    else if digits.length ≤ point then
      String.ofList (digits ++ List.replicate (point - digits.length).toNat '0') ++ ".0"
    else String.ofList (digits.take point.toNat) ++ "." ++ String.ofList (digits.drop point.toNat)
  else
    let power := point - 1
    let fraction := digits.drop 1
    String.ofList (digits.take 1) ++
      (if fraction = [] then "" else "." ++ String.ofList fraction) ++
      "e" ++ (if power < 0 then "-" else "+") ++ padded 2 power.natAbs

/-- The text of a double. -/
def shortest (number : Float) : String :=
  match read number with
  | .undefined => "nan"
  | .infinite negative => if negative then "-inf" else "inf"
  | .finite parts =>
    (if parts.negative then "-" else "") ++
      (if parts.digits = 0 then "0.0" else (shortestOf parts).text)

end TapeRunner.Number
