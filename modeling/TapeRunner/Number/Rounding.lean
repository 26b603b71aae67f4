/-!
Rounding a quotient of two naturals to the nearest natural, a tie to the even neighbour, and the
double nearest to a ratio of two integers, by exact arithmetic on integers of any size.
-/

set_option autoImplicit false
set_option relaxedAutoImplicit false

namespace TapeRunner.Number

/-- The natural nearest to `numerator / denominator`; of two equally near ones the even one. -/
def roundHalfEven (numerator denominator : Nat) : Nat :=
  let quotient := numerator / denominator
  let twice := 2 * (numerator % denominator)
  if twice < denominator then quotient
  else if denominator < twice then quotient + 1
  else if quotient % 2 = 0 then quotient
  else quotient + 1

/-- The rounded quotient is at most half a unit away. -/
theorem roundHalfEven_near (numerator denominator : Nat) (positive : 0 < denominator) :
    2 * numerator ≤ 2 * (roundHalfEven numerator denominator * denominator) + denominator ∧
      2 * (roundHalfEven numerator denominator * denominator) ≤ 2 * numerator + denominator := by
  have split_off := Nat.div_add_mod numerator denominator
  have small := Nat.mod_lt numerator positive
  rw [Nat.mul_comm] at split_off
  unfold roundHalfEven
  simp only
  split
  · omega
  · split
    · rw [Nat.add_mul]
      omega
    · split
      · omega
      · rw [Nat.add_mul]
        omega

/-- The least exponent of a double: every double is a multiple of two to this power. -/
def leastExponent : Int := -1074

/-- The exponent of the last of the 53 binary digits of a positive ratio. -/
def lastDigitExponent (numerator denominator : Nat) : Int :=
  let guess : Int := (numerator.log2 : Int) - (denominator.log2 : Int)
  let reached : Bool :=
    if guess < 0 then denominator ≤ numerator <<< (-guess).toNat
    else denominator <<< guess.toNat ≤ numerator
  max leastExponent ((if reached then guess else guess - 1) - 52)

/-- The bit pattern of infinity. -/
def infinityBits : Nat := 0x7ff <<< 52

/-- The bit pattern of the double nearest to a ratio that is not negative. Adding the rounded
digits to the shifted exponent carries into the exponent where the digits overflow. -/
def nearestBits (numerator denominator : Nat) : Nat :=
  if numerator = 0 then 0
  else
    let exponent := lastDigitExponent numerator denominator
    let digits :=
      if exponent < 0 then roundHalfEven (numerator <<< (-exponent).toNat) denominator
      else roundHalfEven numerator (denominator <<< exponent.toNat)
    min infinityBits (((exponent - leastExponent).toNat <<< 52) + digits)

/-- The double nearest to `numerator / denominator`. A zero has a sign too: it is negative if the
denominator alone is. -/
def nearest (numerator denominator : Int) : Float :=
  let bits := nearestBits numerator.natAbs denominator.natAbs
  let negative : Bool := (numerator < 0) != (denominator < 0)
  Float.ofBits (UInt64.ofNat (if negative then bits + (1 <<< 63) else bits))

/-- Why a ratio has no double. -/
inductive RatioFault
  | tooGreat
  | zeroDivision
deriving DecidableEq

/-- The text of a ratio's fault. -/
def RatioFault.message : RatioFault → String
  | .tooGreat => "integer division result too large for a float"
  | .zeroDivision => "division by zero"

/-- The double nearest to a ratio, if the denominator is not zero and the double is finite. -/
def ratio (numerator denominator : Int) : Except RatioFault Float :=
  if denominator = 0 then .error .zeroDivision
  else if nearestBits numerator.natAbs denominator.natAbs = infinityBits then .error .tooGreat
  else .ok (nearest numerator denominator)

end TapeRunner.Number
