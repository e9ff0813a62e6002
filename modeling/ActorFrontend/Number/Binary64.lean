import ActorFrontend.Number.Integer

/-!
# Floating-point numbers by their bits

A double-precision number is kept as its 64 bits, so that two of them are equal exactly when
they are the same datum.  `ofDecimal` is the nearest such number to a decimal one, a tie going
to the even neighbour, and is computed in exact arithmetic.
-/

namespace ActorFrontend

/-- A double-precision floating-point number in its interchange format: sign, eleven bits of
exponent, fifty-two bits of fraction. -/
structure Binary64 where
  bits : UInt64
  deriving DecidableEq, Repr

namespace Binary64

def zero : Binary64 := ⟨0⟩

def infinity : Binary64 := ⟨0x7FF0000000000000⟩

/-- The quotient rounded to the nearest integer, a tie going to the even one. -/
def divRoundEven (numerator denominator : Nat) : Nat :=
  let quotient := numerator / denominator
  let twice := 2 * (numerator % denominator)
  if twice < denominator then quotient
  else if denominator < twice then quotient + 1
  else quotient + quotient % 2

/-- `numerator / denominator` scaled by `2 ^ (-exponent)`, as a fraction. -/
def scaleDown (numerator denominator : Nat) (exponent : Int) : Nat × Nat :=
  if 0 ≤ exponent then (numerator, denominator * Nat.pow 2 exponent.toNat)
  else (numerator * Nat.pow 2 (-exponent).toNat, denominator)

/-- The exponent `e` with `2 ^ e ≤ numerator / denominator < 2 ^ (e + 1)`. -/
def binaryExponent (numerator denominator : Nat) : Int :=
  let guess : Int := (numerator.log2 : Int) - (denominator.log2 : Int)
  let (n, d) := scaleDown numerator denominator guess
  if n < d then guess - 1 else guess

/-- The number nearest to a positive fraction.  The last place of the result weighs `2 ^ place`,
never less than the smallest subnormal number; a significand that rounds up to the next power of
two carries into the exponent field, and an exponent field that is full is infinity. -/
def ofFraction (numerator denominator : Nat) : Binary64 :=
  let place := max (binaryExponent numerator denominator - 52) (-1074)
  let (n, d) := scaleDown numerator denominator place
  let bits := (place + 1074).toNat * Nat.pow 2 52 + divRoundEven n d
  if bits < infinity.bits.toNat then ⟨UInt64.ofNat bits⟩ else infinity

/-- The number nearest to `digits * 10 ^ exponent`, where `digits` has `count` decimal digits and
the first of them is not zero.  Magnitudes far outside the format are settled without computing
the power. -/
def ofDecimal (digits count : Nat) (exponent : Int) : Binary64 :=
  if digits = 0 then zero
  else if 310 < exponent + count then infinity
  else if exponent + count < -330 then zero
  else if 0 ≤ exponent then ofFraction (digits * Nat.pow 10 exponent.toNat) 1
  else ofFraction digits (Nat.pow 10 (-exponent).toNat)

/-- The value of a run of decimal digits. -/
def decimalValue (digits : List Char) : Nat :=
  digits.foldl (fun value c => value * 10 + (c.toNat - '0'.toNat)) 0

/-- The exponent written after the `e` of a literal. -/
def exponentValue : List Char → Int
  | '-' :: digits => -(decimalValue digits : Int)
  | '+' :: digits => decimalValue digits
  | digits => decimalValue digits

/-- The number written as digits, a point, digits and an optional exponent, with underscores
passed over. -/
def read (text : List Char) : Binary64 :=
  let text := text.filter (· ≠ '_')
  let whole := text.takeWhile Char.isDigit
  let fraction := (text.drop (whole.length + 1)).takeWhile Char.isDigit
  let exponent := exponentValue (text.drop (whole.length + 1 + fraction.length + 1))
  let digits := (whole ++ fraction).dropWhile (· = '0')
  ofDecimal (decimalValue digits) digits.length (exponent - fraction.length)

end Binary64

end ActorFrontend
