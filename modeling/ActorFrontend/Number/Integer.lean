/-!
# Written integers

An integer is written in one of three radices, with underscores allowed anywhere after its first
digit.
-/

namespace ActorFrontend

/-- The radices in which integers can be written. -/
inductive Radix where
  | binary
  | decimal
  | hexadecimal
  deriving DecidableEq, Repr

namespace Radix

def base : Radix → Nat
  | .binary => 2
  | .decimal => 10
  | .hexadecimal => 16

/-- The value of a character as a hexadecimal digit, in either case. -/
def hexValue? (c : Char) : Option Nat :=
  if '0' ≤ c ∧ c ≤ '9' then some (c.toNat - '0'.toNat)
  else if 'a' ≤ c ∧ c ≤ 'f' then some (c.toNat - 'a'.toNat + 10)
  else if 'A' ≤ c ∧ c ≤ 'F' then some (c.toNat - 'A'.toNat + 10)
  else none

/-- The value of a character as a digit of the radix. -/
def digit? (r : Radix) (c : Char) : Option Nat :=
  (hexValue? c).filter (· < r.base)

/-- The value of a run of digits read after `value`, if all of them are digits of the radix. -/
def valueFrom? (r : Radix) : Nat → List Char → Option Nat
  | value, [] => some value
  | value, c :: cs => (r.digit? c).bind fun d => r.valueFrom? (value * r.base + d) cs

/-- The number written by a literal's body: its first character is a digit, underscores are
passed over, every other character is a digit of the radix, and the value fits 64 bits. -/
def read? (r : Radix) (body : List Char) : Option UInt64 :=
  let digits := body.filter (· ≠ '_')
  if body.head? = some '_' ∨ digits = [] then none
  else (r.valueFrom? 0 digits).bind fun value =>
    if value < UInt64.size then some (UInt64.ofNat value) else none

end Radix

end ActorFrontend
