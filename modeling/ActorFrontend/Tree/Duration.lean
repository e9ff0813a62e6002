/-!
# Durations

A literal duration is a whole number of units of time.
-/

namespace ActorFrontend

/-- Units of time. -/
inductive DurationUnit where
  | nanos
  | micros
  | millis
  | seconds
  | minutes
  | hours
  deriving DecidableEq, Repr

namespace DurationUnit

/-- The unit that a suffix stands for. -/
def ofSuffix? : String → Option DurationUnit
  | "ns" => some .nanos
  | "us" => some .micros
  | "ms" => some .millis
  | "s" => some .seconds
  | "m" => some .minutes
  | "h" => some .hours
  | _ => none

/-- The length of the unit in nanoseconds. -/
def nanosPerUnit : DurationUnit → Nat
  | .nanos => 1
  | .micros => 1000
  | .millis => 1000000
  | .seconds => 1000000000
  | .minutes => 60000000000
  | .hours => 3600000000000

end DurationUnit

/-- So many units of time. -/
structure Duration where
  value : UInt64
  unit : DurationUnit
  deriving DecidableEq, Repr

/-- The length in nanoseconds, if it fits 64 bits. -/
def Duration.nanos? (d : Duration) : Option UInt64 :=
  let nanos := d.value.toNat * d.unit.nanosPerUnit
  if nanos < UInt64.size then some (UInt64.ofNat nanos) else none

end ActorFrontend
