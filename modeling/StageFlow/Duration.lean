import StageFlow.Number.Decimal

/-!
# Durations

A duration is written in the largest of seconds, milliseconds, microseconds and nanoseconds of which
it holds at least one, either rounded to hundredths, a half going to the even neighbour, or exactly.
The unit is chosen before rounding.
-/

namespace StageFlow

/-- Seconds and nanoseconds. -/
structure Duration where
  secs : Nat
  nanos : Nat
  deriving DecidableEq

namespace Duration

/-- No time. -/
def zero : Duration := ⟨0, 0⟩

/-- A number of milliseconds. -/
def ofMillis (ms : Nat) : Duration := ⟨ms / 1000, ms % 1000 * 1000000⟩

/-- The unit a duration is written in: its size in nanoseconds and its name. -/
def unit (d : Duration) : Nat × String :=
  if d.secs ≠ 0 then (1000000000, "s")
  else if 1000000 ≤ d.nanos then (1000000, "ms")
  else if 1000 ≤ d.nanos then (1000, "µs")
  else (1, "ns")

/-- All of it in nanoseconds. -/
def totalNanos (d : Duration) : Nat := d.secs * 1000000000 + d.nanos

/-- A decimal with leading zeros. -/
def padded (width n : Nat) : List Char :=
  let ds := Number.digitsOf n
  List.replicate (width - ds.length) '0' ++ ds

/-- The text rounded to hundredths. -/
def rounded (d : Duration) : String :=
  let (size, name) := d.unit
  let hundredths := Number.roundEven (100 * d.totalNanos) size
  String.ofList (Number.digitsOf (hundredths / 100) ++ '.' :: padded 2 (hundredths % 100)) ++ name

/-- The exact text, without zeros at the end. -/
def exact (d : Duration) : String :=
  let (size, name) := d.unit
  let whole := Number.digitsOf (d.totalNanos / size)
  let width := (Number.digitsOf size).length - 1
  let fraction := (((padded width (d.totalNanos % size)).reverse.dropWhile (· = '0'))).reverse
  let fraction := if d.totalNanos % size = 0 then [] else '.' :: fraction
  String.ofList (whole ++ fraction) ++ name

end Duration
end StageFlow
