/-!
# Durations

A length of time is a number of nanoseconds, and so is a time on the clock of the relay.

* `Duration.text` writes one in the largest unit it fills, with its exact fraction.
-/

namespace PriceRelay

/-- A length of time in nanoseconds. -/
abbrev Duration := Nat

namespace Duration

/-- So many milliseconds. -/
def ofMillis (n : Nat) : Duration := n * 1000000

/-- So many microseconds. -/
def ofMicros (n : Nat) : Duration := n * 1000

/-- So many seconds. -/
def ofSeconds (n : Nat) : Duration := n * 1000000000

/-- Whole milliseconds of a duration. -/
def inMillis (d : Duration) : Nat := d / 1000000

/-- Whole microseconds of a duration. -/
def inMicros (d : Duration) : Nat := d / 1000

/-- The digits of `part` out of `unit` after the point, without zeros at the end; `unit` is a power
of ten. -/
def fraction (part unit : Nat) : List Char :=
  let digits := (toString (unit + part)).toList.drop 1
  (digits.reverse.dropWhile (· == '0')).reverse

/-- A duration as a multiple of a unit. -/
def inUnit (d unit : Nat) (name : String) : String :=
  let after := fraction (d % unit) unit
  toString (d / unit) ++ String.ofList (if after.isEmpty then [] else '.' :: after) ++ name

/-- A duration in the largest unit it fills; an empty one has zero nanoseconds. -/
def text (d : Duration) : String :=
  if 1000000000 ≤ d then inUnit d 1000000000 "s"
  else if 1000000 ≤ d then inUnit d 1000000 "ms"
  else if 1000 ≤ d then inUnit d 1000 "µs"
  else toString d ++ "ns"

end Duration

end PriceRelay
