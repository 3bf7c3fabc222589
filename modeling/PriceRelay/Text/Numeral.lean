/-!
# Numerals in plain text

Reading and writing whole numbers as digits. The readers take the whole text or refuse it.

* `ofDigits` is the value of a run of digits in a radix,
* `natural?` reads digits with an optional plus sign, up to a bound,
* `integer?` reads digits with an optional sign, between two bounds,
* `show` texts are those of `toString`, which writes decimal digits without leading zeros.
-/

namespace PriceRelay.Text.Numeral

/-- The value of a character as a digit, letters of either case standing for ten and up. -/
def digit? (c : Char) : Option Nat :=
  if '0' ≤ c && c ≤ '9' then some (c.toNat - '0'.toNat)
  else if 'a' ≤ c && c ≤ 'z' then some (c.toNat - 'a'.toNat + 10)
  else if 'A' ≤ c && c ≤ 'Z' then some (c.toNat - 'A'.toNat + 10)
  else none

/-- The value of a character as a digit of `radix`. -/
def digitIn? (radix : Nat) (c : Char) : Option Nat :=
  (digit? c).bind fun d => if d < radix then some d else none

/-- The value that digits add to what stands before them; no digit adds nothing. -/
def continueDigits (radix : Nat) : Nat → List Char → Option Nat
  | acc, [] => some acc
  | acc, c :: cs => (digitIn? radix c).bind fun d => continueDigits radix (acc * radix + d) cs

/-- The value of a run of at least one digit. -/
def ofDigits (radix : Nat) (cs : List Char) : Option Nat :=
  if cs.isEmpty then none else continueDigits radix 0 cs

/-- The number, if it is at most `bound`. -/
def upTo (bound n : Nat) : Option Nat := if n ≤ bound then some n else none

/-- Digits with an optional single plus sign, for a number of at most `bound`. -/
def natural? (bound : Nat) (cs : List Char) : Option Nat :=
  match cs with
  | '+' :: ds => (ofDigits 10 ds).bind (upTo bound)
  | ds => (ofDigits 10 ds).bind (upTo bound)

/-- Digits of a radix with an optional single sign, for a number from `-2^63` to `2^63 - 1`. -/
def integer? (radix : Nat) (cs : List Char) : Option Int :=
  match cs with
  | '-' :: ds => ((ofDigits radix ds).bind (upTo (Nat.pow 2 63))).map fun n => -(n : Int)
  | '+' :: ds => ((ofDigits radix ds).bind (upTo (Nat.pow 2 63 - 1))).map Int.ofNat
  | ds => ((ofDigits radix ds).bind (upTo (Nat.pow 2 63 - 1))).map Int.ofNat

/-- A number of 64 bits without sign. -/
def word64? (s : String) : Option UInt64 := (natural? (UInt64.size - 1) s.toList).map UInt64.ofNat

/-- Write `n` with at least `width` digits. -/
def padded (width n : Nat) : String :=
  let ds := toString n
  String.ofList (List.replicate (width - ds.length) '0') ++ ds

end PriceRelay.Text.Numeral
