/-!
# Double-precision numbers, exactly

A number of the binary64 format as sign, mantissa and power of two. Every operation here rounds an
exact ratio of whole numbers once, to the nearest number of the format and on a tie to the one with
an even mantissa, so it can be evaluated wherever whole numbers can.

* `Binary64.ofRatio` rounds a ratio,
* `Binary64.div` and `Binary64.mul` round the exact quotient and product,
* `Binary64.bits` is the encoding as a word of 64 bits,
* `Binary64.roundedWord` is the nearest whole number that fits such a word.
-/

namespace PriceRelay

/-- A number of the binary64 format. The value of `finite neg m e` is `m · 2^e` with its sign; a
number that `ofRatio` makes has `m < 2^53` and `-1074 ≤ e`, and `2^52 ≤ m` unless `e = -1074`. -/
inductive Binary64
  /-- not a number -/
  | nan
  /-- an infinity -/
  | infinite (negative : Bool)
  /-- a finite number -/
  | finite (negative : Bool) (mantissa : Nat) (exponent : Int)
deriving DecidableEq, Repr

namespace Binary64

/-- A quotient rounded to the nearest whole number, on a tie to the even one. -/
def roundHalfEven (num den : Nat) : Nat :=
  let q := num / den
  let r := num % den
  if 2 * r < den then q else if den < 2 * r then q + 1 else q + q % 2

/-- `num / den` as a ratio to the unit `2^e`. -/
def inUnits (num den : Nat) (e : Int) : Nat × Nat :=
  if 0 ≤ e then (num, den * Nat.pow 2 e.toNat) else (num * Nat.pow 2 (-e).toNat, den)

/-- The power of two that is the unit in the last place of `num / den`, for a positive ratio. -/
def unit (num den : Nat) : Int :=
  let guess : Int := (Nat.log2 num : Int) - (Nat.log2 den : Int) - 52
  let (n, d) := inUnits num den guess
  let e := if n < d * Nat.pow 2 52 then guess - 1 else guess
  max e (-1074)

/-- The number of the format nearest to `num / den` with the given sign. -/
def ofRatio (negative : Bool) (num den : Nat) : Binary64 :=
  if num = 0 then .finite negative 0 (-1074)
  else
    let e := unit num den
    let (n, d) := inUnits num den e
    let m := roundHalfEven n d
    let (m, e) := if m = Nat.pow 2 53 then (Nat.pow 2 52, e + 1) else (m, e)
    if 971 < e then .infinite negative else .finite negative m e

/-- The number nearest to a whole number. -/
def ofNat (n : Nat) : Binary64 := ofRatio false n 1

/-- The size of a finite number as a ratio. -/
def ratio (mantissa : Nat) (exponent : Int) : Nat × Nat :=
  if 0 ≤ exponent then (mantissa * Nat.pow 2 exponent.toNat, 1)
  else (mantissa, Nat.pow 2 (-exponent).toNat)

/-- The quotient. -/
def div : Binary64 → Binary64 → Binary64
  | .nan, _ => .nan
  | _, .nan => .nan
  | .infinite _, .infinite _ => .nan
  | .infinite s, .finite t _ _ => .infinite (s != t)
  | .finite s _ _, .infinite t => .finite (s != t) 0 (-1074)
  | .finite s m e, .finite t m' e' =>
    if m' = 0 then if m = 0 then .nan else .infinite (s != t)
    else
      let (a, b) := ratio m e
      let (c, d) := ratio m' e'
      ofRatio (s != t) (a * d) (b * c)

/-- The product. -/
def mul : Binary64 → Binary64 → Binary64
  | .nan, _ => .nan
  | _, .nan => .nan
  | .infinite s, .infinite t => .infinite (s != t)
  | .infinite s, .finite t m _ => if m = 0 then .nan else .infinite (s != t)
  | .finite s m _, .infinite t => if m = 0 then .nan else .infinite (s != t)
  | .finite s m e, .finite t m' e' =>
    let (a, b) := ratio m e
    let (c, d) := ratio m' e'
    ofRatio (s != t) (a * c) (b * d)

/-- The encoding as a word: sign, eleven bits of exponent, fifty-two of mantissa. -/
def bits : Binary64 → Nat
  | .nan => 0x7ff8000000000000
  | .infinite s => (if s then Nat.pow 2 63 else 0) + 0x7ff0000000000000
  | .finite s m e =>
    (if s then Nat.pow 2 63 else 0) +
      (if m < Nat.pow 2 52 then m else (e + 1075).toNat * Nat.pow 2 52 + (m - Nat.pow 2 52))

/-- A quotient rounded to the nearest whole number, a half upwards. -/
def roundHalfUp (num den : Nat) : Nat := (2 * num + den) / (2 * den)

/-- The nearest whole number of 64 bits without sign, a half away from zero. What lies below all of
them becomes the least, what lies above the greatest, and what is no number becomes zero. -/
def roundedWord : Binary64 → UInt64
  | .nan => 0
  | .infinite negative => if negative then 0 else UInt64.ofNat (UInt64.size - 1)
  | .finite negative m e =>
    let (num, den) := ratio m e
    if negative then 0 else UInt64.ofNat (min (roundHalfUp num den) (UInt64.size - 1))

end Binary64

end PriceRelay
