import PriceRelay.Binary64.Basic
import PriceRelay.Text.Numeral
/-!
# Decimal text of double-precision numbers

A decimal text names an exact ratio, and a number of the format is written with the fewest digits
that read back as itself.

* `Binary64.parse?` reads a decimal text,
* `Binary64.shortest` chooses the digits,
* `Binary64.plain` writes them without an exponent, padded with zeros as far as the point,
* `Binary64.withExponent` writes very large and very small numbers with one,
* `Binary64.oneDecimal` writes the exact value rounded to one digit after the point.
-/

namespace PriceRelay.Binary64

/-! ### Reading -/

/-- The number nearest to `digits · 10^shift`. Beyond the reach of the format the answer is known
without forming the power. -/
def ofDecimal (negative : Bool) (digits : Nat) (shift : Int) : Binary64 :=
  if digits = 0 then .finite negative 0 (-1074)
  else
    let reach : Int := shift + (Nat.log2 digits : Int) / 3
    if 400 < shift then .infinite negative
    else if reach < -400 then .finite negative 0 (-1074)
    else if 0 ≤ shift then ofRatio negative (digits * Nat.pow 10 shift.toNat) 1
    else ofRatio negative digits (Nat.pow 10 (-shift).toNat)

/-- Digits with at most one point among them, as a whole number and the count of digits after the
point. There must be one digit at least. -/
def pointed (cs : List Char) : Option (Nat × Nat) :=
  let before := cs.takeWhile Char.isDigit
  match cs.dropWhile Char.isDigit with
  | [] => (Text.Numeral.ofDigits 10 before).map fun n => (n, 0)
  | '.' :: after =>
    if after.all Char.isDigit then
      (Text.Numeral.ofDigits 10 (before ++ after)).map fun n => (n, after.length)
    else none
  | _ => none

/-- A run of digits with an optional sign. -/
def power? (cs : List Char) : Option Int :=
  match cs with
  | '-' :: ds => (Text.Numeral.ofDigits 10 ds).map fun n => -(n : Int)
  | '+' :: ds => (Text.Numeral.ofDigits 10 ds).map Int.ofNat
  | ds => (Text.Numeral.ofDigits 10 ds).map Int.ofNat

/-- Whether a character opens an exponent. -/
def opensPower (c : Char) : Bool := c == 'e' || c == 'E'

/-- A number without its sign: a word for what is not finite, in letters of either case, or digits
with an optional point and an optional exponent. -/
def unsigned? (negative : Bool) (cs : List Char) : Option Binary64 :=
  let word := String.ofList (cs.map Char.toLower)
  if word = "inf" || word = "infinity" then some (.infinite negative)
  else if word = "nan" then some .nan
  else
    let digits := cs.takeWhile fun c => !opensPower c
    match cs.dropWhile fun c => !opensPower c with
    | [] => (pointed digits).map fun (n, after) => ofDecimal negative n (-(after : Int))
    | _ :: p =>
      (pointed digits).bind fun (n, after) =>
        (power? p).map fun e => ofDecimal negative n (e - after)

/-- The number a whole text stands for: an optional sign and a number. -/
def parse? (cs : List Char) : Option Binary64 :=
  match cs with
  | '-' :: rest => unsigned? true rest
  | '+' :: rest => unsigned? false rest
  | rest => unsigned? false rest

/-! ### The fewest digits -/

/-- The reals that round to a finite number lie between `low / den` and `high / den`, the ends
included when `closed`; the number itself is `value / den`. -/
structure Interval where
  /-- lower end -/
  low : Nat
  /-- the number -/
  value : Nat
  /-- upper end -/
  high : Nat
  /-- common denominator -/
  den : Nat
  /-- whether the ends belong to it -/
  closed : Bool

/-- The interval of a positive finite number. Below a power of two the neighbour is half as far. -/
def interval (m : Nat) (e : Int) : Interval :=
  let near := m = Nat.pow 2 52 && (-1074 : Int) < e
  let low := if near then 4 * m - 1 else 4 * m - 2
  let (up, den) := ratio 1 (e - 2)
  ⟨low * up, 4 * m * up, (4 * m + 2) * up, den, m % 2 = 0⟩

/-- Whether `digits · 10^place` lies in an interval. -/
def Interval.holds (i : Interval) (digits : Nat) (place : Int) : Bool :=
  let (n, d) := if 0 ≤ place then (digits * Nat.pow 10 place.toNat, 1)
    else (digits, Nat.pow 10 (-place).toNat)
  if i.closed then i.low * d ≤ n * i.den && n * i.den ≤ i.high * d
  else i.low * d < n * i.den && n * i.den < i.high * d

/-- The two whole multiples of `10^place` next to the number, and whether the upper one is nearer;
of two equally near ones the even one counts as nearer. -/
def Interval.neighbours (i : Interval) (place : Int) : Nat × Nat × Bool :=
  let (n, d) := if 0 ≤ place then (i.value, i.den * Nat.pow 10 place.toNat)
    else (i.value * Nat.pow 10 (-place).toNat, i.den)
  let q := n / d
  let r := n % d
  (q, q + 1, d < 2 * r || (2 * r = d && q % 2 = 1))

/-- The power of ten of the first digit of `num / den`. -/
def firstPlace (num den : Nat) : Int :=
  let guess : Int := ((Nat.log2 num : Int) - (Nat.log2 den : Int)) * 30103 / 100000
  let reached (p : Int) : Bool :=
    if 0 ≤ p then den * Nat.pow 10 p.toNat ≤ num else den ≤ num * Nat.pow 10 (-p).toNat
  if reached (guess + 1) then guess + 1 else if reached guess then guess else guess - 1

/-- Try grids of ever more digits until one has a point in the interval. -/
def search (i : Interval) (place : Int) : (tries : Nat) → Nat × Int
  | 0 => ((i.neighbours place).1, place)
  | tries + 1 =>
    let (q, q', upper) := i.neighbours place
    let lowIn := i.holds q place && q != 0
    let highIn := i.holds q' place
    if lowIn && highIn then (if upper then q' else q, place)
    else if lowIn then (q, place)
    else if highIn then (q', place)
    else search i (place - 1) tries

/-- Take the zeros off the end of some digits. -/
def dropZeros : (fuel : Nat) → Nat × Int → Nat × Int
  | 0, p => p
  | fuel + 1, (n, place) =>
    if n ≠ 0 ∧ n % 10 = 0 then dropZeros fuel (n / 10, place + 1) else (n, place)

/-- The fewest digits that read back as the number, and the power of ten of the last of them. -/
def shortest (m : Nat) (e : Int) : Nat × Int :=
  if m = 0 then (0, 0)
  else
    let i := interval m e
    dropZeros 400 (search i (firstPlace i.value i.den) 20)

/-! ### Writing -/

/-- Digits with the point set `places` before their end, padded with zeros where they end short. -/
def setPoint (ds : List Char) (places : Nat) : List Char :=
  if places = 0 then ds
  else
    let ds := List.replicate (places + 1 - ds.length) '0' ++ ds
    ds.take (ds.length - places) ++ '.' :: ds.drop (ds.length - places)

/-- A sign in front of a text. -/
def signed (negative : Bool) (text : List Char) : String :=
  String.ofList (if negative then '-' :: text else text)

/-- The fewest digits without an exponent, and without a point if they are whole. -/
def plain : Binary64 → String
  | .nan => "NaN"
  | .infinite negative => signed negative ['i', 'n', 'f']
  | .finite negative m e =>
    let (n, place) := shortest m e
    let ds := (toString n).toList
    signed negative <|
      if 0 ≤ place then ds ++ List.replicate place.toNat '0' else setPoint ds (-place).toNat

/-- The fewest digits with a point always, and with an exponent for numbers from `10^16` on and
below `10^-5`. What is not finite has no such text. -/
def withExponent : Binary64 → String
  | .nan => "null"
  | .infinite _ => "null"
  | .finite negative m e =>
    let (n, place) := shortest m e
    let ds := (toString n).toList
    let first : Int := place + ds.length
    signed negative <|
      if 0 ≤ place ∧ first ≤ 16 then ds ++ List.replicate place.toNat '0' ++ ['.', '0']
      else if place < 0 ∧ -5 < first ∧ first ≤ 16 then setPoint ds (-place).toNat
      else
        let tail := ds.drop 1
        ds.take 1 ++ (if tail.isEmpty then [] else '.' :: tail) ++
          'e' :: (toString (first - 1)).toList

/-- The exact value rounded to one digit after the point, on a tie to the even digit. -/
def oneDecimal : Binary64 → String
  | .nan => "NaN"
  | .infinite negative => signed negative ['i', 'n', 'f']
  | .finite negative m e =>
    let (num, den) := ratio m e
    signed negative (setPoint (toString (roundHalfEven (num * 10) den)).toList 1)

end PriceRelay.Binary64
