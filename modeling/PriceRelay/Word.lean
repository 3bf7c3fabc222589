import PriceRelay.Text.Blank
import PriceRelay.Text.Numeral
/-!
# 256-bit words

Prices and rounds are counted in words of 256 bits, read without sign or in two's complement. This
module has their two textual forms: numerals in a choice of radices, and big-endian bytes.

* `Word.unsigned?` and `Word.signed?` read numerals,
* `Word.ofBytes` and `Word.toBytes` are the 32-byte form.
-/

namespace PriceRelay

/-- A word of 256 bits; `BitVec.toNat` reads it without sign, `BitVec.toInt` with one. -/
abbrev Word := BitVec 256

namespace Word

/-- The radix a numeral is written in, and its digits. -/
def radix (cs : List Char) : Nat × List Char :=
  match cs with
  | '0' :: 'x' :: rest => (16, rest)
  | '0' :: 'X' :: rest => (16, rest)
  | '0' :: 'o' :: rest => (8, rest)
  | '0' :: 'O' :: rest => (8, rest)
  | '0' :: 'b' :: rest => (2, rest)
  | '0' :: 'B' :: rest => (2, rest)
  | rest => (10, rest)

/-- The size a numeral without sign denotes: an optional radix, then digits, where low lines count
for nothing and no digit at all is zero. -/
def magnitude? (cs : List Char) : Option Nat :=
  let (base, ds) := radix cs
  Text.Numeral.continueDigits base 0 (ds.filter (· ≠ '_'))

/-- The word a numeral without sign denotes. -/
def unsignedChars? (cs : List Char) : Option Word :=
  (magnitude? cs).bind fun n => if n < Nat.pow 2 256 then some (BitVec.ofNat 256 n) else none

/-- The sign of a numeral, and what stands after it. -/
def sign (cs : List Char) : Bool × List Char :=
  match cs with
  | '-' :: rest => (true, rest)
  | '+' :: rest => (false, rest)
  | rest => (false, rest)

/-- The word that a size has with a sign, if it is in range. -/
def ofSize? (negative : Bool) (n : Nat) : Option Word :=
  if negative then if n ≤ Nat.pow 2 255 then some (BitVec.ofInt 256 (-(n : Int))) else none
  else if n < Nat.pow 2 255 then some (BitVec.ofNat 256 n) else none

/-- The word a numeral with an optional sign denotes. -/
def signedChars? (cs : List Char) : Option Word :=
  (magnitude? (sign cs).2).bind (ofSize? (sign cs).1)

/-- The word a text without sign denotes. -/
def unsigned? (s : String) : Option Word := unsignedChars? s.toList

/-- The word a text with an optional sign denotes; a text of blanks denotes none. -/
def signed? (s : String) : Option Word :=
  if Text.isBlankText s then none else signedChars? s.toList

/-- The value of some bytes, the first of them the highest. -/
def valueOfBytes (bytes : List UInt8) : Nat := bytes.foldl (fun n b => n * 256 + b.toNat) 0

/-- The word of 32 bytes. -/
def ofBytes (bytes : List UInt8) : Word := BitVec.ofNat 256 (valueOfBytes bytes)

/-- The lowest `count` bytes of a number, the first of them the highest. -/
def lowBytes : (count : Nat) → Nat → List UInt8
  | 0, _ => []
  | count + 1, n => lowBytes count (n / 256) ++ [UInt8.ofNat (n % 256)]

/-- The 32 bytes of a word. -/
def toBytes (w : Word) : List UInt8 := lowBytes 32 w.toNat

/-- The decimal text of a word read without sign. -/
def unsignedText (w : Word) : String := toString w.toNat

/-- The decimal text of a word read with a sign. -/
def signedText (w : Word) : String := toString w.toInt

end Word

end PriceRelay
