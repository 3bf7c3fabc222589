import PriceRelay.Text.Hex
/-!
# Form-encoded queries

The text of a query: pairs joined by ampersands, each name and value with everything but letters,
digits and four marks written as escaped bytes, and a space as a plus sign.
-/

namespace PriceRelay.Text.Form

/-- Bytes that stand for themselves. -/
def isPlain (b : UInt8) : Bool :=
  (48 ≤ b && b ≤ 57) || (65 ≤ b && b ≤ 90) || (97 ≤ b && b ≤ 122) ||
    b == 42 || b == 45 || b == 46 || b == 95

/-- One byte of a name or value. -/
def encodeByte (b : UInt8) : List Char :=
  if isPlain b then [Char.ofNat b.toNat]
  else if b == 32 then ['+']
  else '%' :: (Hex.encodeByte b).map Char.toUpper

/-- A name or a value. -/
def encode (s : String) : String := String.ofList (s.toUTF8.toList.flatMap encodeByte)

/-- A whole query. -/
def query (pairs : List (String × String)) : String :=
  "&".intercalate (pairs.map fun p => encode p.1 ++ "=" ++ encode p.2)

end PriceRelay.Text.Form
