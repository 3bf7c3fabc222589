/-!
# Hexadecimal text

Bytes are written as two digits each. A text of odd length is refused before its characters are
looked at; otherwise the first character that is no digit is named, as the byte that stands there
in UTF-8.

* `encode` writes bytes in small letters,
* `decode` reads digits of either case,
* `Fault.message` words the two ways a text can fail.
-/

namespace PriceRelay.Text.Hex

/-- Why a text is no sequence of bytes. -/
inductive Fault
  /-- an odd number of digits -/
  | oddLength
  /-- a byte that is no digit, and where it stands -/
  | badByte (byte : UInt8) (index : Nat)
deriving DecidableEq, Repr

/-- The character of a digit below sixteen. -/
def digitChar (d : Nat) : Char := if d < 10 then Char.ofNat (48 + d) else Char.ofNat (87 + d)

/-- The digits of one byte. -/
def encodeByte (b : UInt8) : List Char := [digitChar (b.toNat / 16), digitChar (b.toNat % 16)]

/-- The digits of some bytes, in small letters. -/
def encode (bytes : List UInt8) : List Char := bytes.flatMap encodeByte

/-- The value of a byte as a hexadecimal digit of either case. -/
def digit? (b : UInt8) : Option UInt8 :=
  if 48 ≤ b && b ≤ 57 then some (b - 48)
  else if 97 ≤ b && b ≤ 102 then some (b - 87)
  else if 65 ≤ b && b ≤ 70 then some (b - 55)
  else none

/-- Read pairs of digits, the first of them at `index`. -/
def decodeFrom (index : Nat) : List UInt8 → Except Fault (List UInt8)
  | [] => .ok []
  | [_] => .error .oddLength
  | hi :: lo :: rest =>
    match digit? hi with
    | none => .error (.badByte hi index)
    | some h =>
      match digit? lo with
      | none => .error (.badByte lo (index + 1))
      | some l =>
        match decodeFrom (index + 2) rest with
        | .error e => .error e
        | .ok bytes => .ok ((h * 16 + l) :: bytes)

/-- Read the bytes a text of digits stands for. -/
def decodeBytes (digits : List UInt8) : Except Fault (List UInt8) :=
  if digits.length % 2 = 1 then .error .oddLength else decodeFrom 0 digits

/-- Read the bytes a text of digits stands for. -/
def decode (s : String) : Except Fault (List UInt8) := decodeBytes s.toUTF8.toList

/-- A byte as the character of the same number between single quotes, with the escapes that keep
the text on one line. -/
def quotedByte (b : UInt8) : String :=
  let c := Char.ofNat b.toNat
  let inner :=
    if b == 0 then "\\0" else if b == 9 then "\\t" else if b == 10 then "\\n"
    else if b == 13 then "\\r" else if b == 39 then "\\'" else if b == 92 then "\\\\"
    else if b < 32 || (127 ≤ b && b ≤ 160) || b == 173 then
      "\\u\x7b" ++ String.ofList (Nat.toDigits 16 b.toNat) ++ "\x7d"
    else c.toString
  "'" ++ inner ++ "'"

/-- The wording of a fault. -/
def Fault.message : Fault → String
  | .oddLength => "Odd number of digits"
  | .badByte b i => "Invalid character " ++ quotedByte b ++ " at position " ++ toString i

end PriceRelay.Text.Hex
