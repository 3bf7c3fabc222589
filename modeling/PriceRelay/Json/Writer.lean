import PriceRelay.Json.Value
import PriceRelay.Text.Hex
/-!
# Writing JSON text

The shortest text of a tree: no blanks, members in the order in which they stand, and in strings
only what must be escaped.

* `Json.write` gives the characters, `Json.compact` the text.
-/

namespace PriceRelay.Json

namespace Writer

/-- A character inside a string. -/
def character (c : Char) : List Char :=
  if c == '"' then ['\\', '"'] else if c == '\\' then ['\\', '\\']
  else if c == '\x08' then ['\\', 'b'] else if c == '\x0c' then ['\\', 'f']
  else if c == '\n' then ['\\', 'n'] else if c == '\r' then ['\\', 'r']
  else if c == '\t' then ['\\', 't']
  else if c.toNat < 0x20 then '\\' :: 'u' :: '0' :: '0' :: Text.Hex.encodeByte c.toNat.toUInt8
  else [c]

/-- A string between its quotes. A string that stands for no text is written as one half of a
surrogate pair. -/
def string (s : Option String) : List Char :=
  match s with
  | some s => '"' :: s.toList.flatMap character ++ ['"']
  | none => "\"\\ud800\"".toList

/-- A number as it was written. -/
def number (n : Number) : List Char :=
  (if n.negative then ['-'] else []) ++ n.whole ++
    (match n.fraction with | none => [] | some ds => '.' :: ds) ++
    (match n.exponent with
      | none => []
      | some (neg, ds) => 'e' :: (if neg then ['-'] else []) ++ ds)

end Writer

mutual

/-- The characters of a tree. -/
def write : Json → List Char
  | .null => ['n', 'u', 'l', 'l']
  | .bool true => ['t', 'r', 'u', 'e']
  | .bool false => ['f', 'a', 'l', 's', 'e']
  | .number n => Writer.number n
  | .text s => Writer.string s
  | .array [] => ['[', ']']
  | .array (j :: js) => '[' :: write j ++ writeItems js
  | .object [] => ['\x7b', '\x7d']
  | .object ((name, j) :: ms) =>
    '\x7b' :: Writer.string name ++ ':' :: write j ++ writeMembers ms

/-- The items after the first, and the closing bracket. -/
def writeItems : List Json → List Char
  | [] => [']']
  | j :: js => ',' :: write j ++ writeItems js

/-- The members after the first, and the closing brace. -/
def writeMembers : List (Option String × Json) → List Char
  | [] => ['\x7d']
  | (name, j) :: ms => ',' :: Writer.string name ++ ':' :: write j ++ writeMembers ms

end

/-- The shortest text of a tree. -/
def compact (j : Json) : String := String.ofList j.write

end PriceRelay.Json
