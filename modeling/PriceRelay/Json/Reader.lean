import PriceRelay.Json.Value
/-!
# Reading JSON text

One tree, blanks around it, and nothing else. Reading is by recursive descent over the characters;
each function gives back what it read and the rest. The fuel is only a bound on the nesting: a text
cannot be nested deeper than it is long.

* `Json.parse?` reads a whole text,
* `Json.Reader.stringBody` reads a string after its opening quote,
* `Json.Reader.number` reads a number.
-/

namespace PriceRelay.Json

namespace Reader

/-- The four blanks of JSON. -/
def isSpace (c : Char) : Bool := c == ' ' || c == '\t' || c == '\n' || c == '\r'

/-- Pass over blanks. -/
def skipSpace (cs : List Char) : List Char := cs.dropWhile isSpace

/-! ### Strings -/

/-- A character of a string, or the code unit that an escape names. -/
inductive Piece
  /-- a character that stands for itself, or a short escape -/
  | char (c : Char)
  /-- the code unit of a four-digit escape -/
  | unit (n : Nat)
deriving DecidableEq, Repr

/-- The four digits of an escape as a code unit. -/
def unitOf (a b c d : Char) : Option Nat := Text.Numeral.continueDigits 16 0 [a, b, c, d]

/-- The character that a short escape stands for. -/
def shortEscape? (c : Char) : Option Char :=
  if c == '"' then some '"' else if c == '\\' then some '\\' else if c == '/' then some '/'
  else if c == 'b' then some '\x08' else if c == 'f' then some '\x0c'
  else if c == 'n' then some '\n' else if c == 'r' then some '\r' else if c == 't' then some '\t'
  else none

/-- The pieces of a string up to its closing quote, and the rest after it. -/
def stringBody : List Char → Option (List Piece × List Char)
  | [] => none
  | '"' :: rest => some ([], rest)
  | '\\' :: 'u' :: a :: b :: c :: d :: rest =>
    (unitOf a b c d).bind fun n => (stringBody rest).map fun r => (.unit n :: r.1, r.2)
  | '\\' :: e :: rest =>
    (shortEscape? e).bind fun c => (stringBody rest).map fun r => (.char c :: r.1, r.2)
  | c :: rest =>
    if c.toNat < 0x20 || c == '\\' then none
    else (stringBody rest).map fun r => (.char c :: r.1, r.2)

/-- The characters that pieces stand for: two units make one character if they are the halves of a
pair, and a half alone makes none. -/
def assemble : List Piece → Option (List Char)
  | [] => some []
  | .char c :: rest => (assemble rest).map (c :: ·)
  | .unit n :: rest =>
    if 0xD800 ≤ n ∧ n < 0xDC00 then
      match rest with
      | .unit m :: rest' =>
        if 0xDC00 ≤ m ∧ m < 0xE000 then
          (assemble rest').map (Char.ofNat (0x10000 + (n - 0xD800) * 0x400 + (m - 0xDC00)) :: ·)
        else none
      | _ => none
    else if 0xDC00 ≤ n ∧ n < 0xE000 then none
    else (assemble rest).map (Char.ofNat n :: ·)

/-- A string after its opening quote. -/
def string (cs : List Char) : Option (Option String × List Char) :=
  (stringBody cs).map fun r => ((assemble r.1).map String.ofList, r.2)

/-! ### Numbers -/

/-- A run of digits, of which there must be one at least. -/
def digits (cs : List Char) : Option (List Char × List Char) :=
  let ds := cs.takeWhile Char.isDigit
  if ds.isEmpty then none else some (ds, cs.dropWhile Char.isDigit)

/-- The digits before the point: a zero alone, or digits that do not begin with one. -/
def whole (cs : List Char) : Option (List Char × List Char) :=
  match cs with
  | '0' :: rest => some (['0'], rest)
  | cs => digits cs

/-- The digits after the point, if there is a point. -/
def fraction (cs : List Char) : Option (Option (List Char) × List Char) :=
  match cs with
  | '.' :: rest => (digits rest).map fun r => (some r.1, r.2)
  | cs => some (none, cs)

/-- An exponent, if there is one. -/
def exponent (cs : List Char) : Option (Option (Bool × List Char) × List Char) :=
  match cs with
  | e :: rest =>
    if e == 'e' || e == 'E' then
      match rest with
      | '-' :: ds => (digits ds).map fun r => (some (true, r.1), r.2)
      | '+' :: ds => (digits ds).map fun r => (some (false, r.1), r.2)
      | ds => (digits ds).map fun r => (some (false, r.1), r.2)
    else some (none, e :: rest)
  | [] => some (none, [])

/-- A number without its sign. -/
def unsigned (negative : Bool) (cs : List Char) : Option (Number × List Char) :=
  (whole cs).bind fun w => (fraction w.2).bind fun f => (exponent f.2).map fun e =>
    (⟨negative, w.1, f.1, e.1⟩, e.2)

/-- A number. -/
def number (cs : List Char) : Option (Number × List Char) :=
  match cs with
  | '-' :: rest => unsigned true rest
  | cs => unsigned false cs

/-! ### Trees -/

mutual

/-- A tree that begins here. -/
def value : (fuel : Nat) → List Char → Option (Json × List Char)
  | 0, _ => none
  | fuel + 1, cs =>
    match cs with
    | 'n' :: 'u' :: 'l' :: 'l' :: rest => some (.null, rest)
    | 't' :: 'r' :: 'u' :: 'e' :: rest => some (.bool true, rest)
    | 'f' :: 'a' :: 'l' :: 's' :: 'e' :: rest => some (.bool false, rest)
    | '"' :: rest => (string rest).map fun r => (.text r.1, r.2)
    | '[' :: rest =>
      match skipSpace rest with
      | ']' :: rest => some (.array [], rest)
      | rest => (elements fuel rest).map fun r => (.array r.1, r.2)
    | '{' :: rest =>
      match skipSpace rest with
      | '}' :: rest => some (.object [], rest)
      | rest => (members fuel rest).map fun r => (.object r.1, r.2)
    | cs => (number cs).map fun r => (.number r.1, r.2)

/-- The items of a list from one that begins here to the closing bracket. -/
def elements : (fuel : Nat) → List Char → Option (List Json × List Char)
  | 0, _ => none
  | fuel + 1, cs =>
    (value fuel cs).bind fun r =>
      match skipSpace r.2 with
      | ',' :: rest => (elements fuel (skipSpace rest)).map fun s => (r.1 :: s.1, s.2)
      | ']' :: rest => some ([r.1], rest)
      | _ => none

/-- The members of an object from one that begins here to the closing brace. -/
def members : (fuel : Nat) → List Char → Option (List (Option String × Json) × List Char)
  | 0, _ => none
  | fuel + 1, cs =>
    match cs with
    | '"' :: rest =>
      (string rest).bind fun name =>
        match skipSpace name.2 with
        | ':' :: rest =>
          (value fuel (skipSpace rest)).bind fun r =>
            match skipSpace r.2 with
            | ',' :: rest =>
              (members fuel (skipSpace rest)).map fun s => ((name.1, r.1) :: s.1, s.2)
            | '}' :: rest => some ([(name.1, r.1)], rest)
            | _ => none
        | _ => none
    | _ => none

end

/-- A text of one tree and blanks. -/
def document (cs : List Char) : Option Json :=
  (value (cs.length + 1) (skipSpace cs)).bind fun r =>
    if (skipSpace r.2).isEmpty then some r.1 else none

end Reader

/-- The tree a text stands for, if it is one. -/
def parse? (s : String) : Option Json := Reader.document s.toList

end PriceRelay.Json
