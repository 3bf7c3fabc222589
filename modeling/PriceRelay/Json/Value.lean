import PriceRelay.Text.Numeral
/-!
# JSON values

The tree a JSON text stands for. Numbers stay as they were written, since a reader of whole numbers
refuses a fraction or an exponent; members stay in the order and number in which they were written,
since a repeated one is a fault in some places.

* `Json` is the tree,
* `Json.Number.integer?` is the value of a number written as a whole one,
* `Json.fields` are the fields of a record.
-/

namespace PriceRelay

namespace Json

/-- A number as written. -/
structure Number where
  /-- a minus sign stands in front -/
  negative : Bool
  /-- the digits before the point -/
  whole : List Char
  /-- the digits after the point, if there is one -/
  fraction : Option (List Char) := none
  /-- the exponent, if there is one: whether it is negative, and its digits -/
  exponent : Option (Bool × List Char) := none
deriving DecidableEq, Repr

end Json

/-- A JSON text as a tree. A string whose escapes name one half of a surrogate pair stands for no
text; it is well-formed all the same and kept as `none`. -/
inductive Json
  /-- the word `null` -/
  | null
  /-- one of the words `true` and `false` -/
  | bool (b : Bool)
  /-- a number -/
  | number (n : Json.Number)
  /-- a string -/
  | text (s : Option String)
  /-- a list -/
  | array (items : List Json)
  /-- an object with its members as written -/
  | object (members : List (Option String × Json))
deriving Repr, Inhabited

namespace Json

/-- A string that stands for `s`. -/
def str (s : String) : Json := .text (some s)

/-- A whole number. -/
def int (i : Int) : Json := .number ⟨i < 0, (toString i.natAbs).toList, none, none⟩

/-- An object of named members. -/
def obj (members : List (String × Json)) : Json := .object (members.map fun m => (some m.1, m.2))

namespace Number

/-- The value of a number written without fraction and exponent, if it fits 64 bits with or without
sign. A zero with a minus sign is no whole number. -/
def integer? (n : Number) : Option Int :=
  match n.fraction, n.exponent with
  | none, none =>
    (Text.Numeral.ofDigits 10 n.whole).bind fun v =>
      if n.negative then
        if v = 0 then none else if v ≤ Nat.pow 2 63 then some (-(v : Int)) else none
      else if v < UInt64.size then some v else none
  | _, _ => none

/-- The digits of a number without its point, and the power of ten they are to be taken with. -/
def scientific (n : Number) : Nat × Int :=
  let fraction := n.fraction.getD []
  let digits := (Text.Numeral.ofDigits 10 (n.whole ++ fraction)).getD 0
  let shift : Int := match n.exponent with
    | none => 0
    | some (neg, ds) =>
      let e : Int := (Text.Numeral.ofDigits 10 ds).getD 0
      if neg then -e else e
  (digits, shift - fraction.length)

end Number

/-- The whole number a tree stands for. -/
def integer? : Json → Option Int
  | .number n => n.integer?
  | _ => none

/-- The number without sign of at most `bound` a tree stands for. -/
def natural? (bound : Nat) (j : Json) : Option Nat :=
  j.integer?.bind fun i => if 0 ≤ i ∧ i.toNat ≤ bound then some i.toNat else none

/-- The text a tree stands for. -/
def text? : Json → Option String
  | .text s => s
  | _ => none

/-- The items of a list. -/
def items? : Json → Option (List Json)
  | .array items => some items
  | _ => none

/-- Whether a tree is the word `null`. -/
def isNull : Json → Bool
  | .null => true
  | _ => false

/-- The members of an object whose names all stand for texts. -/
def members? : Json → Option (List (String × Json))
  | .object ms => ms.mapM fun m => m.1.map fun name => (name, m.2)
  | _ => none

/-! ### Fields of a record -/

/-- What is given for one name: nothing, one tree, or a refusal if the name is repeated. -/
def field (name : String) (members : List (String × Json)) : Option (Option Json) :=
  match members.filter fun m => m.1 = name with
  | [] => some none
  | [m] => some (some m.2)
  | _ => none

/-- What is given for each name of a record, in the order of the names. A record is an object, where
other members are passed over and a repeated name is refused, or a list of the values by position,
which may stop early but not be too long. -/
def fields (names : List String) : Json → Option (List (Option Json))
  | .object ms => (Json.object ms).members?.bind fun ms => names.mapM fun name => field name ms
  | .array items =>
    if names.length < items.length then none
    else some (items.map some ++ List.replicate (names.length - items.length) none)
  | _ => none

end Json

end PriceRelay
