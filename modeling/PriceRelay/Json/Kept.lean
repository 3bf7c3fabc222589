import PriceRelay.Binary64.Text
import PriceRelay.Json.Reader
import PriceRelay.Table
/-!
# Content that is kept

A tree that is only looked through may hold anything well-formed. One whose content is kept must be
within limits: not too deep, no number beyond the reach of double precision, and no string that
stands for no text. What is kept of it is its meaning: members in the order of their names, the last
of a name, and numbers that are no whole ones of 64 bits as double-precision numbers.

* `Json.canKeep` holds of trees within the limits,
* `Json.kept` is what is kept of one.
-/

namespace PriceRelay.Json

/-- How deeply lists and objects may be nested in content that is kept. -/
def maxDepth : Nat := 127

namespace Number

/-- The double-precision number nearest to a number. -/
def toBinary64 (n : Number) : Binary64 :=
  let (digits, shift) := n.scientific
  Binary64.ofDecimal n.negative digits shift

/-- Whether a number is beyond the reach of double precision. -/
def isTooLarge (n : Number) : Bool :=
  match n.toBinary64 with
  | .infinite _ => true
  | _ => false

/-- What is kept of a number: a whole one of 64 bits as it is, any other with the fewest digits that
read back as the nearest double-precision number. -/
def kept (n : Number) : Number :=
  match n.integer? with
  | some _ => n
  | none =>
    match Reader.number n.toBinary64.withExponent.toList with
    | some (n, _) => n
    | none => n

end Number

mutual

/-- Whether content can be kept with `room` levels of lists and objects left. -/
def canKeep (room : Nat) : Json → Bool
  | .null => true
  | .bool _ => true
  | .number n => !n.isTooLarge
  | .text s => s.isSome
  | .array items => room != 0 && canKeepAll (room - 1) items
  | .object members => room != 0 && canKeepMembers (room - 1) members

/-- `canKeep` for every item. -/
def canKeepAll (room : Nat) : List Json → Bool
  | [] => true
  | j :: js => canKeep room j && canKeepAll room js

/-- `canKeep` for every member and its name. -/
def canKeepMembers (room : Nat) : List (Option String × Json) → Bool
  | [] => true
  | (name, j) :: ms => name.isSome && canKeep room j && canKeepMembers room ms

end

mutual

/-- What is kept of a tree. -/
def kept : Json → Json
  | .null => .null
  | .bool b => .bool b
  | .number n => .number n.kept
  | .text s => .text s
  | .array items => .array (keptItems items)
  | .object members => .obj (Table.ofList (keptMembers members)).toList

/-- What is kept of some items. -/
def keptItems : List Json → List Json
  | [] => []
  | j :: js => kept j :: keptItems js

/-- What is kept of some members. -/
def keptMembers : List (Option String × Json) → List (String × Json)
  | [] => []
  | (name, j) :: ms => (name.getD "", kept j) :: keptMembers ms

end

/-- What is kept of a tree, if it can be kept with `room` levels left. -/
def keep? (room : Nat) (j : Json) : Option Json := if j.canKeep room then some j.kept else none

end PriceRelay.Json
