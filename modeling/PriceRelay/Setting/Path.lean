import PriceRelay.Setting.Basic
/-!
# Paths into settings

A name of a setting is a path: names joined by points, with indices in brackets where a list is
entered. A setting is put at a path whatever stands there already: what is no table or no list on
the way is replaced by one, and a list that is too short is filled up with nothing.

* `Path` is a path, `Path.parse?` reads one,
* `Setting.overlay` lays one tree over another,
* `Setting.put` puts a setting at a path.
-/

namespace PriceRelay

/-- A step of a path. -/
inductive Path.Step
  /-- into a table -/
  | member (name : String)
  /-- into a list, from its end if the index is negative -/
  | index (i : Int)
deriving DecidableEq, Repr

/-- A path: a name, and steps from what it names. -/
structure Path where
  /-- the first name -/
  start : String
  /-- the steps -/
  steps : List Path.Step := []
deriving DecidableEq, Repr

namespace Path

/-! ### Reading -/

/-- A character of a name. -/
def isNameChar (c : Char) : Bool := c.isAlphanum || c == ' ' || c == '_' || c == '-'

/-- Digits with an optional minus sign. -/
def index? (cs : List Char) : Option Int :=
  match cs with
  | '-' :: ds => if ds.all Char.isDigit then Text.Numeral.integer? 10 cs else none
  | ds => if ds.all Char.isDigit then Text.Numeral.integer? 10 cs else none

/-- The steps of a path, so many at most. -/
def steps? : Nat → List Char → Option (List Step)
  | _, [] => some []
  | 0, _ => none
  | fuel + 1, '.' :: cs =>
    let name := cs.takeWhile isNameChar
    if name.isEmpty then none
    else (steps? fuel (cs.dropWhile isNameChar)).map (.member (String.ofList name) :: ·)
  | fuel + 1, '[' :: cs =>
    match cs.dropWhile (· ≠ ']') with
    | [] => none
    | _ :: rest => do
      let i ← index? (cs.takeWhile (· ≠ ']'))
      (steps? fuel rest).map (.index i :: ·)
  | _ + 1, _ => none

/-- Read a path. -/
def parse? (s : String) : Option Path :=
  let cs := s.toList
  let name := cs.takeWhile isNameChar
  if name.isEmpty then none
  else (steps? cs.length (cs.dropWhile isNameChar)).map fun steps => ⟨String.ofList name, steps⟩

/-- The path that a name stands for: one that cannot be read is a single name. -/
def ofName (s : String) : Path := (parse? s).getD ⟨s, []⟩

end Path

namespace Setting

/-! ### Putting settings -/

/-- A name in small letters. Besides the capitals of ASCII one character has a small letter of
ASCII, the sign of the kelvin. -/
def lowerName (s : String) : String :=
  String.ofList (s.toList.map fun c => if c == '\u212A' then 'k' else c.toLower)

mutual

/-- Lay a tree over what stands at a place. Tables are laid over each other name by name; an empty
one changes nothing. -/
def overlay : Setting → Option Setting → Setting
  | .table ms, old => overlayAll ms (old.getD (.table []))
  | v, _ => v

/-- Lay members over what stands at a place. -/
def overlayAll : List (String × Setting) → Setting → Setting
  | [], old => old
  | (name, v) :: ms, old =>
    let key := lowerName name
    overlayAll ms (.table (putMember key (overlay v (lookup key old.members)) old.members))

end

/-- The place of an index in a list of some length. -/
def position (i : Int) (length : Nat) : Nat :=
  if 0 ≤ i then i.toNat else length - i.natAbs

/-- A list filled up with nothing so that it has a place. -/
def fillUp (place : Nat) (vs : List Setting) : List Setting :=
  vs ++ List.replicate (place + 1 - vs.length) .null

/-- Put a setting at the end of some steps from what stands at a place. -/
def putAt (value : Setting) : List Path.Step → Option Setting → Setting
  | [], old => overlay value old
  | .member name :: steps, old =>
    let ms := (old.getD .null).members
    let key := lowerName name
    .table (putMember key (putAt value steps (lookup key ms)) ms)
  | .index i :: steps, old =>
    let vs := (old.getD .null).items
    let place := position i vs.length
    let vs := fillUp place vs
    .list (vs.set place (if steps.isEmpty then value else putAt value steps vs[place]?))

/-- Put a setting at a path. -/
def put (root : Setting) (path : Path) (value : Setting) : Setting :=
  putAt value (.member path.start :: path.steps) (some root)

end Setting

end PriceRelay
