import PriceRelay.Config.Format
import PriceRelay.Yaml.Node
/-!
# Trees of settings

Settings come from a file and from the environment, as one tree of tables, lists and scalars. The
scalars are lenient: a number may be given where a text is wanted, and the other way round.

* `Setting` is a tree of settings,
* `Setting.ofNode?` makes one of the tree of a file,
* `Setting.format` is the lenient format that a configuration is read in.
-/

namespace PriceRelay

/-- A tree of settings. -/
inductive Setting
  /-- nothing -/
  | null
  /-- a truth value -/
  | bool (b : Bool)
  /-- a whole number of 64 bits -/
  | int (i : Int)
  /-- a number that is not whole, or too large -/
  | real (x : Binary64)
  /-- a text -/
  | text (s : String)
  /-- a list -/
  | list (items : List Setting)
  /-- a table, each name in it at most once -/
  | table (members : List (String × Setting))
deriving Repr, Inhabited

namespace Setting

/-! ### Tables -/

/-- The members of a table; anything else has none. -/
def members : Setting → List (String × Setting)
  | table ms => ms
  | _ => []

/-- The items of a list; anything else has none. -/
def items : Setting → List Setting
  | list vs => vs
  | _ => []

/-- The value of a name among members. -/
def lookup (name : String) : List (String × Setting) → Option Setting
  | [] => none
  | (n, v) :: ms => if n = name then some v else lookup name ms

/-- Members in which a name has a value; a new name comes last. -/
def putMember (name : String) (value : Setting) : List (String × Setting) → List (String × Setting)
  | [] => [(name, value)]
  | (n, v) :: ms => if n = name then (n, value) :: ms else (n, v) :: putMember name value ms

/-! ### From the tree of a file -/

/-- The name that a key stands for; truth values, fractions and collections are no names. -/
def nameOf? : Yaml.Node → Option String
  | .text s => some s
  | .int i => some (toString i)
  | _ => none

mutual

/-- The settings of a node. A number with a word for what is not finite is refused unless the word
is a bare one. -/
def ofNode? : Yaml.Node → Option Setting
  | .null => some .null
  | .bool b => some (.bool b)
  | .int i => some (.int i)
  | .real digits => (Binary64.parse? digits.toList).map .real
  | .text s => some (.text s)
  | .list nodes => (ofNodes? nodes).map .list
  | .table pairs => (ofPairs? [] pairs).map .table

/-- The settings of some nodes. -/
def ofNodes? : List Yaml.Node → Option (List Setting)
  | [] => some []
  | n :: ns => (ofNode? n).bind fun v => (ofNodes? ns).map (v :: ·)

/-- Members of a table, put to those before them. -/
def ofPairs? (before : List (String × Setting)) :
    List (Yaml.Node × Yaml.Node) → Option (List (String × Setting))
  | [] => some before
  | (key, value) :: pairs =>
    (nameOf? key).bind fun name =>
      (ofNode? value).bind fun v => ofPairs? (putMember name v before) pairs

end

/-- The settings in the text of a file, which must be a table. -/
def ofText? (text : String) : Option Setting :=
  ((Yaml.Node.read text).bind ofNode?).bind fun s =>
    match s with
    | .table ms => some (.table ms)
    | _ => none

/-! ### Reading a configuration -/

/-- The number that a truth word stands for, in letters of either case. -/
def truthWord? (s : String) : Option Nat :=
  let word := Text.asciiLower s
  if word = "true" || word = "on" || word = "yes" then some 1
  else if word = "false" || word = "off" || word = "no" then some 0
  else none

/-- The number without sign that a scalar stands for. -/
def word? : Setting → Option Nat
  | bool b => some b.toNat
  | int i => if 0 ≤ i then some i.toNat else none
  | real x => some x.roundedWord.toNat
  | text s => (truthWord? s).or ((Text.Numeral.word64? s).map UInt64.toNat)
  | _ => none

/-- The text that a scalar stands for. -/
def text? : Setting → Option String
  | bool b => some (if b then "true" else "false")
  | int i => some (toString i)
  | real x => some x.plain
  | text s => some s
  | _ => none

/-- The items of a list. -/
def items? : Setting → Option (List Setting)
  | list vs => some vs
  | _ => none

/-- Whether a tree is nothing. -/
def isNull : Setting → Bool
  | null => true
  | _ => false

/-- What a record gives for some fields: a table by name, a list by position. What is not asked for
is passed over. -/
def fields (names : List String) : Setting → Option (List (Option Setting))
  | table ms => some (names.map fun name => lookup name ms)
  | list vs =>
    some ((vs.take names.length).map some ++ List.replicate (names.length - vs.length) none)
  | _ => none

/-- The lenient format. -/
def format : Format Setting where
  isNull := isNull
  natural bound v := v.word?.bind fun n => if n ≤ bound then some n else none
  text := text?
  items := items?
  fields := fields

/-- The configuration that settings stand for. -/
def config? (s : Setting) : Option Config := format.config s

end Setting

end PriceRelay
