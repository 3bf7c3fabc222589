import PriceRelay.Binary64.Text
import PriceRelay.Yaml.Lexer
/-!
# The tree of a YAML text

Tokens make up nodes: scalars, lists of nodes, and tables that pair nodes. What a plain scalar
stands for is told by its text, or by a tag.

* `Node` is a node,
* `Node.ofPlain` tells what a plain scalar stands for,
* `Node.read` reads the only document of a text. A text without a document is an empty table.
-/

namespace PriceRelay.Yaml

/-- A node. -/
inductive Node
  /-- nothing -/
  | null
  /-- a truth value -/
  | bool (b : Bool)
  /-- a whole number of 64 bits -/
  | int (i : Int)
  /-- a number with a fraction or an exponent, or one that is not finite, as written -/
  | real (text : String)
  /-- a text -/
  | text (s : String)
  /-- a list -/
  | list (items : List Node)
  /-- a table -/
  | table (pairs : List (Node × Node))
deriving Repr, BEq, Inhabited

/-! ### Plain scalars -/

/-- Words for numbers that are not finite. -/
def notFinite : List String :=
  [".inf", ".Inf", ".INF", "+.inf", "+.Inf", "+.INF", "-.inf", "-.Inf", "-.INF", ".nan", ".NaN",
    ".NAN"]

/-- Whether a text is a number with a fraction or an exponent, or one that is not finite. -/
def isReal (s : String) : Bool := notFinite.contains s || (Binary64.parse? s.toList).isSome

/-- A whole number written in some other way than with digits and a minus sign. -/
def markedInteger? (cs : List Char) : Option Int :=
  match cs with
  | '0' :: 'x' :: ds => Text.Numeral.integer? 16 ds
  | '0' :: 'o' :: ds => Text.Numeral.integer? 8 ds
  | '+' :: ds => Text.Numeral.integer? 10 ds
  | _ => none

/-- The node of a plain scalar without a tag. -/
def Node.ofPlain (s : String) : Node :=
  match markedInteger? s.toList with
  | some i => .int i
  | none =>
    if s = "" || s = "~" || s = "null" then .null
    else if s = "true" then .bool true
    else if s = "false" then .bool false
    else match Text.Numeral.integer? 10 s.toList with
      | some i => .int i
      | none => if isReal s then .real s else .text s

/-- What the handle of the common tags stands for. -/
def commonTags : String := "tag:yaml.org,2002:"

/-- The node of a plain scalar with a tag; one that does not fit its tag is nothing. -/
def Node.ofTagged (tag : String × String) (s : String) : Node :=
  if tag.1 ≠ commonTags then .text s
  else if tag.2 = "bool" then
    if s = "true" then .bool true else if s = "false" then .bool false else .null
  else if tag.2 = "int" then
    match Text.Numeral.integer? 10 s.toList with
    | some i => .int i
    | none => .null
  else if tag.2 = "float" then if isReal s then .real s else .null
  else if tag.2 = "null" then .null
  else .text s

/-- The node of a scalar. -/
def Node.ofScalar (isPlain : Bool) (tag : Option (String × String)) (s : String) : Node :=
  if isPlain then
    match tag with
    | some tag => .ofTagged tag s
    | none => .ofPlain s
  else .text s

/-! ### Reading nodes -/

/-- What a reader of nodes keeps. -/
structure Reading where
  /-- the tokens left -/
  tokens : List Token
  /-- the handle of tags that is declared, and what it stands for -/
  declared : Option (String × String) := none
  /-- names given to nodes, the latest first, each with the number of its node -/
  names : List (String × Nat) := []
  /-- named nodes that are complete, by their numbers -/
  nodes : List (Nat × Node) := []

/-- A reader of nodes. -/
abbrev Reader := StateT Reading Option

namespace Reader

/-- The next token; there is none behind the last document. -/
def peek : Reader (Option Token) := do return (← get).tokens.head?

/-- Pass a token. -/
def skip : Reader Unit := modify fun s => { s with tokens := s.tokens.tail }

/-- Refuse the text. -/
def refuse {α : Type} : Reader α := fun _ => none

/-- What a handle and suffix stand for. -/
def resolve (tag : String × String) : Reader (String × String) := do
  let (handle, suffix) := tag
  match ((← get).declared.filter fun d => d.1 = handle) with
  | some (_, address) => return (address, suffix)
  | none =>
    if handle = "!!" then return (commonTags, suffix)
    else if 2 ≤ handle.length && handle.toList.getLast? = some '!' then refuse
    else return (handle, suffix)

/-- Give a name to the next node; gives back the node's number. -/
def giveName (name : String) : Reader Nat := do
  let s ← get
  set { s with names := (name, s.names.length) :: s.names }
  return s.names.length

/-- A named node is complete. -/
def complete (number : Option Nat) (node : Node) : Reader Node := do
  match number with
  | some n => modify fun s => { s with nodes := (n, node) :: s.nodes }
  | none => pure ()
  return node

/-- The node a name stands for. Within the node itself it stands for nothing. -/
def named (name : String) : Reader Node := do
  let s ← get
  match s.names.lookup name with
  | none => refuse
  | some n => return (s.nodes.lookup n).getD .null

/-- What may stand before a node: a name and a tag, in either order. -/
def properties : Reader (Option Nat × Option (String × String)) := do
  match ← peek with
  | some (.anchor name) =>
    skip
    let number ← giveName name
    match ← peek with
    | some (.tag handle suffix) =>
      skip
      return (some number, some (← resolve (handle, suffix)))
    | _ => return (some number, none)
  | some (.tag handle suffix) =>
    skip
    let tag ← resolve (handle, suffix)
    match ← peek with
    | some (.anchor name) =>
      skip
      return (some (← giveName name), some tag)
    | _ => return (none, some tag)
  | _ => return (none, none)

/-- Add a pair to a table, which must not hold the key yet. The last pair stands first. -/
def addPair (pairs : List (Node × Node)) (key value : Node) : Reader (List (Node × Node)) :=
  if pairs.any fun p => p.1 == key then refuse else return (key, value) :: pairs

mutual

/-- A node. A block may be one unless it stands within brackets, and items without indentation may
be one behind a key. -/
def node : Nat → (blocks loose : Bool) → Reader Node
  | 0, _, _ => refuse
  | fuel + 1, blocks, loose => do
    match ← peek with
    | some (.reference name) =>
      skip
      named name
    | _ =>
      let (number, tag) ← properties
      match ← peek with
      | some .item =>
        if loose then complete number (.list (← looseItems fuel []))
        else emptyNode number tag
      | some (.scalar isPlain text) =>
        skip
        complete number (.ofScalar isPlain tag text)
      | some .flowList =>
        skip
        complete number (.list (← flowItems fuel true []))
      | some .flowTable =>
        skip
        complete number (.table (← flowPairs fuel true []))
      | some .blockList =>
        if blocks then
          skip
          complete number (.list (← items fuel []))
        else emptyNode number tag
      | some .blockTable =>
        if blocks then
          skip
          complete number (.table (← pairs fuel []))
        else emptyNode number tag
      | _ => emptyNode number tag

/-- A node of which there is nothing but a name or a tag. -/
def emptyNode (number : Option Nat) (tag : Option (String × String)) : Reader Node :=
  if number.isNone && tag.isNone then refuse else complete number (.ofScalar true tag "")

/-- Items of a block without indentation; the last one stands first. -/
def looseItems : Nat → List Node → Reader (List Node)
  | 0, _ => refuse
  | fuel + 1, read => do
    match ← peek with
    | some .item =>
      skip
      match ← peek with
      | some .item => looseItems fuel (.null :: read)
      | some .key => looseItems fuel (.null :: read)
      | some .value => looseItems fuel (.null :: read)
      | some .blockEnd => looseItems fuel (.null :: read)
      | _ => looseItems fuel ((← node fuel true false) :: read)
    | _ => return read.reverse

/-- Items of a block. -/
def items : Nat → List Node → Reader (List Node)
  | 0, _ => refuse
  | fuel + 1, read => do
    match ← peek with
    | some .blockEnd =>
      skip
      return read.reverse
    | some .item =>
      skip
      match ← peek with
      | some .item => items fuel (.null :: read)
      | some .blockEnd => items fuel (.null :: read)
      | _ => items fuel ((← node fuel true false) :: read)
    | _ => refuse

/-- What stands behind the mark of a key or a value in a block: a node, or nothing if the next
mark follows at once. -/
def blockPart : Nat → Reader Node
  | 0 => refuse
  | fuel + 1 => do
    match ← peek with
    | some .key => return .null
    | some .value => return .null
    | some .blockEnd => return .null
    | _ => node fuel true true

/-- The value of a pair of a block. -/
def blockValue : Nat → Reader Node
  | 0 => refuse
  | fuel + 1 => do
    match ← peek with
    | some .value =>
      skip
      blockPart fuel
    | _ => return .null

/-- Pairs of a block. -/
def pairs : Nat → List (Node × Node) → Reader (List (Node × Node))
  | 0, _ => refuse
  | fuel + 1, read => do
    match ← peek with
    | some .key =>
      skip
      let key ← blockPart fuel
      let value ← blockValue fuel
      pairs fuel (← addPair read key value)
    | some .value =>
      let value ← blockValue fuel
      pairs fuel (← addPair read .null value)
    | some .blockEnd =>
      skip
      return read.reverse
    | _ => refuse

/-- Items between brackets. A pair without braces is a table of its own. -/
def flowItems : Nat → (first : Bool) → List Node → Reader (List Node)
  | 0, _, _ => refuse
  | fuel + 1, first, read => do
    if (← peek) = some .flowListEnd then
      skip
      return read.reverse
    else
      if !first then
        if (← peek) = some .comma then skip else refuse
      match ← peek with
      | some .flowListEnd =>
        skip
        return read.reverse
      | some .key =>
        skip
        let key ← loneKey fuel
        let value ← flowValue fuel
        flowItems fuel false (.table [(key, value)] :: read)
      | _ => flowItems fuel false ((← node fuel false false) :: read)

/-- The key of a pair without braces. An empty one takes the mark behind it with it. -/
def loneKey : Nat → Reader Node
  | 0 => refuse
  | fuel + 1 => do
    match ← peek with
    | some .value =>
      skip
      return .null
    | some .comma =>
      skip
      return .null
    | some .flowListEnd =>
      skip
      return .null
    | _ => node fuel false false

/-- The value of a pair between brackets or braces. -/
def flowValue : Nat → Reader Node
  | 0 => refuse
  | fuel + 1 => do
    match ← peek with
    | some .value =>
      skip
      match ← peek with
      | some .comma => return .null
      | some .flowListEnd => return .null
      | some .flowTableEnd => return .null
      | _ => node fuel false false
    | _ => return .null

/-- The key of a pair between braces, behind its mark. -/
def flowKey : Nat → Reader Node
  | 0 => refuse
  | fuel + 1 => do
    match ← peek with
    | some .value => return .null
    | some .comma => return .null
    | some .flowTableEnd => return .null
    | _ => node fuel false false

/-- Pairs between braces. A key may stand alone. -/
def flowPairs : Nat → (first : Bool) → List (Node × Node) → Reader (List (Node × Node))
  | 0, _, _ => refuse
  | fuel + 1, first, read => do
    if (← peek) = some .flowTableEnd then
      skip
      return read.reverse
    else
      if !first then
        if (← peek) = some .comma then skip else refuse
      match ← peek with
      | some .flowTableEnd =>
        skip
        return read.reverse
      | some .key =>
        skip
        let key ← flowKey fuel
        let value ← flowValue fuel
        flowPairs fuel false (← addPair read key value)
      | some .value =>
        let value ← flowValue fuel
        flowPairs fuel false (← addPair read .null value)
      | _ =>
        let key ← node fuel false false
        flowPairs fuel false (← addPair read key .null)

end

/-! ### Documents -/

/-- Pass directives; the last one declares. There may be one version. -/
def directives : Nat → (version : Bool) → Reader Unit
  | 0, _ => pure ()
  | fuel + 1, version => do
    match ← peek with
    | some (.directive declares) =>
      if version && declares.isNone then refuse
      skip
      modify fun s => { s with declared := declares }
      directives fuel (version || declares.isNone)
    | _ => pure ()

/-- The node of a document behind its opening dashes; it may be missing. -/
def content (fuel : Nat) : Reader Node := do
  match ← peek with
  | none => return .null
  | some (.directive _) => return .null
  | some .documentStart => return .null
  | some .documentEnd => return .null
  | _ => node fuel true false

/-- A document that opens with dashes. -/
def markedDocument (fuel : Nat) : Reader Node := do
  directives fuel false
  match ← peek with
  | some .documentStart =>
    skip
    content fuel
  | _ => refuse

/-- The documents left. One may do without opening dashes only at the beginning and behind points,
and a directive has points before it. -/
def documents : Nat → (unmarked : Bool) → Reader (List Node)
  | 0, _ => refuse
  | fuel + 1, unmarked => do
    match ← peek with
    | none => return []
    | some .documentEnd =>
      skip
      documents fuel true
    | some (.directive _) =>
      if unmarked then return (← markedDocument fuel) :: (← documents fuel false) else refuse
    | some .documentStart => return (← markedDocument fuel) :: (← documents fuel false)
    | some _ =>
      if unmarked then return (← node fuel true false) :: (← documents fuel false) else refuse

end Reader

/-- The documents of a text. Every step of the readers but a few takes a token. -/
def Node.documents? (text : String) : Option (List Node) :=
  (Token.scan text).bind fun tokens =>
    ((Reader.documents (4 * tokens.length + 8) true).run { tokens }).map Prod.fst

/-- The only document of a text. -/
def Node.read (text : String) : Option Node :=
  (documents? text).bind fun docs =>
    match docs with
    | [] => some (.table [])
    | [doc] => some doc
    | _ => none

end PriceRelay.Yaml
