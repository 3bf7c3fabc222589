import PriceRelay.Network
import PriceRelay.Text.Blank
/-!
# Sources and feeds

A price comes from a source, and a feed is one identifier of one source on one network. Identifiers
of different sources are kept apart by an opening that no two sources share: the name of an
embedder's own source is escaped so that it holds no colon.

* `Source.opening` is what the keys of a source begin with,
* `Feed.key` is a feed's identifier behind the opening of its source,
* `Feed.display` adds the network.
-/

namespace PriceRelay

/-- Where a price comes from. -/
inductive Source
  /-- aggregator contracts on a chain -/
  | chainlink
  /-- the off-chain quote service -/
  | pyth
  /-- whatever an embedding program adds -/
  | custom (name : String)
deriving DecidableEq, Repr

namespace Source

/-- The name of a source. -/
def name : Source → String
  | chainlink => "chainlink"
  | pyth => "pyth"
  | custom name => name

/-- The source of a name: one of the two built-in ones in whatever case, or an embedder's own. -/
def ofName (s : String) : Source :=
  if Text.asciiLower s = "chainlink" then chainlink
  else if Text.asciiLower s = "pyth" then pyth
  else custom s

/-- A character of an embedder's name, where a percent sign and a colon are escaped. -/
def escapeChar (c : Char) : List Char :=
  if c = '%' then ['%', '2', '5'] else if c = ':' then ['%', '3', 'A'] else [c]

/-- An embedder's name without a colon in it. -/
def escape (name : List Char) : List Char := name.flatMap escapeChar

/-- What every key of a source begins with. -/
def openingChars : Source → List Char
  | chainlink => "chainlink:".toList
  | pyth => "pyth:".toList
  | custom name => "custom:".toList ++ escape name.toList ++ [':']

/-- What every key of a source begins with. -/
def opening (s : Source) : String := String.ofList s.openingChars

/-- The JSON form of a source. -/
def toJson : Source → Json
  | chainlink => .str "chainlink"
  | pyth => .str "pyth"
  | custom name => .obj [("custom", .str name)]

/-- The source of a JSON tree: the name of a built-in one, by itself or in an object with `null`, or
an object that gives an embedder's name. -/
def ofJson? (j : Json) : Option Source :=
  let builtIn (s : String) : Option Source :=
    if s = "chainlink" then some chainlink else if s = "pyth" then some pyth else none
  match j with
  | .text (some s) => builtIn s
  | .object [(some s, .null)] => builtIn s
  | .object [(some s, .text (some name))] => if s = "custom" then some (custom name) else none
  | _ => none

/-- The key of an identifier of a source. -/
def keyOf (s : Source) (identifier : String) : String :=
  String.ofList (s.openingChars ++ identifier.toList)

/-- The identifier a key of this source was made of. -/
def identifierOf? (s : Source) (key : String) : Option String :=
  (s.openingChars.isPrefixOf? key.toList).map String.ofList

end Source

/-- One identifier of one source on one network. -/
structure Feed where
  /-- the network it is read on -/
  network : NetworkId
  /-- where its price comes from -/
  source : Source
  /-- what the source calls it -/
  identifier : String
deriving DecidableEq, Repr

namespace Feed

/-- The identifier behind the opening of the source. -/
def key (f : Feed) : String := f.source.keyOf f.identifier

/-- The key and the network. -/
def display (f : Feed) : String := f.key ++ "@" ++ toString f.network.toNat

end Feed

end PriceRelay
