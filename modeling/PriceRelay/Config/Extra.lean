import PriceRelay.Config.Basic
import PriceRelay.Json.Kept
import PriceRelay.Table
/-!
# Extra endpoints

More candidate endpoints may come as a JSON document that lists addresses by chain. Only plain web
addresses are of use: an address with a placeholder for a key is passed over, and so is one that a
network has already, however it is spelled there.

* `ExtraEndpoints` is such a document, `ExtraEndpoints.ofJson?` reads one,
* `ExtraEndpoints.urlsFor` are the useful addresses of a network,
* `Config.mergeExtra` appends them to the configured networks.
-/

namespace PriceRelay

/-- Addresses by chain, the chains in the order in which they are gone through. Each chain stands
under its number as text; an entry that gives no address is kept as nothing. -/
structure ExtraEndpoints where
  /-- the chains with their entries -/
  chains : List (String × List (Option String)) := []
deriving DecidableEq, Repr

namespace ExtraEndpoints

/-! ### Reading -/

/-- The address that an entry gives: a text, or the only member `url` of an object if it is one. -/
def entryUrl (j : Json) : Option String :=
  match j with
  | .text s => s
  | .object _ =>
    match j.members? with
    | none => none
    | some ms =>
      match ms.filter fun m => m.1 = "url" with
      | [m] => m.2.text?
      | _ => none
  | _ => none

/-- The entries of a chain. Their content is kept, so it must be within the limits; it lies below
three levels of the document. -/
def entries? (j : Json) : Option (List (Option String)) :=
  (j.fields ["rpcs"]).bind fun vs =>
    match vs with
    | [some rpcs] =>
      rpcs.items?.bind fun items =>
        if items.all (Json.canKeep (Json.maxDepth - 3)) then some (items.map entryUrl)
        else none
    | _ => some []

/-- The chains of a document; of two with one name the later counts. -/
def ofTree? (j : Json) : Option ExtraEndpoints :=
  j.members?.bind fun ms =>
    (ms.mapM fun m => (entries? m.2).map fun es => (m.1, es)).map fun chains =>
      ⟨(Table.ofList chains).toList⟩

/-- The chains of a JSON text. -/
def ofJson? (text : String) : Option ExtraEndpoints := (Json.parse? text).bind ofTree?

/-- Read a JSON text. -/
def read (text : String) : Except Fault ExtraEndpoints :=
  match ofJson? text with
  | some extra => .ok extra
  | none => .error (.config (.malformedExtraList text))

/-! ### Addresses of a network -/

/-- Whether an address is a plain one of the web, without a placeholder. -/
def isPlain (url : String) : Bool :=
  (Text.startsWith url "https://" || Text.startsWith url "http://") && !Text.contains url "$\x7b"

/-- The network a chain is listed under. -/
def networkOf? (chain : String) : Option NetworkId := Text.Numeral.word64? (Text.trim chain)

/-- The useful addresses among some entries. -/
def plainUrls (entries : List (Option String)) : List String :=
  ((entries.filterMap id).map Text.trim).filter isPlain

/-- The useful addresses of a network. -/
def urlsFor (extra : ExtraEndpoints) (n : NetworkId) : List String :=
  (extra.chains.filter fun c => networkOf? c.1 = some n).flatMap fun c => plainUrls c.2

end ExtraEndpoints

/-! ### Merging -/

/-- What two spellings of one address have in common: blanks around it, slashes at its end and the
case of its letters do not count. -/
def endpointKey (url : String) : String :=
  Text.asciiLower (String.ofList (Text.dropEndWhile (· == '/') (Text.trimChars url.toList)))

/-- The addresses among `urls` that are not known yet, each once. -/
def freshUrls (known : List String) : List String → List String
  | [] => []
  | url :: urls =>
    if endpointKey url ∈ known then freshUrls known urls
    else url :: freshUrls (endpointKey url :: known) urls

/-- The addresses that extra endpoints add to a network. -/
def NetworkConfig.additions (extra : ExtraEndpoints) (n : NetworkConfig) : List String :=
  freshUrls (n.endpoints.map endpointKey) (extra.urlsFor n.network)

/-- A network with the addresses that extra endpoints add. -/
def NetworkConfig.mergeExtra (extra : ExtraEndpoints) (n : NetworkConfig) : NetworkConfig :=
  { n with endpoints := n.endpoints ++ n.additions extra }

/-- A configuration with the addresses that extra endpoints add, and how many they are. Networks
that are not configured are passed over. -/
def Config.mergeExtra (extra : ExtraEndpoints) (c : Config) : Config × Nat :=
  ({ c with networks := c.networks.map (NetworkConfig.mergeExtra extra) },
    (c.networks.flatMap fun n => n.additions extra).length)

end PriceRelay
