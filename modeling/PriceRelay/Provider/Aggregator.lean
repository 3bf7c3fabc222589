import PriceRelay.Provider.Rpc
import PriceRelay.Quote
import PriceRelay.Table
/-!
# Reading aggregator contracts

An aggregator is read with two calls to its contract: one for the latest round, and one for the
digits after the point of its answers. The second is made once per contract; while it fails the
usual number of digits is assumed, and it is made again with the next round.

* `AggregatorCall` lists the two calls, `AggregatorCall.params` are what is sent for one,
* `Round.decode` and `decodeDecimals` read what comes back,
* `DecimalsMemory` is what is remembered of the contracts, `DecimalsMemory.readRound` reads a round.
-/

namespace PriceRelay

/-- A call to an aggregator contract. -/
inductive AggregatorCall
  /-- `latestRoundData()` -/
  | latestRound
  /-- `decimals()` -/
  | decimals
deriving DecidableEq, Repr

namespace AggregatorCall

/-- The four bytes that name the function called. -/
def signature : AggregatorCall → List UInt8
  | latestRound => [0xfe, 0xaf, 0x96, 0x8c]
  | decimals => [0x31, 0x3c, 0xe5, 0x67]

/-- The method of every call to a contract. -/
def method : String := "eth_call"

/-- What is sent for a call to a contract. -/
def params (call : AggregatorCall) (contract : String) : Json :=
  .array [.obj [("to", .str contract),
    ("data", .str ("0x" ++ String.ofList (Text.Hex.encode call.signature)))], .str "latest"]

end AggregatorCall

/-! ### What comes back -/

/-- The bytes of a result: digits, with or without an opening `0x`. -/
def decodeResult (result : Json) : Except Fault (List UInt8) :=
  match result.text? with
  | none => .error (.remote ("eth_call returned non-string result: " ++ result.compact))
  | some text =>
    match Text.Hex.decode ((Text.dropStart? text "0x").getD text) with
    | .ok bytes => .ok bytes
    | .error e => .error (.remote ("invalid eth_call hex: " ++ e.message))

/-- The 32 bytes of a word of a result. -/
def wordBytes (data : List UInt8) (index : Nat) : Except Fault (List UInt8) :=
  if (index + 1) * 32 ≤ data.length then .ok ((data.drop (index * 32)).take 32)
  else .error (.remote ("eth_call returned " ++ toString data.length ++
    " bytes, expected at least " ++ toString ((index + 1) * 32)))

/-- A word of a result. -/
def wordAt (data : List UInt8) (index : Nat) : Except Fault Word :=
  (wordBytes data index).map Word.ofBytes

/-- The round that a result holds in its first five words. -/
def Round.decode (data : List UInt8) (decimals : UInt8) : Except Fault Round := do
  let roundId ← wordAt data 0
  let answer ← wordAt data 1
  let startedAt ← wordAt data 2
  let updatedAt ← wordAt data 3
  let answeredInRound ← wordAt data 4
  return { roundId, answer, startedAt, updatedAt, answeredInRound, decimals }

/-- The number of digits that a result holds in its first word. -/
def decodeDecimals (data : List UInt8) : Except Fault UInt8 := do
  let word ← wordBytes data 0
  if (word.take 31).any (· ≠ 0) then throw (.remote "decimals() out of range")
  return word.getD 31 0

/-! ### The client -/

/-- The digits after the point of the contracts that have told them, by address in small letters. -/
abbrev DecimalsMemory := Table String UInt8

namespace DecimalsMemory

variable {σ : Type}

/-- What is sent, and what comes back: the result of a call to a contract. -/
abbrev Calls (σ : Type) := Channel σ (AggregatorCall × String) (Except RpcFault Json)

/-- The bytes that a call returns. -/
def call (calls : Calls σ) (c : AggregatorCall) (contract : String) (s : σ) :
    Except Fault (List UInt8) × σ :=
  match calls (c, contract) s with
  | (.error e, s) => (.error e.toFault, s)
  | (.ok result, s) => (decodeResult result, s)

/-- The digits of a contract: the remembered number, or what the contract tells. Only what it tells
is remembered. -/
def digits (calls : Calls σ) (m : DecimalsMemory) (contract : String) (s : σ) :
    UInt8 × DecimalsMemory × σ :=
  let key := Text.asciiLower contract
  match m.get? key with
  | some d => (d, m, s)
  | none =>
    let (data, s) := call calls .decimals contract s
    match data.bind decodeDecimals with
    | .ok d => (d, m.insert key d, s)
    | .error _ => (Round.assumedDecimals, m, s)

/-- Read the latest round of a contract. The digits are asked for only if the round could be
read. -/
def readRound (calls : Calls σ) (m : DecimalsMemory) (contract : String) (s : σ) :
    Except Fault Round × DecimalsMemory × σ :=
  let (data, s) := call calls .latestRound contract s
  match data with
  | .error e => (.error e, m, s)
  | .ok data =>
    let (d, m, s) := digits calls m contract s
    (Round.decode data d, m, s)

end DecimalsMemory

end PriceRelay
