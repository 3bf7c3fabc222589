import PriceRelay.Fault
import PriceRelay.Json.Kept
import PriceRelay.Json.Writer
import PriceRelay.Provider.Http
/-!
# Calls over JSON-RPC

A call is a JSON object that names a method, and is answered by an object that holds a result or an
error. Nodes put errors into replies of any status, so the error is looked for first.

* `Rpc.body` is what is sent,
* `Rpc.parseReply` is what an answer means,
* `RpcFault` tells how a call can fail, and `RpcFault.toFault` what the relay makes of it.
-/

namespace PriceRelay

/-- How a call can fail. -/
inductive RpcFault
  /-- the node answered with an error -/
  | rpc (code : Int) (message : String)
  /-- nothing came back as a whole, or a status that tells of no success -/
  | http (text : String)
  /-- what came back is no answer -/
  | invalidResponse (text : String)
deriving DecidableEq, Repr

namespace RpcFault

/-- The wording of a failed call. -/
def message : RpcFault → String
  | rpc code message => toString code ++ ": " ++ message
  | http text => "transport error: " ++ text
  | invalidResponse text => "invalid response: " ++ text

/-- What the relay makes of a failed call: it is sorted by its wording. -/
def toFault (f : RpcFault) : Fault := .ofRemote f.message

end RpcFault

namespace Rpc

/-- What is sent for a call. -/
def body (id : UInt64) (method : String) (params : Json) : Json :=
  .obj [("jsonrpc", .str "2.0"), ("id", .int id.toNat), ("method", .str method),
    ("params", params)]

/-- The error that an answer holds. -/
def error? (j : Json) : Option RpcFault :=
  (j.fields ["code", "message"]).bind fun vs =>
    match vs with
    | [some code, some message] => do
      let code ← code.integer?
      let message ← message.text?
      if -(Nat.pow 2 63) ≤ code ∧ code < Nat.pow 2 63 then some (.rpc code message) else none
    | _ => none

/-- An answer: its result and its error, each of which may be missing. The result is kept, so it
must be within the limits. -/
def answer? (j : Json) : Option (Option Json × Option RpcFault) :=
  (j.fields ["result", "error"]).bind fun vs =>
    match vs with
    | [result, error] => do
      let result ← match result with
        | none => some none
        | some v => if v.isNull then some none else (v.keep? (Json.maxDepth - 1)).map some
      let error ← match error with
        | none => some none
        | some v => if v.isNull then some none else (error? v).map some
      some (result, error)
    | _ => none

/-- What is said of a status that tells of no success. -/
def statusText (status : Nat) : String := "HTTP status " ++ toString status

/-- What the text of an answer means, given the status it came with, and what is said of one that
is no answer. -/
def parseText (unread : Wording) (status : Nat) (text : String) : Except RpcFault Json :=
  match (Json.parse? text).bind answer? with
  | some (_, some fault) => .error fault
  | some (some result, none) =>
    if HttpReply.isSuccess status then .ok result else .error (.http (statusText status))
  | some (none, none) =>
    .error (if HttpReply.isSuccess status then .invalidResponse "missing result"
      else .http (statusText status))
  | none =>
    .error (if HttpReply.isSuccess status then .invalidResponse (unread text)
      else .http (statusText status))

/-- What a reply means. -/
def parseReply (unread : Wording) : HttpReply → Except RpcFault Json
  | .failed detail | .brokenOff _ detail => .error (.http detail)
  | .answered status bytes => parseText unread status (Text.Utf8.decode bytes)

/-- The method that probes an endpoint. -/
def probeMethod : String := "web3_clientVersion"

/-- The call that probes an endpoint; it is the first over a handle of its own. -/
def probeBody : Json := body 1 probeMethod (.array [])

end Rpc

end PriceRelay
