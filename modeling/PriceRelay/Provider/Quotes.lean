import PriceRelay.Config.Basic
import PriceRelay.Json.Reader
import PriceRelay.Provider.Http
import PriceRelay.Quote
import PriceRelay.Table
import PriceRelay.Text.Form
/-!
# The quote service

The service answers one request for all feeds. A request that fails is sent again after a pause that
doubles each time, so many times and no more. Of the answer, feeds whose numerals cannot be read are
passed over; a quote carries the id by which its feed was asked for.

* `QuoteService` is the address of the service and how often to ask,
* `QuoteReply.read` reads an answer,
* `QuoteService.fetchLatest` asks.
-/

namespace PriceRelay

/-! ### Answers -/

namespace QuoteReply

/-- An id without what spellings may differ in: an opening `0x`, however often, and the case of its
letters. -/
def normalChars : List Char → List Char
  | '0' :: 'x' :: rest => normalChars rest
  | cs => cs.map Char.toLower

/-- The normal form of an id. -/
def normalId (id : String) : String := String.ofList (normalChars id.toList)

/-- The id by which a feed was asked for: the last one requested of its normal form, or its own. -/
def requestedId (requested : List String) (id : String) : String :=
  (requested.reverse.find? fun r => normalId r = normalId id).getD id

/-- A price as it is written in an answer. -/
structure PriceText where
  /-- the price -/
  price : String
  /-- its confidence -/
  confidence : String
  /-- power of ten of the two -/
  exponent : Int32
  /-- when it was published -/
  publishTime : Int64
deriving DecidableEq, Repr

/-- A feed as it is written in an answer. -/
structure FeedText where
  /-- its id -/
  id : String
  /-- its price -/
  price : PriceText
  /-- its moving average, if there is one -/
  ema : Option PriceText
  /-- its slot, if it is told -/
  slot : Option Int64
deriving DecidableEq, Repr

/-- A whole number between `-bound` and `bound - 1`. -/
def within (bound : Int) (j : Json) : Option Int :=
  j.integer?.bind fun i => if -bound ≤ i ∧ i < bound then some i else none

/-- Something that may be missing or `null`. -/
def optional {α : Type} (read : Json → Option α) (v : Option Json) : Option (Option α) :=
  match v with
  | none => some none
  | some v => if v.isNull then some none else (read v).map some

/-- A price. -/
def priceText? (j : Json) : Option PriceText :=
  (j.fields ["price", "conf", "expo", "publish_time"]).bind fun vs =>
    match vs with
    | [some price, some confidence, some exponent, some publishTime] => do
      let price ← price.text?
      let confidence ← confidence.text?
      let exponent ← within (Nat.pow 2 31) exponent
      let publishTime ← within (Nat.pow 2 63) publishTime
      some ⟨price, confidence, Int32.ofInt exponent, Int64.ofInt publishTime⟩
    | _ => none

/-- The slot that is told beside a price. -/
def slot? (j : Json) : Option (Option Int64) :=
  (j.fields ["slot"]).bind fun vs =>
    match vs with
    | [slot] => optional (fun v => (within (Nat.pow 2 63) v).map Int64.ofInt) slot
    | _ => none

/-- A feed. -/
def feedText? (j : Json) : Option FeedText :=
  (j.fields ["id", "price", "ema_price", "metadata"]).bind fun vs =>
    match vs with
    | [some id, some price, ema, metadata] => do
      let id ← id.text?
      let price ← priceText? price
      let ema ← optional priceText? ema
      let slot ← optional slot? metadata
      some ⟨id, price, ema, slot.join⟩
    | _ => none

/-- The feeds of an answer. -/
def feeds? (j : Json) : Option (List FeedText) :=
  (j.fields ["parsed"]).bind fun vs =>
    match vs with
    | [some parsed] => parsed.items?.bind fun items => items.mapM feedText?
    | _ => some []

/-- The price and confidence that a price text stands for. -/
def PriceText.values? (p : PriceText) : Option (Word × Word) := do
  let price ← Word.signed? p.price
  let confidence ← Word.unsigned? p.confidence
  some (price, confidence)

/-- The moving average of a feed, unless there is one that cannot be read. -/
def FeedText.ema? (f : FeedText) : Option (Option (Word × Word)) :=
  match f.ema with
  | none => some none
  | some p => p.values?.map some

/-- The quote of a feed, if its numerals can be read. -/
def FeedText.quote? (requested : List String) (f : FeedText) : Option Quote := do
  let (magnitude, confidence) ← f.price.values?
  let ema ← f.ema?
  some {
    identifier := requestedId requested f.id
    magnitude, confidence
    scale := f.price.exponent
    publishTime := f.price.publishTime
    slot := f.slot.getD 0
    ema := ema.map Prod.fst
    emaConfidence := ema.map Prod.snd }

/-- What is said of an answer that is no list of feeds; it is not sorted by the markers. -/
def malformed (unread : Wording) (text : String) : Fault :=
  .remote ("invalid Hermes response: " ++ unread text)

/-- The quotes of an answer, in its order. -/
def read (unread : Wording) (requested : List String) (text : String) :
    Except Fault (List Quote) :=
  match (Json.parse? text).bind feeds? with
  | none => .error (malformed unread text)
  | some feeds => .ok (feeds.filterMap (FeedText.quote? requested))

end QuoteReply

/-! ### The client -/

/-- The quote service and how to ask it. -/
structure QuoteService where
  /-- its address, without a slash at its end -/
  endpoint : String
  /-- how many times a request may be sent again -/
  retries : UInt32
deriving DecidableEq, Repr

namespace QuoteService

/-- The service of a configuration. -/
def ofConfig (c : QuoteConfig) : QuoteService where
  endpoint := String.ofList (Text.dropEndWhile (· == '/') c.endpoint.toList)
  retries := c.httpRetries

/-- The path that latest prices are asked for at. -/
def path : String := "/v2/updates/price/latest"

/-- What is asked for some ids. -/
def query (ids : List String) : String :=
  Text.Form.query (ids.map (fun id => ("ids[]", id)) ++ [("parsed", "true")])

/-- The address and query of a request. -/
def target (s : QuoteService) (ids : List String) : String := s.endpoint ++ path ++ "?" ++ query ids

/-- How long it takes before a request is sent again for the first time. -/
def firstPause : Duration := .ofMillis 100

/-- What is said of a status that tells of no success, and of the body it came with. -/
def statusText (status : Nat) (body : String) : String :=
  "HTTP error! status: " ++ toString status ++ ", body: " ++ body

/-- What is said of a reply that tells of no success. A body that broke off counts as empty. -/
def failureText : HttpReply → Option String
  | .failed detail => some ("HTTP request failed: " ++ detail)
  | .brokenOff status _ =>
    if HttpReply.isSuccess status then none else some (statusText status "")
  | .answered status body =>
    if HttpReply.isSuccess status then none else some (statusText status (Text.Utf8.decode body))

variable {σ : Type}

/-- Send a request until it succeeds, `retries` times more at most; gives back what came of it and
the pauses made. One whose status tells of success is not sent again, even if its body breaks
off. -/
def send (get : Channel σ String HttpReply) (target : String) :
    (retries : Nat) → (pause : Duration) → σ → Except String (List UInt8) × List Duration × σ
  | retries, pause, s =>
    let (reply, s) := get target s
    match failureText reply, reply with
    | some text, _ =>
      match retries with
      | 0 => (.error text, [], s)
      | retries + 1 =>
        let (outcome, pauses, s) := send get target retries (pause * 2) s
        (outcome, pause :: pauses, s)
    | none, .answered _ body => (.ok body, [], s)
    | none, .brokenOff _ detail =>
      (.error ("failed to read Hermes response body: " ++ detail), [], s)
    | none, .failed detail => (.error detail, [], s)

/-- Ask for the latest quotes of some ids; gives back the answer and the pauses made. Nothing is
asked for no ids. -/
def fetchLatest (unread : Wording) (service : QuoteService) (get : Channel σ String HttpReply)
    (ids : List String) (s : σ) : Except Fault (List Quote) × List Duration × σ :=
  if ids.isEmpty then (.ok [], [], s)
  else
    match send get (service.target ids) service.retries.toNat firstPause s with
    | (.error text, pauses, s) => (.error (.ofRemote text), pauses, s)
    | (.ok body, pauses, s) => (QuoteReply.read unread ids (Text.Utf8.decode body), pauses, s)

end QuoteService

end PriceRelay
