import PriceRelay.Provider.Aggregator
import PriceRelay.Provider.Quotes
import PriceRelay.Relay.Timeline
/-!
# The relay on the web

In earnest the world outside is a web of servers: endpoints are probed and contracts read by posting
calls, and quotes are asked for with queries.

* `Web` is a web of servers,
* `Online` is what a relay keeps that talks to one,
* `Online.request`, `Online.probe`, `Online.readRound` and `Online.askQuotes` are what it asks,
* `Online.providers` answer by asking.
-/

namespace PriceRelay

variable {σ : Type}

/-- A web of servers, and the parsers that read what they answer. -/
structure Web (σ : Type) where
  /-- post a text to an address -/
  post : Channel σ (String × String) (Delayed HttpReply)
  /-- ask for what is at an address -/
  get : Channel σ String (Delayed HttpReply)
  /-- what is said of a text that is no answer to a call -/
  unreadCall : Wording
  /-- what is said of a text that is no list of feeds -/
  unreadQuotes : Wording

/-- The web of someone who is cut off from it. -/
def Web.unreachable : Web σ where
  post request s := (⟨0, .unreachable request.1⟩, s)
  get target s := (⟨0, .unreachable target⟩, s)
  unreadCall _ := "not an answer to a call"
  unreadQuotes _ := "not a list of price feeds"

/-- What a relay keeps that talks to servers. -/
structure Online (σ : Type) where
  /-- the servers -/
  servers : σ
  /-- requests sent over each handle -/
  counts : RequestCounts := {}
  /-- what contracts have told of their digits -/
  decimals : DecimalsMemory := .empty
  /-- how long the requests of the present operation have taken -/
  taken : Duration := 0

namespace Online

/-- Wait for a reply. -/
def waitFor (o : Online σ) (reply : Delayed HttpReply × σ) : HttpReply × Online σ :=
  (reply.1.value, { o with servers := reply.2, taken := o.taken + reply.1.delay })

/-- Post a call. -/
def post (web : Web σ) (url : String) (body : Json) (o : Online σ) : HttpReply × Online σ :=
  o.waitFor (web.post (url, body.compact) o.servers)

/-- Ask for what is at an address. -/
def get (web : Web σ) (target : String) (o : Online σ) : HttpReply × Online σ :=
  o.waitFor (web.get target o.servers)

/-- Make a call over a handle. -/
def request (web : Web σ) (t : Transport) (method : String) (params : Json) (o : Online σ) :
    Except RpcFault Json × Online σ :=
  let (id, counts) := o.counts.next t
  let (reply, o) := { o with counts := counts }.post web t.url (Rpc.body id method params)
  (Rpc.parseReply web.unreadCall reply, o)

/-- Probe an endpoint, over a handle of its own. -/
def probe (web : Web σ) (url : String) (o : Online σ) : Except RpcFault Json × Online σ :=
  let (reply, o) := o.post web url Rpc.probeBody
  (Rpc.parseReply web.unreadCall reply, o)

/-- Call a contract over a handle. -/
def callContract (web : Web σ) (t : Transport) : DecimalsMemory.Calls (Online σ) := fun call o =>
  o.request web t AggregatorCall.method (call.1.params call.2)

/-- Read the latest round of a contract. -/
def readRound (web : Web σ) (t : Transport) (contract : String) (o : Online σ) :
    Except Fault Round × Online σ :=
  let (answer, decimals, o) := o.decimals.readRound (callContract web t) contract o
  (answer, { o with decimals := decimals })

/-- Ask for the latest quotes, and wait between two requests. -/
def askQuotes (web : Web σ) (service : QuoteService) (ids : List String) (o : Online σ) :
    Except Fault (List Quote) × Online σ :=
  let (answer, pauses, o) := service.fetchLatest web.unreadQuotes (get web) ids o
  (answer, { o with taken := pauses.foldl (· + ·) o.taken })

/-- An operation with the time its requests and pauses take. -/
def timed {α : Type} (operation : Online σ → α × Online σ) (o : Online σ) :
    Delayed α × Online σ :=
  let (a, o) := operation { o with taken := 0 }
  (⟨o.taken, a⟩, o)

/-- Answers by asking the servers. -/
def providers (web : Web σ) (service : Option QuoteService) : Providers (Online σ) where
  roundTrip _ url := timed fun o =>
    let (answer, o) := o.probe web url
    (answer.toOption.isSome, o)
  readRound t address := timed (readRound web t address)
  readDone o := o
  quotes := service.map fun service ids => timed (askQuotes web service ids)

end Online

end PriceRelay
