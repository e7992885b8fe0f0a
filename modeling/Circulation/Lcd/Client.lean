import Circulation.Event
import Circulation.Lcd.Body
import Circulation.Lcd.Path
import Circulation.Program
import Circulation.Url.Basic

/-!
# The client of the light client daemon

The client turns every query into requests. A request that finds no response, or one that the server
could not or would not serve for now, is sent again after a pause. The pauses double from one to the
next up to a limit. Every other response is final.

The client is a program over the network: it says what is sent and how long it waits, and leaves it to
others to deliver requests.

## Main definitions

* `Circulation.Lcd.Config`, `Circulation.Lcd.Client` — what a client is set up with.
* `Circulation.Lcd.backoff` — the length of a pause.
* `Circulation.Lcd.Network` — requests and pauses, and what comes of them.
* `Circulation.Lcd.Requesting`, `Circulation.Lcd.Requesting.counted` — programs over the network, and
  how many of their requests find a response.
* `Circulation.Lcd.Client.fetch` — the body of a path, with retries.
* `Circulation.Lcd.Client.answer` — the answer to a query.
-/

namespace Circulation.Lcd

/-- What a client is set up with. -/
structure Config where
  baseUrl : String := "http://localhost:1317"
  /-- The time in seconds after which a request is given up. -/
  timeoutSeconds : Nat := 5
  /-- How often a request is sent again. -/
  maxRetries : Nat := 2
  /-- The length of the first pause in milliseconds. -/
  backoffMs : Nat := 250
  deriving DecidableEq, Repr

/-- The greatest length of a pause in milliseconds. -/
def maxBackoff : Nat := 30000

/-- The greatest number of an unsigned 64-bit word. -/
def maxWord : Nat := 18446744073709551615

/-- The length in milliseconds of the pause after a number of failed attempts: the base doubled that
many times, within an unsigned 64-bit word, up to the limit. -/
def backoff (base attempt : Nat) : Nat :=
  let factor := if attempt < 64 then Nat.pow 2 attempt else maxWord
  min (min (base * factor) maxWord) maxBackoff

/-- A client: its configuration, and the base of its URLs without slashes at the end. -/
structure Client where
  config : Config
  baseUrl : String
  deriving DecidableEq, Repr

/-- The client of a configuration, if its base is a URL. -/
def Client.ofConfig (config : Config) : Except UrlError Client := do
  let url ← Url.parse config.baseUrl
  return ⟨config, String.ofList (url.text.toList.reverse.dropWhile (· == '/')).reverse⟩

/-- What comes of a request. -/
inductive Delivery where
  /-- A response with its status and its body. -/
  | response (status : Nat) (body : String)
  /-- No response. -/
  | failed (why : String)
  deriving DecidableEq, Repr

/-- What a client asks of the network. -/
inductive Network where
  | send (url : String)
  | pause (milliseconds : Nat)
  deriving DecidableEq, Repr

/-- What the network gives back. -/
abbrev Network.Answer : Network → Type
  | .send _ => Delivery
  | .pause _ => Unit

/-- Programs over the network. -/
abbrev Requesting : Type → Type :=
  Program Network Network.Answer Event

namespace Requesting

/-- Sends a request. -/
def send (url : String) : Requesting Delivery :=
  .ask (.send url) .done

/-- Waits. -/
def pause (milliseconds : Nat) : Requesting Unit :=
  .ask (.pause milliseconds) .done

/-- Whether a delivery is a response. -/
def isResponse : Delivery → Bool
  | .response _ _ => true
  | .failed _ => false

/-- A program together with the number of its requests that find a response, added to `n`. -/
def countedFrom {α : Type} (n : Nat) : Requesting α → Requesting (α × Nat)
  | .done a => .done (a, n)
  | .note e next => .note e (countedFrom n next)
  | .ask (.send url) next =>
    .ask (.send url) fun delivery =>
      countedFrom (if isResponse delivery then n + 1 else n) (next delivery)
  | .ask (.pause milliseconds) next => .ask (.pause milliseconds) fun _ => countedFrom n (next ())

/-- A program together with the number of its requests that find a response. -/
def counted {α : Type} (p : Requesting α) : Requesting (α × Nat) :=
  countedFrom 0 p

end Requesting

namespace Delivery

/-- Whether a status stands for success. -/
def isSuccess (status : Nat) : Bool :=
  200 ≤ status && status < 300

/-- Whether a status lets hope for better: an error of the server, or too many requests. -/
def isTransient (status : Nat) : Bool :=
  (500 ≤ status && status < 600) || status == 429

/-- Whether the request should be sent again. -/
def isRetryable : Delivery → Bool
  | .response status _ => isTransient status
  | .failed _ => true

/-- The body of a response with success, and otherwise the error. -/
def result : Delivery → Except QueryError String
  | .response status body => if isSuccess status then .ok body else .error (.refused status body)
  | .failed why => .error (.transport why)

/-- The text that reports a delivery without success. -/
def why (d : Delivery) : String :=
  match d.result with
  | .ok _ => ""
  | .error e => e.message

end Delivery

namespace Client

open Program

/-- The result of the last delivery of a URL. -/
def settle (url : String) (delivery : Delivery) : Requesting (Except QueryError String) := do
  mentionIf delivery.result.isOk (.requestAnswered url)
  return delivery.result

/-- The body of a URL. `attempt` requests have failed before, and the request may be sent again as
often as the last argument says. -/
def fetchFrom (base : Nat) (url : String) (attempt : Nat) :
    Nat → Requesting (Except QueryError String)
  | 0 => do
    let delivery ← Requesting.send url
    settle url delivery
  | left + 1 => do
    let delivery ← Requesting.send url
    if delivery.isRetryable then
      mention (.requestRetried url attempt (backoff base attempt) delivery.why)
      Requesting.pause (backoff base attempt)
      fetchFrom base url (attempt + 1) left
    else
      settle url delivery

/-- The body of a path. -/
def fetch (c : Client) (path : String) : Requesting (Except QueryError String) :=
  fetchFrom c.config.backoffMs (c.baseUrl ++ path) 0 c.config.maxRetries

/-- What a listing of claims is worth in the log. -/
def mentionListing (q : Query) (outcome : q.Outcome) : Requesting Unit :=
  match q, outcome with
  | .claims tier _, .ok records => mention (.claimsListed tier.number records.length)
  | _, _ => done ()

/-- The answer to a query. -/
def answer (c : Client) (q : Query) : Requesting q.Outcome := do
  match ← c.fetch (path q) with
  | .error why => return .error why
  | .ok body =>
    let outcome := answerOf q body
    mentionListing q outcome
    return outcome

end Client

end Circulation.Lcd
