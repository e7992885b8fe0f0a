import Circulation.Lcd.Client

/-!
# Requests that find no response

The reports of requests that cannot be sent, and a network in which no request can.

## Main definitions

* `Circulation.Lcd.sendingFailed`, `Circulation.Lcd.unsendable?` — the reports.
* `Circulation.Lcd.offline` — the network without servers.
-/

namespace Circulation.Lcd

/-- The URL that a report shows: user and password are left out. -/
def reportedUrl (u : Url) : Url :=
  { u with authority := u.authority.map fun text => String.ofList (Url.splitUser text.toList).2 }

/-- The report that a server could not be reached. -/
def sendingFailed (u : Url) : String :=
  "error sending request for url (" ++ (reportedUrl u).text ++ ")"

/-- The report that a request cannot be made of a URL, if so: only URLs of the schemes `http` and
`https` can be requested. -/
def unsendable? (u : Url) : Option String :=
  if u.scheme = "http" ∨ u.scheme = "https" then none
  else some ("builder error for url (" ++ (reportedUrl u).text ++ ")")

/-- The report of a request when no server can be reached. -/
def unreachable (url : String) : String :=
  match Url.parse url with
  | .error _ => "builder error"
  | .ok u => (unsendable? u).getD (sendingFailed u)

/-- The network without servers: every request fails. -/
def offline : (q : Network) → q.Answer
  | .send url => .failed (unreachable url)
  | .pause _ => ()

/-- A pause takes its length and a request no time. -/
def Network.milliseconds : Network → Nat
  | .send _ => 0
  | .pause n => n

end Circulation.Lcd
