import Circulation.Lcd.Client
import Circulation.Text.Blank
import Circulation.Text.Hex
import Circulation.Text.Utf8

/-!
# Messages of HTTP/1.1

The request of a URL, and the delivery that the bytes of a response amount to. A response has a head,
which ends with an empty line, and a body whose end the head tells: by a length, by chunks, or by the
end of the connection. A body that breaks off counts as empty.

## Main definitions

* `Circulation.Http.Endpoint`, `Circulation.Http.Endpoint.ofUrl?` — where a request is sent.
* `Circulation.Http.requestText` — the text of a request.
* `Circulation.Http.delivery?` — the delivery of the bytes received so far.
-/

namespace Circulation.Http

open Lcd

/-! ### Requests -/

/-- A host and a port. -/
structure Endpoint where
  host : String
  port : Nat
  deriving DecidableEq, Repr

/-- The host of a URL and the port after it, as they are written. -/
def hostText (u : Url) : String :=
  String.ofList (Url.splitUser (u.authority.getD "").toList).2

/-- Where a URL is requested. -/
def Endpoint.ofUrl? (u : Url) : Option Endpoint :=
  let (host, port) := Url.splitPort false (hostText u).toList
  let host := host.filter fun c => !(c == '[' || c == ']')
  match port with
  | [] => (Url.defaultPort? u.scheme).map fun port => ⟨String.ofList host, port⟩
  | _ :: ds => (Numeral.natural? ds).map fun port => ⟨String.ofList host, port⟩

/-- The text of a request. The server is asked to close the connection after its response. -/
def requestText (u : Url) : String :=
  "GET " ++ u.target ++ " HTTP/1.1\r\nhost: " ++ hostText u ++
    "\r\naccept: */*\r\nconnection: close\r\n\r\n"

/-! ### Responses -/

/-- The bytes before the first line end, and those after it. -/
def splitLine : List UInt8 → Option (List UInt8 × List UInt8)
  | 13 :: 10 :: rest => some ([], rest)
  | b :: rest => (splitLine rest).map fun (line, rest) => (b :: line, rest)
  | [] => none

/-- The lines before the first empty line, and the bytes after it. `fuel` bounds the number of lines. -/
def splitHead : (fuel : Nat) → List UInt8 → Option (List (List UInt8) × List UInt8)
  | 0, _ => none
  | fuel + 1, bytes =>
    match splitLine bytes with
    | none => none
    | some ([], rest) => some ([], rest)
    | some (line, rest) => (splitHead fuel rest).map fun (lines, rest) => (line :: lines, rest)

/-- The characters of the bytes of a head. -/
def characters (bytes : List UInt8) : List Char :=
  bytes.map fun b => Char.ofNat b.toNat

/-- The status of a response from its first line. -/
def status? (line : List UInt8) : Option Nat :=
  Numeral.natural? <|
    (((characters line).dropWhile (· != ' ')).drop 1).takeWhile (· != ' ')

/-- The name of a field, in lower case, and its value. -/
def field (line : List UInt8) : List Char × List Char :=
  let cs := characters line
  ((cs.takeWhile (· != ':')).map Char.toLower,
    Text.trimChars ((cs.dropWhile (· != ':')).drop 1))

/-- The number that a text of digits of base 16 denotes. -/
def hexNumber? (cs : List Char) : Option Nat :=
  if cs = [] then none
  else cs.foldlM (fun n c => (Text.hexDigitValue? c).map fun d => 16 * n + d) 0

/-- The bytes of a body in chunks, if the last chunk is there. `fuel` bounds the number of chunks. -/
def unchunk : (fuel : Nat) → List UInt8 → Option (List UInt8)
  | 0, _ => none
  | fuel + 1, bytes => do
    let (line, rest) ← splitLine bytes
    let size ← hexNumber? (Text.trimChars ((characters line).takeWhile (· != ';')))
    if size = 0 then return []
    if rest.length < size then none
    let more ← unchunk fuel (rest.drop (size + 2))
    return rest.take size ++ more

/-- Whether a response of a status has no body, whatever its head says. -/
def isBodiless (status : Nat) : Bool :=
  status < 200 || status == 204 || status == 304

/-- The body of a response, if it is complete. `closed` says that no bytes follow. -/
def body? (status : Nat) (fields : List (List Char × List Char)) (closed : Bool)
    (bytes : List UInt8) : Option (List UInt8) :=
  if isBodiless status then some []
  else if fields.lookup "transfer-encoding".toList = some "chunked".toList then
    unchunk (bytes.length + 1) bytes
  else
    match (fields.lookup "content-length".toList).bind Numeral.natural? with
    | some n => if bytes.length < n then none else some (bytes.take n)
    | none => if closed then some bytes else none

/-- The delivery of the bytes received so far, unless more bytes have to be awaited. `closed` says that
no bytes follow, and `why` reports that there is no response. -/
def delivery? (why : String) (closed : Bool) (bytes : List UInt8) : Option Delivery :=
  match splitHead (bytes.length + 1) bytes with
  | some (first :: lines, rest) =>
    match status? first with
    | none => some (.failed why)
    | some status =>
      match body? status (lines.map field) closed rest with
      | some body => some (.response status (String.ofList (Text.decodeUtf8 body)))
      | none => if closed then some (.response status "") else none
  | _ => if closed then some (.failed why) else none

end Circulation.Http
