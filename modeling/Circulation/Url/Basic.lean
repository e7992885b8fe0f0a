import Circulation.Numeral
import Circulation.Url.Host

/-!
# URLs

The parts of an absolute URL and its normal written form. Schemes and names of hosts are brought to
lower case, the default port of a scheme is left out, the segments `.` and `..` of a path are
resolved, and characters that cannot stand in a part are percent-encoded.

## Main definitions

* `Circulation.Url` — the parts of a URL.
* `Circulation.Url.parse` — the URL of a text.
* `Circulation.Url.text` — the normal written form.
* `Circulation.Url.target` — path and query, as a request names them.
-/

namespace Circulation

/-- The path of a URL: segments after slashes, or a text of its own kind. -/
inductive UrlPath where
  | segments (parts : List String)
  | raw (text : String)
  deriving DecidableEq, Repr

/-- An absolute URL. All parts are in their written form. -/
structure Url where
  scheme : String
  /-- Host, with user and password before it and port after it. -/
  authority : Option String
  path : UrlPath
  query : Option String
  fragment : Option String
  deriving DecidableEq, Repr

namespace Url

/-! ### Sets of encoded characters -/

/-- Control characters and characters outside ASCII are encoded everywhere. -/
def isControl (c : Char) : Bool :=
  c.toNat < 0x20 || 0x7F ≤ c.toNat

/-- The characters that are encoded in a fragment. -/
def encodedInFragment (c : Char) : Bool :=
  isControl c || " \"<>".toList.contains c || c.toNat == 0x60

/-- The characters that are encoded in a path. -/
def encodedInPath (c : Char) : Bool :=
  encodedInFragment c || "#?\x7b\x7d".toList.contains c

/-- The characters that are encoded in a user name or a password. -/
def encodedInUser (c : Char) : Bool :=
  encodedInPath c || "/:;=@[\\]^|".toList.contains c

/-- The characters that are encoded in a query. -/
def encodedInQuery (special : Bool) (c : Char) : Bool :=
  isControl c || " \"#<>".toList.contains c || (special && c == '\'')

/-! ### Schemes -/

/-- The default ports of the special schemes; a file has none. -/
def defaultPorts : List (String × Option Nat) :=
  [("http", some 80), ("https", some 443), ("ws", some 80), ("wss", some 443), ("ftp", some 21),
    ("file", none)]

/-- Whether a scheme is special: its URLs have a host, and a backslash counts as a slash in them. -/
def isSpecial (scheme : String) : Bool :=
  defaultPorts.any fun (s, _) => s == scheme

/-- The default port of a scheme. -/
def defaultPort? (scheme : String) : Option Nat :=
  ((defaultPorts.find? fun (s, _) => s == scheme).bind (·.2))

/-- The scheme before the first colon, in lower case, and the rest of the text. -/
def splitScheme (cs : List Char) : Option (String × List Char) :=
  let scheme := cs.takeWhile (· != ':')
  match cs.dropWhile (· != ':') with
  | _ :: rest =>
    if (scheme.head?.map Char.isAlpha).getD false &&
        scheme.all fun c => c.isAlphanum || c == '+' || c == '-' || c == '.' then
      some (String.ofList (scheme.map Char.toLower), rest)
    else none
  | [] => none

/-! ### Authority -/

/-- Whether a character ends the authority. -/
def endsAuthority (special : Bool) (c : Char) : Bool :=
  c == '/' || c == '?' || c == '#' || (special && c == '\\')

/-- The text before the last `@` of an authority, if there is one, and the text after it. -/
def splitUser (authority : List Char) : Option (List Char) × List Char :=
  let host := (authority.reverse.takeWhile (· != '@')).reverse
  if host.length = authority.length then (none, authority)
  else (some (authority.take (authority.length - host.length - 1)), host)

/-- User and password in their written form, with the `@` after them if one of them is there. -/
def userText (user : List Char) : String :=
  let name := user.takeWhile (· != ':')
  let password := (user.dropWhile (· != ':')).drop 1
  let text :=
    Text.percentEncodeWhere encodedInUser name ++
      if password = [] then "" else ":" ++ Text.percentEncodeWhere encodedInUser password
  if text = "" then "" else text ++ "@"

/-- The host before the first colon outside square brackets, and the colon with what follows it. -/
def splitPort (inBrackets : Bool) : List Char → List Char × List Char
  | [] => ([], [])
  | c :: cs =>
    if c = ':' ∧ !inBrackets then ([], c :: cs)
    else
      let (host, port) := splitPort (c == '[' || (inBrackets && c != ']')) cs
      (c :: host, port)

/-- The port after a colon, unless it is the default of the scheme. -/
def parsePort (scheme : String) : List Char → Except UrlError (Option Nat)
  | [] => .ok none
  | [_] => .ok none
  | _ :: ds =>
    match Numeral.natural? ds with
    | some n =>
      if 65535 < n then .error .port
      else .ok (if some n = defaultPort? scheme then none else some n)
    | none => .error .port

/-- The written form of an authority. -/
def parseAuthority (scheme : String) (cs : List Char) : Except UrlError String := do
  let special := isSpecial scheme
  let (user, rest) := splitUser cs
  let (hostChars, portChars) := splitPort false rest
  if hostChars = [] ∧ (special ∨ user.isSome ∨ portChars ≠ []) then throw .emptyHost
  let host ← if special then Host.parse hostChars else Host.parseOpaque hostChars
  let port ← parsePort scheme portChars
  return (user.map userText).getD "" ++ host ++
    match port with
    | some n => ":" ++ toString n
    | none => ""

/-! ### Path -/

/-- Whether a segment stands for the directory itself. -/
def isDot (segment : String) : Bool :=
  [".", "%2e", "%2E"].contains segment

/-- Whether a segment stands for the directory above. -/
def isDoubleDot (segment : String) : Bool :=
  let s := String.ofList (segment.toList.map Char.toLower)
  ["..", ".%2e", "%2e.", "%2e%2e"].contains s

/-- The segments of a path after those that `done` holds, the last first: a segment for the directory
above removes the one before it. -/
def resolve (done : List String) : List String → List String
  | [] => done.reverse
  | segment :: rest =>
    if isDoubleDot segment then
      resolve (if rest = [] then "" :: done.drop 1 else done.drop 1) rest
    else if isDot segment then resolve (if rest = [] then "" :: done else done) rest
    else resolve (segment :: done) rest

/-- The segments of a path after its first slash. -/
def pathSegments (special : Bool) (cs : List Char) : List String :=
  let cs := if special then cs.map fun c => if c = '\\' then '/' else c else cs
  resolve [] ((Host.splitOn '/' cs).map (Text.percentEncodeWhere encodedInPath))

/-- The path of a URL that has an authority. -/
def pathAfterAuthority (special : Bool) (cs : List Char) : UrlPath :=
  match cs with
  | [] => .segments (if special then [""] else [])
  | c :: rest =>
    if c = '/' ∨ (special ∧ c = '\\') then .segments (pathSegments special rest)
    else .segments (pathSegments special (c :: rest))

/-! ### Whole URLs -/

/-- The URL of a scheme, an authority and a path, with the query and the fragment of a text. -/
def withTail (scheme : String) (authority : Option String) (path : UrlPath) (tail : List Char) :
    Url :=
  let beforeHash := tail.takeWhile (· != '#')
  let fragment := tail.dropWhile (· != '#')
  let encodeQuery := Text.percentEncodeWhere (encodedInQuery (isSpecial scheme))
  { scheme, authority, path
    query := if beforeHash = [] then none else some (encodeQuery (beforeHash.drop 1))
    fragment :=
      if fragment = [] then none
      else some (Text.percentEncodeWhere encodedInFragment (fragment.drop 1)) }

/-- The text before the query and the fragment, and the rest. -/
def splitTail (cs : List Char) : List Char × List Char :=
  let isPlain (c : Char) : Bool := c != '?' && c != '#'
  (cs.takeWhile isPlain, cs.dropWhile isPlain)

/-- The URL of a scheme and a text that starts with an authority. -/
def parseAfterSlashes (scheme : String) (cs : List Char) : Except UrlError Url := do
  let special := isSpecial scheme
  let authority ← parseAuthority scheme (cs.takeWhile fun c => !endsAuthority special c)
  let (path, tail) := splitTail (cs.dropWhile fun c => !endsAuthority special c)
  return withTail scheme authority (pathAfterAuthority special path) tail

/-- The URL of a file. Its host is left out if it is `localhost`. -/
def parseFile (cs : List Char) : Except UrlError Url := do
  let isSlash (c : Char) : Bool := c == '/' || c == '\\'
  match cs with
  | a :: b :: rest =>
    if isSlash a && isSlash b then
      let hostChars := rest.takeWhile fun c => !endsAuthority true c
      let host ← if hostChars = [] then pure "" else Host.parse hostChars
      let (path, tail) := splitTail (rest.dropWhile fun c => !endsAuthority true c)
      return withTail "file" (if host = "localhost" then "" else host) (pathAfterAuthority true path)
        tail
    else
      let (path, tail) := splitTail cs
      return withTail "file" "" (pathAfterAuthority true path) tail
  | _ =>
    let (path, tail) := splitTail cs
    return withTail "file" "" (pathAfterAuthority true path) tail

/-- The URL of a text. Control characters and spaces around it are left out, and so are tabulators
and line breaks inside it. -/
def parse (s : String) : Except UrlError Url := do
  let isEdge (c : Char) : Bool := c.toNat ≤ 0x20
  let cs := ((s.toList.dropWhile isEdge).reverse.dropWhile isEdge).reverse
  let cs := cs.filter fun c => !(c == '\t' || c == '\n' || c == '\r')
  match splitScheme cs with
  | none => throw .relative
  | some (scheme, rest) =>
    if scheme = "file" then parseFile rest
    else if isSpecial scheme then
      parseAfterSlashes scheme (rest.dropWhile fun c => c == '/' || c == '\\')
    else
      match rest with
      | '/' :: '/' :: rest => parseAfterSlashes scheme rest
      | '/' :: rest =>
        let (path, tail) := splitTail rest
        return withTail scheme none (.segments (pathSegments false path)) tail
      | _ =>
        let (path, tail) := splitTail rest
        return withTail scheme none (.raw (Text.percentEncodeWhere isControl path)) tail

/-- The written form of a path. A path without an authority that would begin with two slashes begins
with `/.` instead. -/
def pathText (u : Url) : String :=
  match u.path with
  | .raw text => text
  | .segments parts =>
    let text := String.join (parts.map ("/" ++ ·))
    if u.authority = none ∧ 1 < parts.length ∧ parts.head? = some "" then "/." ++ text else text

/-- A part of a URL after its mark, if it is there. -/
def marked (mark : String) : Option String → String
  | some s => mark ++ s
  | none => ""

/-- The normal written form of a URL. -/
def text (u : Url) : String :=
  u.scheme ++ ":" ++ marked "//" u.authority ++ u.pathText ++ marked "?" u.query ++
    marked "#" u.fragment

/-- Path and query of a URL, as a request names them. -/
def target (u : Url) : String :=
  u.pathText ++ marked "?" u.query

end Url

end Circulation
