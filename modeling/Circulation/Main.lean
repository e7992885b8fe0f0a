import Circulation.Command.Log
import Circulation.Command.Watch
import Circulation.Http.Message
import Std.Async.DNS
import Std.Async.Signal
import Std.Async.TCP
import Std.Async.Timer

/-!
# The command line

The outer layer of the program: it reads arguments, the environment and the policy file, sends
requests, waits, and prints. What is sent, waited for and printed is decided by `Circulation.Command`.
-/

namespace Circulation.Main

open Command Lcd Std.Async

instance : Inhabited Delivery := ⟨.failed ""⟩

/-! ### Requests -/

/-- The size of the pieces in which a response is received. -/
def pieceSize : UInt64 := 65536

/-- Receives a response. -/
partial def receive (socket : TCP.Socket.Client) (why : String) (bytes : ByteArray) :
    Async Delivery := do
  match ← socket.recv? pieceSize with
  | some piece =>
    let bytes := bytes ++ piece
    match Http.delivery? why false bytes.toList with
    | some delivery => return delivery
    | none => receive socket why bytes
  | none => return (Http.delivery? why true bytes.toList).getD (.failed why)

/-- Sends the request of a URL and receives the response. -/
def exchange (u : Url) (e : Http.Endpoint) : Async Delivery := do
  let why := sendingFailed u
  match (← DNS.getAddrInfo e.host (toString e.port))[0]? with
  | none => return .failed why
  | some address =>
    let socket ← TCP.Socket.Client.mk
    socket.connect <|
      match address with
      | .v4 a => .v4 ⟨a, e.port.toUInt16⟩
      | .v6 a => .v6 ⟨a, e.port.toUInt16⟩
    socket.send (Http.requestText u).toUTF8
    receive socket why ByteArray.empty

/-- What comes of a request of a URL within some seconds. Only URLs of the scheme `http` are sent. -/
def deliver (timeoutSeconds : Nat) (url : String) : IO Delivery := do
  match Url.parse url with
  | .error _ => return .failed (unreachable url)
  | .ok u =>
    match Http.Endpoint.ofUrl? u with
    | some e =>
      if u.scheme = "http" then
        let giveUp : Async Delivery := do
          sleep (.ofNat (1000 * timeoutSeconds))
          return .failed (sendingFailed u)
        try (Async.race (exchange u e) giveUp).block
        catch _ => return .failed (sendingFailed u)
      else return .failed (unreachable url)
    | none => return .failed (unreachable url)

/-- Waits some milliseconds. -/
def pause (milliseconds : Nat) : IO Unit :=
  IO.sleep (min milliseconds 4294967295).toUInt32

/-- The network. -/
def network (timeoutSeconds : Nat) : (q : Network) → IO q.Answer
  | .send url => deliver timeoutSeconds url
  | .pause milliseconds => pause milliseconds

/-! ### The log -/

/-- The current time as it stands before a line of the log. -/
def stamp : IO String := do
  let now := (← Std.Time.Timestamp.now).val
  let seconds :=
    ((Instant.ofUnixSeconds? now.second.val).bind Instant.utcText?).getD ""
  let micros := toString (now.nano.val / 1000)
  return String.ofList (seconds.toList.takeWhile (· != 'Z')) ++ "." ++
    String.ofList (List.replicate (6 - micros.length) '0') ++ micros ++ "Z"

/-- Writes an event to the log if a filter lets it pass. -/
def record (filter : LogFilter) (e : Event) : IO Unit := do
  let line := LogLine.ofEvent e
  if filter.allows line then
    let margin := String.ofList (List.replicate (6 - line.level.text.length) ' ')
    IO.eprintln ((← stamp) ++ margin ++ line.text)

/-! ### Watching -/

/-- A watch at work: its cache, and when it began. -/
structure Running where
  watch : Watch
  cache : IO.Ref Cache
  beganAt : Nat
  network : (q : Network) → IO q.Answer
  record : Event → IO Unit

/-- The milliseconds since a watch began. -/
def Running.now (r : Running) : IO Nat := do
  return (← IO.monoMsNow) - r.beganAt

/-- Takes a step of the cache and gives what the cache does in it. -/
def Running.step (r : Running) (a : Cache.Step) : IO (Option Cache.Effect) := do
  let now ← r.now
  r.cache.modifyGet fun c =>
    match c.step r.watch.settings now a with
    | some (c, effect) => (effect, c)
    | none => (none, c)

/-- Waits for an instant, or until `ends` holds. Says whether `ends` holds. -/
partial def Running.waitUntil (r : Running) (instant : Nat) (ends : BaseIO Bool) : IO Bool := do
  if ← ends then return true
  let now ← r.now
  if instant ≤ now then return false
  pause (min 20 (instant - now))
  r.waitUntil instant ends

/-- Updates the cache, waits one period of freshness, and goes on so. -/
partial def Running.refresh (r : Running) (ticket : Ticket) : IO Unit := do
  let denom := r.watch.settings.denom
  let _ ← r.step (.request ticket denom)
  let result ← r.watch.session.build.interpret r.network r.record
  match ← r.step (.finish ticket result) with
  | some (.reply _ result) => r.record (Timeline.refreshEvent denom result)
  | _ => pure ()
  let ended ← r.waitUntil ((← r.now) + r.watch.settings.ttlMs) IO.checkCanceled
  unless ended do r.refresh (ticket + 1)

/-- Polls the cache until the watch is over or interrupted. -/
partial def Running.poll (r : Running) (w : Watcher) (isInterrupted : BaseIO Bool) : IO Unit := do
  if ← r.waitUntil (r.watch.pollInstant w.polls) isInterrupted then
    r.record .interrupted
  else
    let (w, events) := w.poll ((← r.cache.get).get r.watch.settings (← r.now))
    events.forM r.record
    unless w.isDone r.watch.iterations do r.poll w isInterrupted

/-- Watches until the end. -/
def runWatch (v : Watch) (network : (q : Network) → IO q.Answer) (record : Event → IO Unit) :
    IO Unit := do
  let r : Running :=
    { watch := v, cache := ← IO.mkRef {}, beganAt := ← IO.monoMsNow, network, record }
  let signal ← (← Signal.Waiter.mk .sigint false).wait
  record (.refresherStarted v.settings.denom (v.settings.ttlMs / 1000))
  let refresher ← IO.asTask (r.refresh 0) .dedicated
  r.poll {} (IO.hasFinished signal)
  IO.cancel refresher

/-! ### The program -/

/-- The text of a file, or why it cannot be read. -/
def readText (path : String) : IO (Except FileError String) := do
  try
    match String.fromUTF8? (← IO.FS.readBinFile path) with
    | some s => return .ok s
    | none => return .error .notUtf8
  catch e =>
    match e with
    | .noFileOrDirectory .. => return .error .notFound
    | .permissionDenied _ code _ =>
      return .error (.system code.toNat "PermissionDenied" "Permission denied")
    | .inappropriateType _ code _ =>
      return .error (.system code.toNat "IsADirectory" "Is a directory")
    | e => return .error (.system 0 "Other" (toString e))

/-- The variables of the environment that stand for options. -/
def environment : IO (List (String × String)) := do
  let values ← (Setting.ofChain.filterMap Setting.environmentName?).mapM fun name =>
    return (name, ← IO.getEnv name)
  return values.filterMap fun (name, value) => value.map fun value => (name, value)

/-- The text that explains the command line. -/
def usage : String :=
  "Usage: supply-snapshot [OPTIONS] <COMMAND>\n\nCommands:\n  snapshot      " ++
    "Compute one snapshot and print it as JSON\n  watch         " ++
    "Refresh every TTL and log each change of ETag\n  check-policy  " ++
    "Validate the policy file and print its fingerprint"

/-- Runs a command and gives its exit code. -/
def run (a : Arguments) (filter : LogFilter) : IO UInt32 := do
  let network := network (max a.timeoutSeconds 1)
  let file ← readText a.policyPath
  match ← (perform a file).interpret network (record filter) with
  | .over e =>
    IO.print e.output
    e.report.forM fun s => IO.eprintln s
    return e.code.toUInt32
  | .watch w =>
    runWatch w network (record filter)
    return 0

end Circulation.Main

/-- The entry of the program. -/
def main (arguments : List String) : IO UInt32 := do
  let filter := Circulation.Command.LogFilter.parse ((← IO.getEnv "RUST_LOG").getD "info")
  let environment ← Circulation.Main.environment
  match Circulation.Command.Arguments.parse (fun name => environment.lookup name) arguments with
  | .ok a => Circulation.Main.run a filter
  | .error .help =>
    IO.println Circulation.Main.usage
    return 0
  | .error (.misuse why) =>
    IO.eprintln ("error: " ++ why.message ++ "\n\nFor more information, try '--help'.")
    return 2
