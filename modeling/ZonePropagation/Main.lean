import Std.Async.TCP
import Std.Async.Timer
import Std.Async.UDP
import ZonePropagation.Command.Arguments
import ZonePropagation.Command.Help
import ZonePropagation.Session
/-!
The program: the world as the host of commands, and the entry point.

Nameservers are reached over the network at numeric addresses.  Rows and zones are kept in memory
only: there is no database, no cache and no HTTP here, and what needs them fails.
-/

open ZonePropagation
open Std.Async
open Std.Net

namespace ZonePropagation.Main

def addressOf? (server : Nameserver) : Option SocketAddress :=
  match IPv4Addr.ofString server.host with
  | some addr => some (.v4 { addr, port := server.port })
  | none => (IPv6Addr.ofString server.host).map fun addr => .v6 { addr, port := server.port }

def timeLeft (moment : Nat) : IO Nat := do
  return moment - (← IO.monoMsNow)

def before {α : Type} (moment : Nat) (selector : Selector α) : IO (Option α) := do
  let left ← timeLeft moment
  if left = 0 then return none
  let work : Async (Option α) := do
    let sleeper ← Selector.sleep (Std.Time.Millisecond.Offset.ofNat left)
    Selectable.one #[
      .case selector fun value => return some value,
      .case sleeper fun _ => return none]
  work.block

def packed (octets : List UInt8) : ByteArray := ⟨octets.toArray⟩

partial def receiveDatagram (socket : UDP.Socket) (accepts : Octets → Bool) (moment : Nat) :
    IO (Except Breakage Octets) := do
  match ← before moment (socket.recvSelector (UInt64.ofNat Client.maxDatagram)) with
  | none => return .error .timedOut
  | some (received, _) =>
      if accepts received.data then return .ok received.data
      else receiveDatagram socket accepts moment

/-- Sends a datagram and receives the one that is accepted. -/
def exchangeDatagram (server : Nameserver) (octets : List UInt8) (accepts : Octets → Bool)
    (moment : Nat) : IO (Except Breakage Octets) := do
  let some address := addressOf? server | return .error .refused
  try
    let socket ← UDP.Socket.mk
    socket.connect address
    (socket.send (packed octets)).block
    receiveDatagram socket accepts moment
  catch _ => return .error .refused

partial def fill (client : TCP.Socket.Client) (moment count : Nat) (held : ByteArray) :
    IO (Except Breakage ByteArray) := do
  if count ≤ held.size then return .ok held
  match ← before moment (client.recvSelector 65536) with
  | none => return .error .timedOut
  | some none => return .error .ended
  | some (some received) => fill client moment count (held ++ received)

partial def foldStream {σ : Type} (client : TCP.Socket.Client) (window : Nat) (held : ByteArray)
    (state : σ) (step : σ → Octets → σ × Bool) : IO (σ × Option Breakage) := do
  let moment := (← IO.monoMsNow) + window
  match ← fill client moment 2 held with
  | .error cause => return (state, some cause)
  | .ok held =>
      let size := 2 + (Octets.toUInt16 (held.get! 0) (held.get! 1)).toNat
      match ← fill client moment size held with
      | .error cause => return (state, some cause)
      | .ok held =>
          let (next, wantsMore) := step state (held.extract 2 size).data
          if wantsMore then foldStream client window (held.extract size held.size) next step
          else return (next, none)

/-- Sends a message over a new connection and folds those that come back. -/
def exchangeStream {σ : Type} (server : Nameserver) (octets : List UInt8) (window : Nat)
    (start : σ) (step : σ → Octets → σ × Bool) : IO (σ × Option Breakage) := do
  let some address := addressOf? server | return (start, some .refused)
  try
    let client ← TCP.Socket.Client.mk
    (client.connect address).block
    (client.send (packed (Octets.ofUInt16 octets.length.toUInt16 ++ octets))).block
    foldStream client window .empty start step
  catch _ => return (start, some .refused)

/-- The transport over the network.  The window of a message is kept in `window`, with the moment
when it was opened. -/
def transport (window : IO.Ref (Nat × Nat)) : Transport IO where
  freshId := return (← IO.rand 0 65535).toUInt16
  seconds := return (← Std.Time.Timestamp.now).toSecondsSinceUnixEpoch.val.toNat.toUInt64
  pause := fun millis => IO.sleep millis.toUInt32
  start := fun millis => do window.set (millis, (← IO.monoMsNow) + millis)
  datagram := fun server octets accepts => do
    exchangeDatagram server octets accepts (← window.get).2
  session := fun server octets start step => do
    exchangeStream server octets (← window.get).1 start step

def reasonOf : IO.Error → String
  | .noFileOrDirectory _ _ _ => "No such file or directory (os error 2)"
  | .permissionDenied _ _ _ => "Permission denied (os error 13)"
  | error => toString error

def textOf (path : String) : IO (Except String String) := do
  try
    return .ok (← IO.FS.readFile path)
  catch error => return .error (reasonOf error)

def environment : IO Environment := do
  let values ← Settings.variableNames.mapM fun key => return (key, ← IO.getEnv key)
  return fun key => (values.find? fun value => value.1 == key).bind Prod.snd

def statusStore : StatusStoreSetting → Except Fault Status.Store
  | .memory ttl => .ok (.memory { ttl := ttl * 1000 })
  | .sql "sqlite::memory:" _ => .ok (.table {})
  | .sql url _ => .error (.database s!"cannot open {url}")
  | .redis url _ _ => .error (.cache s!"cannot reach {url}")

def registry : String → Except Fault Registry.Store
  | "sqlite::memory:" => .ok (.table {})
  | url => .error (.database s!"cannot open {url}")

def host (window : IO.Ref (Nat × Nat)) : Session.Host IO where
  settingsText := textOf
  environment := environment
  transport := transport window
  exchange := fun _ => return none
  clock := do
    let now ← Std.Time.Timestamp.now
    let nanos := now.toNanosecondsSinceUnixEpoch.val
    let second := nanos / Timestamp.perSecond
    return ⟨← IO.monoMsNow, ⟨second, (nanos % Timestamp.perSecond).toNat⟩⟩
  openStatus := fun setting => return statusStore setting
  openRegistry := fun url => return registry url
  ticks := Propagation.mostTicks

def say (lines : List String) : IO Unit :=
  lines.forM fun line => IO.println line

def run (arguments : List String) : IO UInt32 := do
  match Command.ofArguments arguments with
  | .error .mistake =>
      IO.eprintln "error: no such command line; see --help"
      return 2
  | .error .version => say [Command.versionLine]; return 0
  | .error (.help none) => say Command.helpLines; return 0
  | .error (.help (some topic)) => say topic.helpLines; return 0
  | .ok invocation =>
      let aftermath ← Session.run (host (← IO.mkRef (0, 0))) invocation
      say aftermath.transcript.lines
      match aftermath.transcript.failure with
      | none => return 0
      | some failure =>
          IO.eprintln ("Error: " ++ failure.diagnostic)
          return 1

end ZonePropagation.Main

def main (arguments : List String) : IO UInt32 :=
  ZonePropagation.Main.run arguments
