import ZonePropagation.Probe.Transfer
import ZonePropagation.Signature
/-!
The client that probes nameservers, over any transport.

An exchange sends a message by datagram and falls back to a connection when the answer was cut
short.  A probe repeats its exchange while the outcome may change and attempts are left.
-/

namespace ZonePropagation

inductive Breakage where
  | timedOut
  | transient
  | refused
  | ended
deriving DecidableEq, Repr

def Breakage.outcome : Breakage → Outcome
  | .timedOut => .timeout
  | .transient => .socketRetry
  | .refused | .ended => .socketFatal

def Breakage.fault : Breakage → Fault
  | .timedOut => .timeout
  | .transient => .io "Resource temporarily unavailable (os error 11)"
  | .refused => .io "Connection refused (os error 111)"
  | .ended => .io "early eof"

/-- What a client needs of its surroundings.  `start` opens the window of milliseconds within which
the next message must arrive.  A datagram is answered by the first one that the test accepts, and a
session folds messages until the fold wants no more or the connection breaks off. -/
structure Transport (m : Type → Type) where
  freshId : m UInt16
  seconds : m UInt64
  pause : Nat → m Unit
  start : Nat → m Unit
  datagram : Nameserver → List UInt8 → (Octets → Bool) → m (Except Breakage Octets)
  session : {σ : Type} → Nameserver → List UInt8 → σ → (σ → Octets → σ × Bool) →
    m (σ × Option Breakage)

structure Client where
  allTcp : Bool := false
  keys : List (Nameserver × SignatureKey) := []
deriving Repr, Inhabited

namespace Client

def key? (client : Client) (server : Nameserver) : Option SignatureKey :=
  (client.keys.reverse.find? fun entry => entry.1 == server).map Prod.snd

def encode? (client : Client) (request : Message) (server : Nameserver) (time : UInt64) :
    Option (List UInt8) :=
  match client.key? server with
  | some key => (Signature.sign key request time).toOption
  | none => request.write.toOption

def maxDatagram : Nat := 4096

def acceptsDatagram (id : UInt16) (octets : Octets) : Bool :=
  Octets.uint16At? octets 0 == some id

/-- An answer whose truncation flag is set is asked for again over a connection. -/
def isCutShort (octets : Octets) : Bool :=
  match octets[2]? with
  | some flags => flags &&& 2 != 0
  | none => false

def judge (request : Message) (octets : Octets) : Outcome × Option Message :=
  match Message.read octets with
  | .ok response => (Outcome.ofResponse request response, some response)
  | .error _ => (.malformed, none)

def overConnection {m : Type → Type} [Monad m] (net : Transport m) (server : Nameserver)
    (octets : List UInt8) : m (Except Breakage Octets) := do
  let (received, breakage) ← net.session server octets none fun _ message => (some message, false)
  match received, breakage with
  | some message, _ => return .ok message
  | none, some cause => return .error cause
  | none, none => return .error .ended

def deliver {m : Type → Type} [Monad m] (client : Client) (net : Transport m)
    (server : Nameserver) (id : UInt16) (octets : List UInt8) : m (Except Breakage Octets) := do
  if client.allTcp then overConnection net server octets
  else
    match ← net.datagram server octets (acceptsDatagram id) with
    | .error cause => return .error cause
    | .ok answer =>
        let received := answer.extract 0 maxDatagram
        if isCutShort received then overConnection net server octets else return .ok received

def exchange {m : Type → Type} [Monad m] (client : Client) (net : Transport m)
    (request : Message) (server : Nameserver) (wait : Nat) : m (Outcome × Option Message) := do
  match client.encode? request server (← net.seconds) with
  | none => return (.malformed, none)
  | some octets =>
      net.start wait
      match ← client.deliver net server request.header.id octets with
      | .error cause => return (cause.outcome, none)
      | .ok answer => return judge request answer

/-- Repeats an exchange with `left` attempts left after this one, of which `made` came before.
Gives the last result and the number of attempts made. -/
def retry {m : Type → Type} [Monad m] {α : Type} (attempt : m (Outcome × α)) (rest : m Unit)
    (made : Nat) : (left : Nat) → m (Outcome × α × Nat)
  | 0 => do
      let (outcome, value) ← attempt
      return (outcome, value, made + 1)
  | left + 1 => do
      let (outcome, value) ← attempt
      if outcome.isRetryable then
        rest
        retry attempt rest (made + 1) left
      else return (outcome, value, made + 1)

def settle {m : Type → Type} [Monad m] (client : Client) (net : Transport m) (request : Message)
    (server : Nameserver) (options : ProbeOptions) : m (Outcome × Option Message × Nat) :=
  retry (client.exchange net request server options.timeout) (net.pause options.retryInterval) 0
    (options.budget - 1)

def notify {m : Type → Type} [Monad m] (client : Client) (net : Transport m) (zone : String)
    (server : Nameserver) (options : ProbeOptions) : m Probe := do
  let request := Message.notify (← net.freshId) zone
  let (outcome, _, attempts) ← client.settle net request server options
  return { outcome, serial := none, attempts }

def querySerial {m : Type → Type} [Monad m] (client : Client) (net : Transport m)
    (zone : String) (server : Nameserver) (options : ProbeOptions) : m Probe := do
  let request := Message.soaQuery (← net.freshId) zone
  let (outcome, response, attempts) ← client.settle net request server options
  return Probe.ofSerialQuery zone outcome response attempts

/-- Receives a whole zone over one connection: its records from the first start of authority up
to the second, which is left out. -/
def transferZone {m : Type → Type} [Monad m] (client : Client) (net : Transport m)
    (zone : String) (server : Nameserver) (wait : Nat) :
    m (Except Fault (List ResourceRecord)) := do
  let request := Message.axfrQuery (← net.freshId) zone
  match client.encode? request server (← net.seconds) with
  | none => return .error (.parse "could not encode AXFR request")
  | some octets =>
      net.start wait
      let (transfer, breakage) ← net.session server octets Transfer.opening
        fun transfer message =>
          let next := transfer.takeOctets request zone server message
          (next, !next.isOver)
      match transfer with
      | .complete records => return .ok records
      | .failed cause => return .error cause
      | _ => return .error ((breakage.getD .ended).fault)

end Client

end ZonePropagation
