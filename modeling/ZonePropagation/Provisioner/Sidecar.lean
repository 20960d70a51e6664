import ZonePropagation.Provisioner
import ZonePropagation.Text.Blank
/-!
BIND 9 behind an HTTP sidecar.

Zones are secondaries of the target's masters, so that an update asks for a new transfer.  The
serial is asked of the server itself.
-/

namespace ZonePropagation.Provisioner

structure Sidecar where
  address : String
  token : Option String
  masters : List Nameserver
  server : Nameserver
  timeout : Nat
deriving Repr

namespace Sidecar

def type : String := "bind9"

def standardAddress (address : String) : String :=
  let trimmed := String.ofList (Text.dropEndWhile (· == '/') address.toList)
  if address.startsWith "http://" || address.startsWith "https://" then trimmed
  else "http://" ++ trimmed

def primary (master : Nameserver) : String :=
  if master.port == 53 then master.host else s!"{master.host} port {master.port}"

/-- The driver of a target.  The server to ask is the one of the options, or else the host of the
address at the usual port. -/
def ofTarget (target : Target) : Except Fault Sidecar := do
  let address := standardAddress (← requiredOption target "api_url")
  let timeout ← timeoutOption target
  let host ← match target.option? "host", (Http.Url.ofText? address).bind Http.Url.host with
    | some host, _ => .ok host
    | none, some host => .ok host
    | none, none => .error (.backend type "cannot derive DNS host from api_url")
  let port ← match target.option? "port" with
    | none => .ok 53
    | some text =>
        match Text.uint16? text with
        | some port => .ok port
        | none => .error (.backend type s!"invalid port: {text}")
  return {
    address
    token := target.option? "api_token"
    masters := target.masters
    server := ⟨host, port⟩
    timeout }

variable {m : Type → Type} [Monad m]

def call (sidecar : Sidecar) (channel : Channel m) (method : Http.Method) (address : String)
    (body : Option Json) : m (Except Fault Nat) := do
  let headers := match sidecar.token with
    | some token => [("authorization", "Bearer " ++ token)]
    | none => []
  match ← Http.send channel.exchange method address headers body with
  | .error error => return .error (.backend type error.text)
  | .ok response =>
      if isExpected response then return .ok response.status
      else
        let status := Http.statusText response.status
        return .error (.backend type
          s!"{method.text} {address} failed with {status}: {response.body}")

def retransfer (sidecar : Sidecar) (channel : Channel m) (zone : String) :
    m (Except Fault Unit) := do
  match ← sidecar.call channel .post s!"{sidecar.address}/api/v1/zones/{zone}/retransfer" none with
  | .error fault => return .error fault
  | .ok 404 => return .error (.backend type s!"zone {zone} is not configured")
  | .ok _ => return .ok ()

def description (sidecar : Sidecar) (zone : String) : Json := .obj [
  ("zoneName", .str zone),
  ("zoneType", .str "secondary"),
  ("zoneConfig", .obj [("primaries", .strings (sidecar.masters.map primary))])]

/-- Carries out a change.  A zone that exists already is transferred anew instead of created, and
one that is gone already counts as deleted. -/
def carryOut (sidecar : Sidecar) (channel : Channel m) (change : ZoneChange) (zone : Zone) :
    m (Except Fault Unit) := do
  let name := Text.trimDots zone.name
  match change with
  | .create =>
      let address := s!"{sidecar.address}/api/v1/zones"
      match ← sidecar.call channel .post address (some (sidecar.description name)) with
      | .error fault => return .error fault
      | .ok 409 => sidecar.retransfer channel name
      | .ok 404 => return .error (.backend type s!"zone API not found at {address}")
      | .ok _ => return .ok ()
  | .update => sidecar.retransfer channel name
  | .delete =>
      match ← sidecar.call channel .delete s!"{sidecar.address}/api/v1/zones/{name}" none with
      | .error fault => return .error fault
      | .ok _ => return .ok ()

def serial? (sidecar : Sidecar) (channel : Channel m) (zone : String) :
    m (Except Fault (Option UInt32)) := do
  let probe ← channel.querySerial zone sidecar.server ⟨sidecar.timeout * 1000, 1000, 1⟩
  match probe.outcome with
  | .ok => return .ok probe.serial
  | .noDomain _ => return .ok none
  | other =>
      return .error (.backend type s!"SOA query to {sidecar.server.key} failed: {other.text}")

end Sidecar

end ZonePropagation.Provisioner
