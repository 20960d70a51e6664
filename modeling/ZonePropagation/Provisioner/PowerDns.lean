import ZonePropagation.Provisioner
import ZonePropagation.Json.Reader
import ZonePropagation.Text.Blank
/-!
PowerDNS by its HTTP interface.

Zones follow the target's masters, so that an update asks for a transfer.
-/

namespace ZonePropagation.Provisioner

structure PowerDns where
  address : String
  key : String
  serverId : String
  masters : List Nameserver
deriving Repr

namespace PowerDns

def type : String := "powerdns"

def ofTarget (target : Target) : Except Fault PowerDns := do
  let _ ← timeoutOption target
  let address ← requiredOption target "api_url"
  return {
    address := String.ofList (Text.dropEndWhile (· == '/') address.toList)
    key := (target.option? "api_key").getD ""
    serverId := (target.option? "server_id").getD "localhost"
    masters := target.masters }

def resource (server : PowerDns) (path : String) : String :=
  s!"{server.address}/servers/{server.serverId}/{path}"

variable {m : Type → Type} [Monad m]

def send (server : PowerDns) (channel : Channel m) (method : Http.Method) (path : String)
    (body : Option Json) : m (Except Fault Http.Response) := do
  let headers := [("x-api-key", server.key)]
  match ← Http.send channel.exchange method (server.resource path) headers body with
  | .error error => return .error (.backend type error.text)
  | .ok response => return .ok response

/-- Calls the server.  Any unexpected status is a failure that quotes the response. -/
def call (server : PowerDns) (channel : Channel m) (task : String) (method : Http.Method)
    (path : String) (body : Option Json) : m (Except Fault Nat) := do
  match ← server.send channel method path body with
  | .error fault => return .error fault
  | .ok response =>
      if isExpected response then return .ok response.status
      else
        let status := Http.statusText response.status
        return .error (.backend type s!"{task} failed with {status}: {response.body}")

def retrieve (server : PowerDns) (channel : Channel m) (zone : String) :
    m (Except Fault Unit) := do
  match ← server.call channel "axfr-retrieve" .put s!"zones/{zone}/axfr-retrieve" none with
  | .error fault => return .error fault
  | .ok 404 => return .error (.backend type s!"zone {zone} does not exist")
  | .ok _ => return .ok ()

def description (server : PowerDns) (zone : String) : Json := .obj [
  ("name", .str zone),
  ("kind", .str "Slave"),
  ("masters", .strings (server.masters.map Nameserver.key))]

/-- Carries out a change.  A zone that exists already is transferred instead of created, and one
that is gone already counts as deleted. -/
def carryOut (server : PowerDns) (channel : Channel m) (change : ZoneChange) (zone : Zone) :
    m (Except Fault Unit) := do
  match change with
  | .create =>
      match ← server.call channel "create_zone" .post "zones"
          (some (server.description zone.name)) with
      | .error fault => return .error fault
      | .ok 409 => server.retrieve channel zone.name
      | .ok 404 => return .error (.backend type s!"server {server.serverId} not found")
      | .ok _ => return .ok ()
  | .update => server.retrieve channel zone.name
  | .delete =>
      match ← server.call channel "delete_zone" .delete s!"zones/{zone.name}" none with
      | .error fault => return .error fault
      | .ok _ => return .ok ()

def serialOf? (description : Json) : Option UInt32 :=
  let value := match description with
    | .obj members =>
        match members.filter (fun member : String × Json => member.1 == "serial") with
        | [member] => member.2.nat?
        | _ => none
    | .arr [value] => value.nat?
    | _ => none
  (value.filter (· < 4294967296)).map Nat.toUInt32

def serial? (server : PowerDns) (channel : Channel m) (zone : String) :
    m (Except Fault (Option UInt32)) := do
  match ← server.send channel .get s!"zones/{zone}" none with
  | .error fault => return .error fault
  | .ok response =>
      if response.status == 404 || response.status == 422 then return .ok none
      else if response.isSuccess then
        match (Json.parse? response.body).bind serialOf? with
        | some serial => return .ok (some serial)
        | none => return .error (.backend type Http.ClientError.undecodable.text)
      else
        let status := Http.statusText response.status
        return .error (.backend type s!"get_zone failed with {status}")

end PowerDns

end ZonePropagation.Provisioner
