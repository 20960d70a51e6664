import ZonePropagation.Probe.Document
import ZonePropagation.Pool.Document
import ZonePropagation.Settings.PolicyDocument
import ZonePropagation.Simulation.Schedule
/-!
JSON documents of simulations: the pools and policies that one begins with, the answers of its
nameservers, and the probes they received.
-/

namespace ZonePropagation

namespace Simulation

def ScriptedAnswer.ofJson (json : Json) : ScriptedAnswer where
  outcome := Outcome.ofJson (json.get "outcome")
  serial := (json.get "serial").nat?.map Nat.toUInt32
  attempts := (json.get "attempts").nat?
  delay := json.natAt "delay_ms"

def ProbeCall.toJson (moment : Nat) (call : ProbeCall) : Json := .arr [
  .nat (call.time - moment), .str call.kind.text, .str call.zone,
  .nat call.options.maxRetries, .nat call.options.timeout, .nat call.options.retryInterval]

/-- The rehearsing drivers of the targets of pools, but for those that are missing. -/
def backendsOfJson (pools : List Json) : Backends :=
  let targets := (pools.flatMap fun pool => (pool.get "targets").items).filter fun target =>
    !target.flagAt "missing"
  targets.foldl (fun backends target =>
    backends.insert (target.textAt "id") (.rehearsal { refusing := target.flagAt "fail" })) {}

def ofJson (calendar : Int) (json : Json) : Simulation :=
  let pools := (json.get "pools").items
  { manager :=
      ⟨.ofPools (pools.map Pool.ofJson), VerificationPolicy.ofJson (json.get "settings")⟩
    surroundings :=
      { status := .memory { ttl := json.natOr "status_ttl_s" 3600 * 1000 }
        registry := .memory {}
        backends := backendsOfJson pools }
    calendar }

end Simulation

end ZonePropagation
