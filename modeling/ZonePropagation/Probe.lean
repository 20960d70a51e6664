import ZonePropagation.Message.Dialogue
/-!
Probes of a nameserver: an announcement or a question for the serial, sent until it has a settled
outcome or its attempts are used up.
-/

namespace ZonePropagation

inductive Outcome where
  | ok
  | noDomain (code : ResponseCode)
  | notAuthoritative
  | rejected (rcode : UInt8)
  | timeout
  | malformed
  | socketRetry
  | socketFatal
deriving DecidableEq, Repr, Inhabited

namespace Outcome

def isRetryable : Outcome → Bool
  | .timeout | .socketRetry => true
  | _ => false

def label : Outcome → String
  | .ok => "ok"
  | .noDomain _ => "no-domain"
  | .notAuthoritative => "not-authoritative"
  | .rejected _ => "rejected"
  | .timeout => "timeout"
  | .malformed => "malformed"
  | .socketRetry => "socket-retry"
  | .socketFatal => "socket-fatal"

def text : Outcome → String
  | .noDomain code => s!"no-domain ({code.name})"
  | .rejected rcode => s!"rejected (rcode {rcode})"
  | outcome => outcome.label

def ofResponse (request response : Message) : Outcome :=
  if response.answersRequest request then
    match response.responseCode? with
    | some .noError => if response.header.aa then .ok else .notAuthoritative
    | some code =>
        if code.meansNoZone then .noDomain code else .rejected response.header.rcode
    | none => .rejected response.header.rcode
  else .malformed

end Outcome

structure ProbeOptions where
  timeout : Nat
  retryInterval : Nat
  maxRetries : Nat
deriving DecidableEq, Repr, Inhabited

def ProbeOptions.budget (options : ProbeOptions) : Nat :=
  max 1 options.maxRetries

/-- The result of a probe: its outcome, the serial seen and the number of attempts made. -/
structure Probe where
  outcome : Outcome
  serial : Option UInt32
  attempts : Nat
deriving DecidableEq, Repr, Inhabited

/-- The result of a question for a zone's serial, whose last exchange ended with the given outcome
and response.  An answer without the zone's start of authority is malformed. -/
def Probe.ofSerialQuery (zone : String) (outcome : Outcome) (response : Option Message)
    (attempts : Nat) : Probe :=
  if outcome = .ok then
    match response.bind fun message => message.soaSerial? zone with
    | some serial => { outcome := .ok, serial := some serial, attempts }
    | none => { outcome := .malformed, serial := none, attempts }
  else { outcome, serial := none, attempts }

end ZonePropagation
