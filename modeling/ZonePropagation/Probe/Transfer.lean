import ZonePropagation.Fault
import ZonePropagation.Message.Reader
import ZonePropagation.Nameserver
import ZonePropagation.Probe
/-!
Receiving a zone in a sequence of messages.

The zone's records stand between two starts of authority.  Where messages begin and end among the
records makes no difference.
-/

namespace ZonePropagation

/-- How far a transfer has come: the records so far, latest first, or its end. -/
inductive Transfer where
  | opening
  | receiving (records : List ResourceRecord)
  | complete (records : List ResourceRecord)
  | failed (cause : Fault)
deriving Repr, Inhabited

namespace Transfer

def isOver : Transfer → Bool
  | .complete _ | .failed _ => true
  | _ => false

def takeRecord (transfer : Transfer) (record : ResourceRecord) : Transfer :=
  match transfer with
  | .opening =>
      if record.type = .soa then .receiving [record]
      else .failed (.parse "AXFR did not start with SOA")
  | .receiving records =>
      if record.type = .soa then .complete records.reverse else .receiving (record :: records)
  | ended => ended

def refusal? (request : Message) (zone : String) (server : Nameserver) (message : Message) :
    Option Fault :=
  if !message.answersRequest request then some (.parse "AXFR message does not match request")
  else if message.responseCode? ≠ some .noError then
    let code := match message.responseCode? with
      | some code => "Some(" ++ code.name ++ ")"
      | none => "None"
    some (.parse ("AXFR of " ++ zone ++ " refused by " ++ server.key ++ ": " ++ code))
  else if message.answers.isEmpty then some (.parse "empty AXFR message")
  else none

def takeMessage (request : Message) (zone : String) (server : Nameserver) (transfer : Transfer)
    (message : Message) : Transfer :=
  if transfer.isOver then transfer
  else
    match refusal? request zone server message with
    | some cause => .failed cause
    | none => message.answers.foldl takeRecord transfer

def takeOctets (request : Message) (zone : String) (server : Nameserver) (transfer : Transfer)
    (octets : Octets) : Transfer :=
  match Message.read octets with
  | .error cause => if transfer.isOver then transfer else .failed (.parse cause.message)
  | .ok message => takeMessage request zone server transfer message

end Transfer

end ZonePropagation
