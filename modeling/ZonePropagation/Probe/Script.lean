import ZonePropagation.Message.Writer
import ZonePropagation.Probe.Client
/-!
A nameserver that answers by a script, and the transport to it.

Each datagram and each connection takes the next step of its transport's script.  A step sends its
messages in order; then a connection is closed, unless the step stays silent, and datagrams stop.
-/

namespace ZonePropagation

/-- A message of a scripted server: octets, whose first two may be replaced by the request's id, or
a response to the request with its own sections and flags. -/
inductive ScriptedReply where
  | verbatim (octets : List UInt8) (withId : Bool)
  | response (sections : Message) (opcode : Option UInt8) (questions : Option (List Question))
      (idDelta : Int)
deriving Repr, Inhabited

namespace ScriptedReply

def octetsFor (request : Message) : ScriptedReply → List UInt8
  | .verbatim octets withId =>
      match octets with
      | _ :: _ :: rest =>
          if withId then Octets.ofUInt16 request.header.id ++ rest else octets
      | _ => octets
  | .response sections opcode questions idDelta =>
      let id := ((request.header.id.toNat + idDelta) % 65536).toNat.toUInt16
      let header := { sections.header with id, opcode := opcode.getD request.header.opcode }
      let message := { sections with header, questions := questions.getD request.questions }
      message.write.toOption.getD []

end ScriptedReply

/-- A step of a script; over a connection a message may declare a length of its own. -/
structure ScriptedStep where
  sends : List (ScriptedReply × Option Nat) := []
  silent : Bool := false
deriving Repr, Inhabited

inductive Via where
  | datagram
  | connection
deriving DecidableEq, Repr

def Via.text : Via → String
  | .datagram => "udp"
  | .connection => "tcp"

/-- A scripted server; a transport without a script is closed.  The requests it received stand
latest first. -/
structure ScriptedServer where
  datagrams : Option (List ScriptedStep) := none
  connections : Option (List ScriptedStep) := none
  requests : List (Via × Message) := []
deriving Repr, Inhabited

namespace ScriptedServer

def understood (octets : List UInt8) : Message :=
  (Message.read octets.toArray).toOption.getD {}

def keep (server : ScriptedServer) (via : Via) (request : Message) : ScriptedServer :=
  { server with requests := (via, request) :: server.requests }

def messagesOf (stream : List UInt8) : List Octets :=
  match stream with
  | high :: low :: rest =>
      let length := (Octets.toUInt16 high low).toNat
      if length ≤ rest.length then
        (rest.take length).toArray :: messagesOf (rest.drop length)
      else []
  | _ => []
termination_by stream.length
decreasing_by simp only [List.length_cons, List.length_drop]; omega

def streamOf (request : Message) (step : ScriptedStep) : List UInt8 :=
  step.sends.flatMap fun send =>
    let octets := send.1.octetsFor request
    Octets.ofUInt16 (send.2.getD octets.length).toUInt16 ++ octets

def foldWanted {σ : Type} (step : σ → Octets → σ × Bool) (state : σ) : List Octets → σ × Bool
  | [] => (state, false)
  | message :: rest =>
      let (next, wantsMore) := step state message
      if wantsMore then foldWanted step next rest else (next, true)

def onDatagram (octets : List UInt8) (accepts : Octets → Bool) (server : ScriptedServer) :
    Except Breakage Octets × ScriptedServer :=
  match server.datagrams with
  | none => (.error .refused, server)
  | some steps =>
      let request := understood octets
      let step := steps.head?.getD { silent := true }
      let after := { server.keep .datagram request with datagrams := some steps.tail }
      let replies := step.sends.map fun send => (send.1.octetsFor request).toArray
      match replies.find? accepts with
      | some reply => (.ok reply, after)
      | none => (.error .timedOut, after)

def onConnection {σ : Type} (octets : List UInt8) (start : σ) (step : σ → Octets → σ × Bool)
    (server : ScriptedServer) : (σ × Option Breakage) × ScriptedServer :=
  match server.connections with
  | none => ((start, some .refused), server)
  | some steps =>
      let request := understood octets
      let current := steps.head?.getD {}
      let after := { server.keep .connection request with connections := some steps.tail }
      let (state, satisfied) := foldWanted step start (messagesOf (streamOf request current))
      let breakage := if current.silent then Breakage.timedOut else .ended
      ((state, if satisfied then none else some breakage), after)

def transport (address : Nameserver) (id : UInt16) (time : UInt64) :
    Transport (StateM ScriptedServer) where
  freshId := pure id
  seconds := pure time
  pause := fun _ => pure ()
  start := fun _ => pure ()
  datagram := fun server octets accepts =>
    if server = address then StateT.mk fun state => pure (onDatagram octets accepts state)
    else pure (.error .refused)
  session := fun server octets start step =>
    if server = address then StateT.mk fun state => pure (onConnection octets start step state)
    else pure (start, some .refused)

end ScriptedServer

end ZonePropagation
