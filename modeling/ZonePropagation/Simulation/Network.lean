import ZonePropagation.Metrics
import ZonePropagation.Nameserver
/-!
Nameservers that answer probes by a script.

Questions take the queued answers of their server first and then its steady one; a server without
either never answers.  Announcements have a steady answer of their own, and are accepted where
there is none.
-/

namespace ZonePropagation.Simulation

/-- An answer to a probe.  Where no number of attempts is given, an outcome that may change has
used up all of them, and any other came at once. -/
structure ScriptedAnswer where
  outcome : Outcome := .ok
  serial : Option UInt32 := none
  attempts : Option Nat := none
  delay : Nat := 0
deriving Repr, Inhabited

def ScriptedAnswer.probe (answer : ScriptedAnswer) (options : ProbeOptions) : Probe where
  outcome := answer.outcome
  serial := answer.serial
  attempts := answer.attempts.getD (if answer.outcome.isRetryable then options.budget else 1)

structure ProbeCall where
  time : Nat
  kind : ProbeKind
  zone : String
  server : Nameserver
  options : ProbeOptions
deriving Repr

/-- The nameservers, with the probes that were sent to them, the latest first. -/
structure Network where
  queued : List (Nameserver × ScriptedAnswer) := []
  steady : List (Nameserver × ScriptedAnswer) := []
  acceptance : List (Nameserver × ScriptedAnswer) := []
  calls : List ProbeCall := []
deriving Repr

namespace Network

def entryFor (server : Nameserver) (entries : List (Nameserver × ScriptedAnswer)) :
    Option ScriptedAnswer :=
  (entries.find? fun entry => entry.1 == server).map Prod.snd

def without (server : Nameserver) (entries : List (Nameserver × ScriptedAnswer)) :
    List (Nameserver × ScriptedAnswer) :=
  entries.eraseP fun entry => entry.1 == server

def queue (network : Network) (server : Nameserver) (answers : List ScriptedAnswer) : Network :=
  { network with queued := network.queued ++ answers.map (server, ·) }

def serve (network : Network) (server : Nameserver) (answer : ScriptedAnswer) : Network :=
  { network with steady := (server, answer) :: network.steady }

def accept (network : Network) (server : Nameserver) (answer : ScriptedAnswer) : Network :=
  { network with acceptance := (server, answer) :: network.acceptance }

def answer (network : Network) (call : ProbeCall) : ScriptedAnswer × Network :=
  let kept := { network with calls := call :: network.calls }
  match call.kind with
  | .announcement => ((entryFor call.server network.acceptance).getD {}, kept)
  | .question =>
      match entryFor call.server network.queued with
      | some answer => (answer, { kept with queued := without call.server network.queued })
      | none => ((entryFor call.server network.steady).getD { outcome := .timeout }, kept)

end Network

end ZonePropagation.Simulation
