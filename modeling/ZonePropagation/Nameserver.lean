import ZonePropagation.Text.Blank
import ZonePropagation.Text.Numeral
import ZonePropagation.Text.Split
/-!
Nameservers by host and port, and their text form.

The key of a nameserver is `host:port`, with brackets around a host that contains a colon.
Reading accepts a host alone, `host:port`, an address with several colons, and brackets; the port
is 53 where none is given.
-/

namespace ZonePropagation

/-- A server that answers questions about zones. -/
structure Nameserver where
  host : String
  port : UInt16
deriving DecidableEq, Repr, Inhabited

namespace Nameserver

def defaultPort : UInt16 := 53

def key (server : Nameserver) : String :=
  if server.host.contains ':' then "[" ++ server.host ++ "]:" ++ toString server.port
  else server.host ++ ":" ++ toString server.port

def withPort? (host port : List Char) : Option Nameserver :=
  (Text.uint16? (String.ofList port)).map (Nameserver.mk (String.ofList host))

def ofBracketed? (rest : List Char) : Option Nameserver :=
  match Text.splitFirst? ']' rest with
  | none => none
  | some (host, []) => some ⟨String.ofList host, defaultPort⟩
  | some (host, ':' :: port) => withPort? host port
  | some _ => none

def ofPlain? (text : List Char) : Option Nameserver :=
  match Text.splitLast? ':' text with
  | some (host, port) =>
      if host.contains ':' then some ⟨String.ofList text, defaultPort⟩ else withPort? host port
  | none => some ⟨String.ofList text, defaultPort⟩

/-- Reads a nameserver; blanks around it do not count. -/
def ofText? (text : String) : Option Nameserver :=
  match (Text.trim text).toList with
  | [] => none
  | '[' :: rest => ofBracketed? rest
  | characters => ofPlain? characters

def precedes (left right : Nameserver) : Bool :=
  left.host < right.host || (left.host == right.host && left.port ≤ right.port)

end Nameserver

end ZonePropagation
