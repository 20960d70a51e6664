import ZonePropagation.Digest.Hmac
import ZonePropagation.Message.Writer
import ZonePropagation.Text.Base64
import ZonePropagation.Text.Lowercase
import ZonePropagation.Text.Quoted
/-!
Transaction signatures of outgoing messages.

A signed message is the written message with one more additional record, which carries the
authentication code of the message followed by the signature's variables.
-/

namespace ZonePropagation

inductive SignatureAlgorithm where
  | sha256
  | sha384
  | sha512
deriving DecidableEq, Repr

namespace SignatureAlgorithm

def name : SignatureAlgorithm → String
  | .sha256 => "hmac-sha256"
  | .sha384 => "hmac-sha384"
  | .sha512 => "hmac-sha512"

/-- The algorithm an operator's spelling names, in either case and with dots at its end. -/
def ofName? (spelling : String) : Option SignatureAlgorithm :=
  let plain := Text.trimDots (Text.lowercase spelling)
  [sha256, sha384, sha512].find? fun algorithm => algorithm.name == plain

def hash : SignatureAlgorithm → Digest.HashFunction
  | .sha256 => ⟨64, Digest.sha256⟩
  | .sha384 => ⟨128, Digest.sha384⟩
  | .sha512 => ⟨128, Digest.sha512⟩

def code (algorithm : SignatureAlgorithm) (secret octets : List UInt8) : List UInt8 :=
  Digest.hmac algorithm.hash secret octets

end SignatureAlgorithm

inductive SignatureError where
  | unknownAlgorithm (spelling : String)
  | secret (cause : Text.Base64Error)
  | message (cause : MessageError)
deriving DecidableEq, Repr

def SignatureError.text : SignatureError → String
  | .unknownAlgorithm spelling => s!"Unknown TSIG algorithm: {spelling}"
  | .secret cause => s!"TSIG secret is not valid base64: {cause.message}"
  | .message cause => s!"Failed to encode message for signing: {cause.message}"

structure SignatureKey where
  name : String
  algorithm : SignatureAlgorithm
  secret : List UInt8
deriving DecidableEq, Repr

namespace SignatureKey

/-- Builds a key from its name, its algorithm's name and its secret in Base64. -/
def ofBase64 (name algorithm secret : String) : Except SignatureError SignatureKey :=
  match SignatureAlgorithm.ofName? algorithm with
  | none => .error (.unknownAlgorithm algorithm)
  | some algorithm =>
      match Text.Base64.decode (Octets.ofText (Text.trim secret)) with
      | .error cause => .error (.secret cause)
      | .ok secret => .ok { name := Text.lowercase (Text.trimDots name), algorithm, secret }

def description (key : SignatureKey) : String :=
  let algorithm := match key.algorithm with
    | .sha256 => "HmacSha256"
    | .sha384 => "HmacSha384"
    | .sha512 => "HmacSha512"
  "TsigKey \x7b name: " ++ Text.quoted key.name ++ ", algorithm: " ++ algorithm ++ ", .. \x7d"

end SignatureKey

namespace Signature

def fudge : UInt16 := 300

def algorithmOctets (algorithm : SignatureAlgorithm) : List UInt8 :=
  Name.canonicalOctets (Name.labels algorithm.name)

def signedFields (key : SignatureKey) (time : UInt64) : List UInt8 :=
  Name.canonicalOctets (Name.labels key.name) ++ Octets.ofUInt16 RecordClass.any.code ++
    Octets.ofUInt32 0 ++ algorithmOctets key.algorithm ++ Octets.ofUInt48 time ++
    Octets.ofUInt16 fudge ++ Octets.ofUInt16 0 ++ Octets.ofUInt16 0

def recordData (key : SignatureKey) (time : UInt64) (id : UInt16) (code : List UInt8) :
    List UInt8 :=
  algorithmOctets key.algorithm ++ Octets.ofUInt48 time ++ Octets.ofUInt16 fudge ++
    Octets.ofUInt16 code.length.toUInt16 ++ code ++ Octets.ofUInt16 id ++
    Octets.ofUInt16 0 ++ Octets.ofUInt16 0

/-- The signature record of a message whose authentication code is given. -/
def record (key : SignatureKey) (time : UInt64) (id : UInt16) (code : List UInt8) :
    ResourceRecord where
  labels := Name.labels key.name
  type := .tsig
  recordClass := .any
  ttl := 0
  data := .raw (recordData key time id code)

def appended (message : Message) (signature : ResourceRecord) : Message :=
  { message with additionals := message.additionals ++ [signature] }

def written (message : Message) : Except SignatureError (List UInt8) :=
  message.write.mapError .message

/-- Writes a message signed at `time`, in seconds, of which the low 48 bits count.  The
authentication code of octets under an algorithm and a secret is that of `authenticate`. -/
def signWith (authenticate : SignatureAlgorithm → List UInt8 → List UInt8 → List UInt8)
    (key : SignatureKey) (message : Message) (time : UInt64) :
    Except SignatureError (List UInt8) := do
  let octets ← written message
  let code := authenticate key.algorithm key.secret (octets ++ signedFields key time)
  written (appended message (record key time message.header.id code))

def sign : SignatureKey → Message → UInt64 → Except SignatureError (List UInt8) :=
  signWith SignatureAlgorithm.code

end Signature

end ZonePropagation
