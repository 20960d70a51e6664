import ZonePropagation.Http.Message
import ZonePropagation.Text.Base64
/-!
Sending requests.  A request that cannot be built is never sent; the failures name the URL as far
as there is one.
-/

namespace ZonePropagation.Http

inductive ClientError where
  | unbuildable (url : Option Url)
  | unanswered (url : Url)
  | undecodable
deriving DecidableEq, Repr

def ClientError.text : ClientError → String
  | .unbuildable none => "builder error"
  | .unbuildable (some url) => s!"builder error for url ({url.text})"
  | .unanswered url => s!"error sending request for url ({url.text})"
  | .undecodable => "error decoding response body"

def userHeader (url : Url) : List (String × String) :=
  if url.username == "" && url.password == "" then []
  else
    let decoded (text : String) : List UInt8 := Url.decodeOctets (Octets.ofText text)
    let octets := decoded url.username ++ [58] ++ decoded url.password
    let spelled := (Text.Base64.encode octets).map fun octet => Char.ofNat octet.toNat
    [("authorization", "Basic " ++ String.ofList spelled)]

/-- Builds a request.  The address is looked at first, then the headers, and the scheme last. -/
def Request.build (method : Method) (address : String) (headers : List (String × String))
    (body : Option Json) : Except ClientError Request :=
  match Url.ofText? address with
  | none => .error (.unbuildable none)
  | some url =>
      let allowed := headers.all fun header => header.2.toList.all isHeaderCharacter
      if url.host.isNone then .error (.unbuildable (some url))
      else if !allowed then .error (.unbuildable none)
      else if url.scheme != "http" && url.scheme != "https" then .error (.unbuildable (some url))
      else
        let typed := if body.isSome then [("content-type", "application/json")] else []
        .ok { method, url, headers := userHeader url ++ headers ++ typed, body }

def send {m : Type → Type} [Monad m] (exchange : Request → m (Option Response)) (method : Method)
    (address : String) (headers : List (String × String)) (body : Option Json) :
    m (Except ClientError Response) := do
  match Request.build method address headers body with
  | .error error => return .error error
  | .ok request =>
      match ← exchange request with
      | some response => return .ok response
      | none => return .error (.unanswered request.url)

end ZonePropagation.Http
