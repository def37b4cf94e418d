import Acs.Auth.Enrichment
import Acs.Domain.Models

/-! GBA (3GPP TS 33.220): the nonces of the HTTP challenge, and the Digest header that answers it. -/

namespace Acs

structure NafKeys where
  btid : String
  ksNaf : List UInt8
  impi : String

inductive GbaError
  | valueError
  | typeError
  | bsf (message : String)
deriving DecidableEq

/-- `BsfClient.fetch_keys`, for the calls of one request in order. -/
abbrev BsfClient := (callNo : Nat) → (btid nafId : String) → Except GbaError (Option NafKeys)

/-- The codecs and digests: the text of a base64 string unless it raises, and hex digests. -/
structure GbaCrypto where
  decodeBase64 : String → Option String
  encodeBase64 : String → String
  hmacSha256 : String → String → String
  md5 : List UInt8 → String

structure AuthorizationCheck where
  ok : Bool
  btid : String := ""
  reason : String := ""
deriving DecidableEq

namespace Gba
variable (py : PyText) (lower : String → String) (crypto : GbaCrypto)

def isAscii (s : String) : Bool := s.toList.all (·.toNat < 128)

def compareDigest (a b : String) : Except GbaError Bool :=
  if isAscii a && isAscii b then .ok (a = b) else .error .typeError

def signatureOf (secret stamp : String) : String :=
  String.ofList ((crypto.hmacSha256 secret stamp).toList.take 32)

/-- A nonce the server can later verify without storing it; `random` is what it draws without a
secret. -/
def makeNonce (secret : String) (issuedAt : Int) (random : String) : String :=
  if secret = "" then random
  else
    let stamp := toString issuedAt
    crypto.encodeBase64 (stamp ++ ":" ++ signatureOf crypto secret stamp)

def verifyNonce (nonce secret : String) (maxAgeSeconds : Int) (clock : Clock) :
    Except GbaError Bool :=
  if secret = "" || nonce = "" then .ok false
  else
    match crypto.decodeBase64 nonce with
    | none => .ok false
    | some raw =>
      let stamp := String.ofList (raw.toList.takeWhile (· ≠ ':'))
      let signature := String.ofList ((raw.toList.dropWhile (· ≠ ':')).drop 1)
      if signature = "" || !py.digits stamp then .ok false
      else
        match compareDigest (signatureOf crypto secret stamp) signature with
        | .error e => .error e
        | .ok false => .ok false
        | .ok true =>
          match py.parseInt stamp with
          | none => .error .valueError
          | some issuedAt =>
            let age := clock.now - issuedAt
            .ok (0 ≤ age && age ≤ maxAgeSeconds)

def setDirective (key value : String) : List (String × String) → List (String × String)
  | [] => [(key, value)]
  | (k, v) :: rest => if k = key then (key, value) :: rest else (k, v) :: setDirective key value rest

def directiveOf (part : String) : Option (String × String) :=
  if part.toList.contains '=' then
    let key := String.ofList (part.toList.takeWhile (· ≠ '='))
    let value := String.ofList ((part.toList.dropWhile (· ≠ '=')).drop 1)
    some (lower (py.strip key),
      String.ofList (Enrichment.stripChar '"' (py.strip value).toList))
  else none

def parseAuthorization (header : String) : List (String × String) :=
  if "digest ".toList.isPrefixOf (lower header).toList then
    ((Enrichment.splitComma (String.ofList (header.toList.drop 7))).filterMap
      (directiveOf py lower)).foldl (fun out d => setDirective d.1 d.2 out) []
  else []

/-- RFC 2617 Digest response using `Ks_NAF` as the password. -/
def digestResponse (username realm : String) (password : List UInt8)
    (method uri nonce cnonce nc qop : String) : String :=
  let bytes (s : String) : List UInt8 := s.toUTF8.toList
  let ha1 := crypto.md5 (bytes (username ++ ":" ++ realm ++ ":") ++ password)
  let ha2 := crypto.md5 (bytes (method ++ ":" ++ uri))
  crypto.md5 (bytes (ha1 ++ ":" ++ nonce ++ ":" ++ nc ++ ":" ++ cnonce ++ ":" ++ qop ++ ":" ++ ha2))

def expectedResponse (realm method : String) (directives : List (String × String))
    (keys : NafKeys) : String :=
  let directive (name default : String) : String := (directives.lookup name).getD default
  digestResponse crypto (directive "username" "") realm keys.ksNaf method (directive "uri" "")
    (directive "nonce" "") (directive "cnonce" "") (directive "nc" "00000001")
    (directive "qop" "auth")

def verifyAuthorization (header realm nonceSecret method : String) (bsf : BsfClient)
    (clock : Clock) (maxNonceAgeSeconds : Int) : Except GbaError AuthorizationCheck :=
  let directives := parseAuthorization py lower header
  let directive (name : String) : String := (directives.lookup name).getD ""
  let btid := directive "username"
  if directives.isEmpty then .ok { ok := false, reason := "not_digest" }
  else if btid = "" || directive "nonce" = "" || directive "response" = "" || directive "uri" = ""
  then .ok { ok := false, btid, reason := "incomplete" }
  else
    match verifyNonce py crypto (directive "nonce") nonceSecret maxNonceAgeSeconds clock with
    | .error e => .error e
    | .ok false => .ok { ok := false, btid, reason := "nonce_invalid" }
    | .ok true =>
      -- only a structurally sound header gets to the BSF
      match bsf 0 btid realm with
      | .error e => .error e
      | .ok none => .ok { ok := false, btid, reason := "btid_unknown" }
      | .ok (some keys) =>
        match compareDigest (expectedResponse crypto realm method directives keys)
            (directive "response") with
        | .error e => .error e
        | .ok false => .ok { ok := false, btid, reason := "response_mismatch" }
        | .ok true => .ok { ok := true, btid, reason := "verified" }

end Gba
end Acs
