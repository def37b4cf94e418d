import Acs.Store.Base

/-! Provisioning tokens: only the digest is stored, bound to the IMSI and perhaps the IMEI. -/

namespace Acs.Token
open Interleave

variable (sha256 : String → String)

def hashToken (token : String) : String := sha256 token

def newRecord (token imsi : String) (imei : Option String) (ttlSeconds : Int) (bindImei : Bool)
    (clock : Clock) : TokenRecord :=
  { tokenHash := hashToken sha256 token, imsi, imei := if bindImei then imei else none
    issuedAt := clock.now, expiresAt := clock.now + ttlSeconds }

/-- `token` is what `generate_token` drew. -/
def issueToken (imsi : String) (imei : Option String) (ttlSeconds : Int) (bindImei : Bool)
    (clock : Clock) (token : String) : StoreProgram String := do
  Store.putToken (newRecord sha256 token imsi imei ttlSeconds bindImei clock)
  return token

def verifyToken (token : String) (imei : Option String) (bindImei : Bool) (clock : Clock) :
    StoreProgram (Except StoreError (Option TokenRecord)) := do
  if token = "" then return .ok none
  else
    let digest := hashToken sha256 token
    match ← Store.getToken digest with
    | .error e => return .error e
    | .ok none => return .ok none
    | .ok (some record) =>
      if record.tokenHash ≠ digest then return .ok none
      else if record.revoked || record.expired none clock then return .ok none
      else if bindImei && record.imei.getD "" ≠ "" && record.imei ≠ imei then return .ok none
      else return .ok (some record)

end Acs.Token
