import Acs.Auth.Gba
import Acs.Domain.Service

/-! A configuration request as it arrives: what its headers and its peer address prove. -/

namespace Acs
open Interleave

structure HttpRequest where
  query : ConfigQuery
  headers : Headers := []
  peer : Option String := none
  method : String := "GET"

inductive RequestError
  | gba (e : GbaError)
  | service (e : ServiceError)

/-- The service with what its identity chain takes from the transport. -/
structure Frontend where
  service : ProvisioningService
  /-- `str.lower` -/
  lower : String → String
  crypto : GbaCrypto
  bsf : BsfClient := fun _ _ _ => .ok none
  trustedProxyCidrs : String := ""
  enrichmentHeaderName : String := "X-3GPP-Intended-Identity"
  gbaNonceSecret : String := ""
  gbaNonceMaxAgeSeconds : Int := 300

namespace Frontend
variable (frontend : Frontend)

def py : PyText := frontend.service.env.py

def trustedProxyList : List String :=
  ((Enrichment.splitComma frontend.trustedProxyCidrs).map frontend.py.strip).filter (· ≠ "")

def enriched (request : HttpRequest) : Option String :=
  (Enrichment.resolveEnrichedIdentity frontend.py frontend.lower frontend.service.settings
    request.headers request.peer (request.headers.lookup "x-forwarded-for")
    frontend.enrichmentHeaderName frontend.trustedProxyList).msisdn

/-- The call of `verify_authorization`, which leaves the age of a nonce at its default. -/
def authorizationCheck (request : HttpRequest) (authorization : String) (clock : Clock) :
    Except GbaError AuthorizationCheck :=
  Gba.verifyAuthorization frontend.py frontend.lower frontend.crypto authorization
    frontend.service.gbaRealm frontend.gbaNonceSecret request.method frontend.bsf clock 300

def userPart (impi : String) : String := String.ofList (impi.toList.takeWhile (· ≠ '@'))

def checkGba (request : HttpRequest) (clock : Clock) : Except GbaError (Option GbaCheck) :=
  match (request.headers.lookup "authorization").getD "" with
  | "" => .ok none
  | authorization => do
    let check ← frontend.authorizationCheck request authorization clock
    if !check.ok then return some (.rejected ("gba_" ++ check.reason))
    else
      match ← frontend.bsf 1 check.btid frontend.service.gbaRealm with
      | none => return some (.rejected "gba_btid_unknown")
      | some keys => return some (.verified (userPart keys.impi))

/-- What the headers prove, as far as the chain asks: nothing once there is a token, and nothing
of GBA once the number is asserted. -/
def evidence (request : HttpRequest) (clock : Clock) : Except GbaError Evidence :=
  if orElseText request.query.token "" ≠ "" then .ok {}
  else
    match orElseText (frontend.enriched request) "" with
    | "" =>
      if frontend.service.gbaEnabled then
        (frontend.checkGba request clock).map fun gba => { gba }
      else .ok {}
    | msisdn => .ok { enrichedMsisdn := some msisdn }

def handle (request : HttpRequest) (checkedAt : Clock) (draws : Draws) :
    StoreProgram (Except RequestError ProvisioningOutcome) :=
  match frontend.evidence request checkedAt with
  | .error e => return .error (.gba e)
  | .ok evidence => do
    match ← frontend.service.handle request.query evidence draws with
    | .error e => return .error (.service e)
    | .ok outcome => return .ok outcome

end Frontend
end Acs
