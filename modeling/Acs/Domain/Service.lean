import Acs.Auth.Identity
import Acs.Auth.Otp
import Acs.Auth.Token
import Acs.Protocol.Builder
import Acs.Protocol.Vers

/-! The RCC.14 configuration decision flow, from the request to its outcome, over the store. -/

namespace Acs
open Interleave

/-- What the Authorization header of a request proves to `_resolve_gba`. -/
inductive GbaCheck
  | rejected (detail : String)
  | verified (imsi : String)

/-- What the transport says of a request beside its query: the MSISDN a trusted gateway asserted,
and its GBA header where GBA is enabled. -/
structure Evidence where
  enrichedMsisdn : Option String := none
  gba : Option GbaCheck := none

/-- How the sending of a code ends, for a setting `sms_otp_template` that formats: one with another
field than `otp` raises before anything is sent. -/
inductive SmsResult
  | sent
  | deliveryFailed
  | unsupportedDelivery

/-- What a request draws from outside: its secrets, the fate of its SMS and its clock readings. -/
structure Draws where
  token : String
  dmPassword : String
  dmPassword_ne : dmPassword ≠ ""
  otp : String
  challengeId : String
  gbaNonce : String
  sms : SmsResult
  verifiedAt : Clock
  challengedAt : Clock
  versionedAt : Clock
  issuedAt : Clock
  passwordAt : Clock
  seenAt : Clock

inductive ServiceError
  | store (e : StoreError)
  | build (e : PyError)

structure ProvisioningOutcome where
  statusCode : Nat
  body : Option ProvisioningDoc := none
  contentType : String := ""
  headers : List (String × String) := []
  metric : String := ""
  detail : String := ""
  version : Option Int := none

def noStoreHeaders : List (String × String) :=
  [("Cache-Control", "no-store, no-cache, must-revalidate"), ("Pragma", "no-cache"),
   ("X-Content-Type-Options", "nosniff")]

/-- The service: its settings, and the code it calls outside the model. -/
structure ProvisioningService where
  settings : Settings
  policy : OtpPolicy
  env : BuildEnv
  sha256 : String → String
  /-- `gba_enabled` with a BSF client. -/
  gbaEnabled : Bool := false
  gbaRealm : String := "3GPP-bootstrapping@acs.example.com"

def Vers.actionFor (version : Int) : Except PyError String :=
  if version > 0 then .ok "apply"
  else if version = 0 then .ok "disable_keep"
  else if version = -1 then .ok "disable_delete_retry"
  else if version = -2 then .ok "disable_delete_no_retry"
  else if version = -3 then .ok "dormant"
  else if version = -4 then .ok "blocked"
  else .error (.valueError ("unsupported configuration version " ++ toString version))

def OtpOutcome.value : OtpOutcome → String
  | verified => "verified"
  | noChallenge => "no_challenge"
  | expired => "expired"
  | mismatch => "mismatch"
  | exhausted => "exhausted"
  | consumed => "consumed"

namespace ProvisioningService
variable (service : ProvisioningService)

def lookupCandidate (query : ConfigQuery) : StoreProgram (Option Subscriber) := do
  let byMsisdn : StoreProgram (Option Subscriber) :=
    match orElseText query.msisdn "" with
    | "" => return none
    | msisdn => Store.getSubscriberByMsisdn msisdn
  match orElseText query.imsi "" with
  | "" => byMsisdn
  | imsi =>
    match ← Store.getSubscriber imsi with
    | some subscriber => return some subscriber
    | none => byMsisdn

def entitledOr (subscriber : Subscriber) (detail : String) (method : IdentityMethod) : Identity :=
  if subscriber.entitled then .authenticated subscriber method else .notEntitled subscriber detail

def resolveByToken (token : String) (query : ConfigQuery) (draws : Draws) :
    StoreProgram (Except ServiceError Identity) := do
  match ← Token.verifyToken service.sha256 token query.imei service.settings.tokenBindImei
      draws.verifiedAt with
  | .error e => return .error (.store e)
  | .ok none => return .ok (.unresolved "token_invalid")
  | .ok (some record) =>
    match ← Store.getSubscriber record.imsi with
    | none => return .ok (.unresolved "token_orphaned")
    | some subscriber => return .ok (entitledOr subscriber "token_holder_not_entitled" .token)

def resolveByEnrichment (msisdn : String) : StoreProgram (Except ServiceError Identity) := do
  match ← Store.getSubscriberByMsisdn msisdn with
  | some subscriber => return .ok (entitledOr subscriber "enriched_not_entitled" .enrichment)
  | none => return .ok (.unresolved "enriched_msisdn_unknown")

def resolveGba : GbaCheck → StoreProgram (Except ServiceError Identity)
  | .rejected detail => return .ok (.unresolved detail)
  | .verified imsi => do
    match ← Store.getSubscriber imsi with
    | none => return .ok (.unresolved "gba_subscriber_unknown")
    | some subscriber => return .ok (entitledOr subscriber "gba_not_entitled" .gba)

def resolveClaim (query : ConfigQuery) (draws : Draws) :
    StoreProgram (Except ServiceError Identity) := do
  match ← lookupCandidate query with
  | none => return .ok (.unresolved "subscriber_unknown")
  | some subscriber =>
    if !subscriber.entitled then return .ok (.notEntitled subscriber "not_entitled")
    else if !subscriber.imeiAllowed query.imei then
      return .ok (.notEntitled subscriber "imei_not_allowed")
    else
      match orElseText query.otp "" with
      | "" => return .ok (.challenge subscriber subscriber.msisdn "bootstrap")
      | otp =>
        match ← Otp.verifyChallenge service.sha256 service.policy subscriber.msisdn otp none
            draws.verifiedAt with
        | .verified => return .ok (.authenticated subscriber .otp)
        | outcome => return .ok (.unresolved ("otp_" ++ outcome.value))

def resolveIdentity (query : ConfigQuery) (evidence : Evidence) (draws : Draws) :
    StoreProgram (Except ServiceError Identity) :=
  match orElseText query.token "" with
  | "" =>
    match orElseText evidence.enrichedMsisdn "" with
    | "" =>
      match evidence.gba with
      | some check => resolveGba check
      | none => service.resolveClaim query draws
    | msisdn => resolveByEnrichment msisdn
  | token => service.resolveByToken token query draws

def unresolvedOutcome (detail : String) (draws : Draws) : ProvisioningOutcome :=
  if service.gbaEnabled then
    { statusCode := 401
      headers := noStoreHeaders ++ [("WWW-Authenticate", "Digest realm=\"" ++ service.gbaRealm ++
        "\", nonce=\"" ++ draws.gbaNonce ++
        "\", qop=\"auth\", algorithm=AKAv1-MD5, opaque=\"gba\"")]
      metric := "GbaChallenge", detail }
  else
    { statusCode := 511, headers := noStoreHeaders, metric := "Challenge511"
      detail := if detail = "" then "unresolved" else detail }

/-- The 200 without a body that tells the client to wait for its SMS. -/
def pending (metric detail : String) : ProvisioningOutcome :=
  { statusCode := 200, contentType := service.settings.xmlContentType
    headers := noStoreHeaders ++ [("Content-Length", "0")], metric, detail }

def retryLater (statusCode : Nat) (retryAfter : Int) (metric detail : String) :
    ProvisioningOutcome :=
  { statusCode, headers := noStoreHeaders ++ [("Retry-After", toString retryAfter)]
    metric, detail }

def refusalDetail : RefusalReason → String
  | .cooldown => "cooldown"
  | .dailyQuota => "daily_quota"

def issueOtp (subscriber : Subscriber) (candidateMsisdn : String) (query : ConfigQuery)
    (draws : Draws) : StoreProgram (Except ServiceError ProvisioningOutcome) := do
  let msisdn := if candidateMsisdn = "" then subscriber.msisdn else candidateMsisdn
  let smsPort := if query.smsPort = some 0 then none else query.smsPort
  match ← Otp.createChallenge service.sha256 service.policy msisdn subscriber.imsi smsPort none
      draws.challengedAt draws.otp draws.challengeId with
  | .error (.sendBlocked .cooldown _) => return .ok (service.pending "OtpPendingReuse" "cooldown")
  | .error (.sendBlocked reason retryAfter) =>
    return .ok (retryLater 429 retryAfter "OtpRateLimited" (refusalDetail reason))
  | .error (.store .otpStoreContention) =>
    return .ok (retryLater 503 5 "OtpStoreContention" "otp_store_contention")
  | .error (.store e) => return .error (.store e)
  | .ok (challenge, _) =>
    match draws.sms with
    | .sent => return .ok (service.pending "OtpSent" "otp_sent")
    | .deliveryFailed =>
      -- do not leave the client waiting for a message that was never sent
      let _ ← Otp.discardChallenge challenge
      return .ok (retryLater 503 60 "OtpDeliveryFailed" "otp_delivery_failed")
    | .unsupportedDelivery =>
      let _ ← Otp.discardChallenge challenge
      return .ok (retryLater 503 3600 "OtpDeliveryUnsupported" "port_addressed_sms_unsupported")

/-- Register the device so the OMA-DM plane can manage it later. -/
def recordDevice (subscriber : Subscriber) (query : ConfigQuery) (clock : Clock) :
    StoreProgram Unit := do
  let existing ← Store.getDevice query.deviceKey
  let device := existing.getD { deviceId := query.deviceKey, lastSeenAt := clock.now }
  Store.putDevice { device with
    imsi := subscriber.imsi
    manufacturer := orElseText query.terminalVendor device.manufacturer
    model := orElseText query.terminalModel device.model
    swVersion := orElseText query.terminalSwVersion device.swVersion
    clientVendor := orElseText query.clientVendor device.clientVendor
    clientVersion := orElseText query.clientVersion device.clientVersion
    lastSeenAt := clock.now }

def served (doc : ProvisioningDoc) (metric detail : String) (version : Int) : ProvisioningOutcome :=
  { statusCode := 200, body := some doc, contentType := service.settings.xmlContentType
    headers := noStoreHeaders, metric, detail, version := some version }

def deliver (subscriber : Subscriber) (query : ConfigQuery) (method : IdentityMethod) (token : String)
    (draws : Draws) : StoreProgram (Except ServiceError ProvisioningOutcome) := do
  let settings := service.settings
  let version := subscriber.provisioningVersion
  let profile := if subscriber.rcsProfile ≠ "" then subscriber.rcsProfile
    else orElseText query.rcsProfile settings.defaultRcsProfile
  match Builder.buildDocument service.env settings query subscriber.imsi subscriber.msisdn version
      settings.provisioningValiditySeconds profile token subscriber.overrides
      subscriber.dmPassword with
  | .error e => return .error (.build e)
  | .ok doc =>
    recordDevice subscriber query draws.seenAt
    return .ok (service.served doc "ConfigServed" method.value version)

def serveDocument (subscriber : Subscriber) (query : ConfigQuery) (method : IdentityMethod)
    (draws : Draws) : StoreProgram (Except ServiceError ProvisioningOutcome) := do
  let settings := service.settings
  let token ← Token.issueToken service.sha256 subscriber.imsi query.imei settings.tokenTtlSeconds
    settings.tokenBindImei draws.issuedAt draws.token
  if settings.dmEnabled && settings.dmBootstrapInCp && (subscriber.dmPassword = "" : Bool) then
    let subscriber := { subscriber with dmPassword := draws.dmPassword }
    Store.editSubscriber subscriber
    Store.putSubscriber subscriber draws.passwordAt
    service.deliver subscriber query method token draws
  else service.deliver subscriber query method token draws

def serveVersion (subscriber : Subscriber) (query : ConfigQuery) (method : IdentityMethod)
    (draws : Draws) : StoreProgram (Except ServiceError ProvisioningOutcome) :=
  let version := subscriber.provisioningVersion
  if Vers.clientHoldsCurrent query.vers version then
    return .ok (service.served
      (Builder.buildVersOnlyDocument version service.settings.provisioningValiditySeconds)
      "ConfigUnchanged" "vers_only" version)
  else service.serveDocument subscriber query method draws

def serveConfiguration (subscriber : Subscriber) (query : ConfigQuery) (method : IdentityMethod)
    (draws : Draws) : StoreProgram (Except ServiceError ProvisioningOutcome) := do
  match subscriber.forcedVers with
  | some forced =>
    -- operator forced a disable / dormant / blocked state
    match Vers.actionFor forced with
    | .error e => return .error (.build e)
    | .ok action =>
      return .ok (service.served
        (Builder.buildVersOnlyDocument forced service.settings.provisioningValiditySeconds)
        "ConfigDisabled" action forced)
  | none =>
    if subscriber.provisioningVersion ≤ 0 then
      let subscriber := { subscriber with
        provisioningVersion := Vers.nextVersion subscriber.provisioningVersion }
      Store.editSubscriber subscriber
      Store.putSubscriber subscriber draws.versionedAt
      service.serveVersion subscriber query method draws
    else service.serveVersion subscriber query method draws

def handle (query : ConfigQuery) (evidence : Evidence) (draws : Draws) :
    StoreProgram (Except ServiceError ProvisioningOutcome) := do
  match ← service.resolveIdentity query evidence draws with
  | .error e => return .error e
  | .ok (.notEntitled _ detail) =>
    return .ok { statusCode := 403, headers := noStoreHeaders, metric := "Rejected403"
                 detail := if detail = "" then "not_entitled" else detail }
  | .ok (.unresolved detail) => return .ok (service.unresolvedOutcome detail draws)
  | .ok (.challenge subscriber candidateMsisdn _) =>
    service.issueOtp subscriber candidateMsisdn query draws
  | .ok (.authenticated subscriber method) =>
    service.serveConfiguration subscriber query method draws

end ProvisioningService
end Acs
