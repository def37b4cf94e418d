import Acs.Auth.Token
import Acs.Protocol.Vers
import Acs.Security.Pii

/-! The operator admin API: the handlers that read or write a subscriber or its tokens. A handler
that assigns to the record it loaded edits the object `MemoryStore` holds. -/

namespace Acs.Admin
open Interleave

structure HttpException where
  statusCode : Nat
  detail : String
deriving DecidableEq

/-- A subscriber body that passed validation: its number is normalised, its version not negative,
and only a forceable version is forced. -/
structure SubscriberIn where
  msisdn : String
  entitled : Bool := true
  rcsProfile : String := ""
  provisioningVersion : Nat := 1
  forcedVers : Option { v : Int // v ∈ Vers.forceableVersions } := none
  imeiAllowlist : List String := []
  overrides : List (String × String) := []
  volteEnabled : Bool := true

abbrev Response (α : Type) := Except HttpException α

def load (imsi : String) (k : Subscriber → StoreProgram (Response α)) : StoreProgram (Response α) := do
  match ← Store.getSubscriber imsi with
  | none => return .error ⟨404, "subscriber not found"⟩
  | some subscriber => k subscriber

def rewrite (subscriber : Subscriber) (clock : Clock) : StoreProgram Unit := do
  Store.editSubscriber subscriber
  Store.putSubscriber subscriber clock

def putSubscriber (py : PyText) (imsi : String) (payload : SubscriberIn) (clock : Clock) :
    StoreProgram (Response Subscriber) := do
  if !py.digits imsi || imsi.length < 5 || 15 < imsi.length then
    return .error ⟨400, "IMSI must be 5-15 digits"⟩
  else
    let existing ← Store.getSubscriber imsi
    let subscriber : Subscriber :=
      { imsi, msisdn := payload.msisdn, entitled := payload.entitled
        provisioningVersion := payload.provisioningVersion
        forcedVers := payload.forcedVers.map Subtype.val, rcsProfile := payload.rcsProfile
        imeiAllowlist := payload.imeiAllowlist, overrides := payload.overrides
        volteEnabled := payload.volteEnabled
        dmPassword := match existing with | some e => e.dmPassword | none => ""
        createdAt := clock.now, updatedAt := clock.now }
    Store.putSubscriber subscriber clock
    return .ok subscriber

def deleteSubscriber (imsi : String) : StoreProgram (Response Unit) :=
  load imsi fun _ => do
    let _ ← Store.revokeTokensForImsi imsi
    Store.deleteSubscriber imsi
    return .ok ()

def invalidateConfiguration (imsi : String) (clock : Clock) : StoreProgram (Response Subscriber) :=
  load imsi fun s => do
    let s := { s with
      provisioningVersion := Vers.nextVersion s.provisioningVersion, forcedVers := none }
    rewrite s clock
    return .ok s

def disableSubscriber (imsi : String) (vers : Int) (clock : Clock) :
    StoreProgram (Response Subscriber) :=
  if vers ∉ Vers.forceableVersions then
    return .error ⟨400, "vers must be one of [0, -1, -2, -3, -4]"⟩
  else load imsi fun s => do
    let s := { s with forcedVers := some vers }
    rewrite s clock
    let _ ← Store.revokeTokensForImsi imsi
    return .ok s

def enableSubscriber (imsi : String) (clock : Clock) : StoreProgram (Response Subscriber) :=
  load imsi fun s => do
    let s := { s with
      forcedVers := none, entitled := true
      provisioningVersion := Vers.nextVersion s.provisioningVersion }
    rewrite s clock
    return .ok s

def revokeTokens (imsi : String) : StoreProgram (Response Nat) :=
  load imsi fun _ => return .ok (← Store.revokeTokensForImsi imsi)

end Acs.Admin
