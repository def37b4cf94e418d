import Acs.Api.Admin
import Acs.Omadm.MoTree
import Acs.Protocol.Builder

/-! The console: the forms that create, change and delete a subscriber. -/

namespace Acs.Console
open Interleave Admin

structure Flash where
  destination : String
  message : String
  error : Bool := false

variable (py : PyText) (settings : Settings)

def quoteSafe (c : Char) : Bool := c.isAlphanum || ['_', '.', '-', '~', '/'].contains c

/-- `urllib.parse.quote`. -/
def quote (s : String) : String :=
  String.ofList (s.toList.flatMap fun c =>
    if quoteSafe c then [c]
    else (String.utf8EncodeChar c).flatMap fun b =>
      ['%', (Nat.digitChar (b.toNat / 16)).toUpper, (Nat.digitChar (b.toNat % 16)).toUpper])

def subscriberPage (imsi : String) : String := "/admin/ui/subscribers/" ++ quote imsi

def subscriberCreate (imsi msisdn rcsProfile entitled volteEnabled : String) (clock : Clock) :
    StoreProgram (Response Flash) := do
  let imsi := py.strip imsi
  if !py.digits imsi || imsi.length < 5 || 15 < imsi.length then
    return .ok ⟨"/admin/ui/subscribers", "IMSI must be 5 to 15 digits.", true⟩
  else
    match normaliseMsisdn py settings msisdn with
    | none => return .ok ⟨"/admin/ui/subscribers", "That number is not valid E.164.", true⟩
    | some normalised =>
      match ← Store.getSubscriber imsi with
      | some _ => return .ok ⟨"/admin/ui/subscribers", "IMSI " ++ imsi ++ " already exists.", true⟩
      | none =>
        Store.putSubscriber
          { imsi, msisdn := normalised, entitled := entitled ≠ "", volteEnabled := volteEnabled ≠ ""
            rcsProfile, createdAt := clock.now, updatedAt := clock.now } clock
        return .ok ⟨subscriberPage imsi, "Number added.", false⟩

def allowlistOf (field : String) : List String :=
  ((field.toList.splitOn ',').map fun item => py.strip (String.ofList item)).filter (· ≠ "")

def forcedOf (field : String) : Except String (Option Int) :=
  if field = "" then .ok none
  else match py.parseInt field with
    | none => .error "Forced version must be a number."
    | some forced =>
      if forced ∈ Vers.forceableVersions then .ok (some forced)
      else .error (toString forced ++ " is not a valid disable value.")

def subscriberUpdate (imsi msisdn rcsProfile forcedVers imeiAllowlist entitled volteEnabled : String)
    (clock : Clock) : StoreProgram (Response Flash) :=
  load imsi fun s => do
    match normaliseMsisdn py settings msisdn, forcedOf py forcedVers with
    | none, _ => return .ok ⟨subscriberPage imsi, "That number is not valid E.164.", true⟩
    | some _, .error message => return .ok ⟨subscriberPage imsi, message, true⟩
    | some normalised, .ok forced =>
      let allowlist := allowlistOf py imeiAllowlist
      let bad := allowlist.filter fun item =>
        !py.digits item || item.length < 14 || 16 < item.length
      if bad ≠ [] then
        return .ok ⟨subscriberPage imsi, "Not a valid IMEI: " ++ ", ".intercalate bad, true⟩
      else
        rewrite { s with
          msisdn := normalised, rcsProfile, forcedVers := forced, imeiAllowlist := allowlist
          entitled := entitled ≠ "", volteEnabled := volteEnabled ≠ "" } clock
        return .ok ⟨subscriberPage imsi, "Saved.", false⟩

/-- Set or clear a parameter override. A catalogue that does not load ends the request with its
exception. -/
def subscriberOverride (getCatalog : String → Except PyError Catalog) (tree : Omadm.MoTree)
    (imsi key dmKey value : String) (clock : Clock) :
    StoreProgram (Response (Except PyError Flash)) :=
  load imsi fun s => do
    let chosen := py.strip (if key ≠ "" then key else dmKey)
    if chosen = "" then
      return .ok (.ok ⟨subscriberPage imsi, "Choose a parameter or a management node.", true⟩)
    else
      match getCatalog (if s.rcsProfile ≠ "" then s.rcsProfile else settings.defaultRcsProfile) with
      | .error e => return .ok (.error e)
      | .ok catalog =>
        if !(catalog.entries.map CatalogEntry.key).contains chosen &&
            !(tree.allNodes.map Omadm.MoNode.uri).contains chosen then
          return .ok (.ok ⟨subscriberPage imsi, "That key is not in either catalogue.", true⟩)
        else if py.strip value ≠ "" then
          rewrite { s with overrides := Omadm.setKey chosen (py.strip value) s.overrides } clock
          return .ok (.ok ⟨subscriberPage imsi, "Override set.", false⟩)
        else if (s.overrides.lookup chosen).isSome then
          rewrite { s with overrides := s.overrides.filter (·.1 ≠ chosen) } clock
          return .ok (.ok ⟨subscriberPage imsi, "Override removed.", false⟩)
        else return .ok (.ok ⟨subscriberPage imsi, "Nothing to remove.", true⟩)

inductive Action
  | invalidate
  | enable
  | revokeTokens
  | issueToken
  | delete

/-- `token` is what `generate_token` drew. -/
def subscriberAction (sha256 : String → String) (imsi : String) (action : Action) (clock : Clock)
    (token : String) : StoreProgram (Response Flash) :=
  load imsi fun s => do
    let bumped := { s with
      provisioningVersion := Vers.nextVersion s.provisioningVersion, forcedVers := none }
    match action with
    | .invalidate =>
      rewrite bumped clock
      return .ok ⟨subscriberPage imsi, "Version bumped to " ++
        toString bumped.provisioningVersion ++ ".", false⟩
    | .enable =>
      rewrite { bumped with entitled := true } clock
      return .ok ⟨subscriberPage imsi, "Enabled and version bumped.", false⟩
    | .revokeTokens =>
      let count ← Store.revokeTokensForImsi imsi
      return .ok ⟨subscriberPage imsi, toString count ++
        " token(s) revoked; the client must re-authenticate.", false⟩
    | .issueToken =>
      let issued ← Token.issueToken sha256 imsi none settings.tokenTtlSeconds false clock token
      return .ok ⟨subscriberPage imsi, "Token issued (shown once): " ++ issued, false⟩
    | .delete =>
      let _ ← Store.revokeTokensForImsi imsi
      Store.deleteSubscriber imsi
      return .ok ⟨"/admin/ui/subscribers", "Subscriber deleted.", false⟩

end Acs.Console
