import Acs.Store.DynamoTable

/-! `DynamoDbStore`: every method of the port as a program over the table. -/

namespace Acs.DynamoDb
open Interleave

def otpWriteRounds : Nat := 5

/-- Whether a cancelled transaction failed only on its conditions. -/
def lostACondition (e : ClientError) : Bool :=
  let codes := (e.cancellationReasons.map (·.getD "None")).filter (· ≠ "None")
  e.code = "TransactionCanceledException" && !codes.isEmpty &&
    codes.all (· = "ConditionalCheckFailed")

def getSubscriber (imsi : String) : ItemProgram (Option Subscriber) :=
  .perform (ItemOp.getSubscriber imsi)

def getSubscriberByMsisdn (msisdn : String) : ItemProgram (Option Subscriber) := do
  match ← .perform (ItemOp.getMsisdn msisdn) with
  | none => return none
  | some imsi => getSubscriber imsi

def putSubscriber (s : Subscriber) (clock : Clock) : ItemProgram Unit := do
  let previous ← getSubscriber s.imsi
  .perform (ItemOp.putSubscriber { s with updatedAt := clock.now })
  .perform (ItemOp.putMsisdn s.msisdn s.imsi)
  match previous with
  | some p => if p.msisdn ≠ s.msisdn then .perform (ItemOp.deleteMsisdn p.msisdn) else return ()
  | none => return ()

def deleteSubscriber (imsi : String) : ItemProgram Unit := do
  let subscriber ← getSubscriber imsi
  .perform (ItemOp.deleteSubscriber imsi)
  match subscriber with
  | some s => .perform (ItemOp.deleteMsisdn s.msisdn)
  | none => return ()

/-- The quota item `issue_otp` puts in place of the one it read. -/
def quotaPut (quota : Option OtpQuota) (now : Int) : OtpQuota :=
  { sends := MemoryStore.recentSends (OtpQuota.history quota) now ++ [now]
    version := some (OtpQuota.readVersion quota + 1)
    expiresAt := now + 86400 }

def quotaVersion (quota : Option OtpQuota) : Option Int :=
  quota.map fun q => OtpQuota.readVersion (some q)

/-- The rounds of `issue_otp` that are left; `faults` are the errors its transactions meet. -/
def issueFrom (challenge : OtpChallenge) (cooldownSeconds maxSendsPerDay now : Int) (clock : Clock)
    (faults : Nat → Option ClientError) :
    Nat → ItemProgram (Except StoreError (Option OtpIssueRefused))
  | 0 => return .error .otpStoreContention
  | rounds + 1 => do
    let quota ← .perform (ItemOp.getQuota challenge.msisdn)
    let existing ← .perform (ItemOp.getChallenge challenge.msisdn)
    let sends := MemoryStore.recentSends (OtpQuota.history quota) now
    match MemoryStore.issueRefusal existing sends cooldownSeconds maxSendsPerDay now clock with
    | some refused => return .ok (some refused)
    | none =>
      match ← .perform (ItemOp.transactIssue challenge.msisdn (quotaPut quota now)
          (quotaVersion quota) challenge existing (faults rounds)) with
      | .ok () => return .ok none
      | .error e =>
        if lostACondition e then
          issueFrom challenge cooldownSeconds maxSendsPerDay now clock faults rounds
        else return .error .clientError

def issueOtp (challenge : OtpChallenge) (cooldownSeconds maxSendsPerDay now : Int) (clock : Clock)
    (faults : Nat → Option ClientError) : ItemProgram (Except StoreError (Option OtpIssueRefused)) :=
  issueFrom challenge cooldownSeconds maxSendsPerDay now clock faults otpWriteRounds

def replaceOtp (expected : OtpChallenge) (replacement : Option OtpChallenge) : ItemProgram Bool :=
  .perform (ItemOp.replaceChallenge expected.msisdn expected replacement)

/-- `from_item` of a stored token: one without `imei` cannot be decoded. -/
def reload (r : TokenRecord) : Except StoreError TokenRecord :=
  if r.imei = none then .error .typeError else .ok r

def getToken (tokenHash : String) : ItemProgram (Except StoreError (Option TokenRecord)) := do
  match ← .perform (ItemOp.getToken tokenHash) with
  | some r => return (reload r).map some
  | none => return .ok none

def revokeToken (tokenHash : String) : ItemProgram Unit := .perform (ItemOp.updateRevoked tokenHash)

/-- Revoke the items of one page that are not revoked, and count them. -/
def revokeEach : List TokenRecord → ItemProgram Nat
  | [] => return 0
  | r :: items => do
    if r.revoked then revokeEach items
    else
      revokeToken r.tokenHash
      let count ← revokeEach items
      return count + 1

def revokeTokensForImsi (imsi : String) : ItemProgram Nat := do
  revokeEach (← .perform (ItemOp.queryTokens imsi 100))

/-- The store: every operation of the port over the table. What it returns are fresh copies, so
an edit of one does not reach it. -/
def impl (faults : Nat → Option ClientError) : (op : StoreOp) → ItemProgram op.Answer
  | .getSubscriber imsi => getSubscriber imsi
  | .getSubscriberByMsisdn msisdn => getSubscriberByMsisdn msisdn
  | .putSubscriber s clock => putSubscriber s clock
  | .deleteSubscriber imsi => deleteSubscriber imsi
  | .editSubscriber _ => return ()
  | .getOtp msisdn => .perform (ItemOp.getChallenge msisdn)
  | .issueOtp challenge cooldown cap now clock => issueOtp challenge cooldown cap now clock faults
  | .replaceOtp expected replacement => replaceOtp expected replacement
  | .putToken r => .perform (ItemOp.putToken r)
  | .getToken tokenHash => getToken tokenHash
  | .revokeToken tokenHash => revokeToken tokenHash
  | .revokeTokensForImsi imsi => revokeTokensForImsi imsi
  | .getDevice deviceId => .perform (ItemOp.getDevice deviceId)
  | .putDevice d => .perform (ItemOp.putDevice d)

def run (gsi : Gsi) (faults : Nat → Option ClientError) (op : StoreOp) (t : DynamoTable) :
    op.Answer × DynamoTable := (impl faults op).eval (DynamoTable.exec gsi) t

end Acs.DynamoDb
