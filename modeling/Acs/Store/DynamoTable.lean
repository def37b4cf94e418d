import Acs.Store.Memory

/-! The DynamoDB table as the store uses it: typed items, and one operation for each request to
the service. Reads are consistent, and a request takes effect at one instant. -/

namespace Acs
open Interleave

/-- The item `OTPQUOTA#msisdn`; one written before 1.4 carries no version. -/
structure OtpQuota where
  sends : List Int
  version : Option Int
  expiresAt : Int
deriving DecidableEq

namespace OtpQuota

def history : Option OtpQuota → List Int
  | some quota => quota.sends
  | none => []

def readVersion : Option OtpQuota → Int
  | some quota => quota.version.getD 0
  | none => 0

end OtpQuota

/-- What a `ClientError` carries; a reason without a code counts as `"None"`. -/
structure ClientError where
  code : String
  cancellationReasons : List (Option String) := []
deriving DecidableEq

structure DynamoTable where
  subscribers : String → Option Subscriber := fun _ => none
  /-- The `imsi` of the item `MSISDN#msisdn`. -/
  msisdns : String → Option String := fun _ => none
  quotas : String → Option OtpQuota := fun _ => none
  challenges : String → Option OtpChallenge := fun _ => none
  tokens : TokenTable := []
  devices : String → Option Device := fun _ => none

/-- The condition `_same_challenge` puts on the stored item. -/
def sameChallenge (challenge current : OtpChallenge) : Bool :=
  if challenge.challengeId ≠ "" then
    current.challengeId = challenge.challengeId && current.attempts = challenge.attempts
  else current.otpHash = challenge.otpHash && current.createdAt = challenge.createdAt &&
    current.attempts = challenge.attempts

theorem sameChallenge_eq_unchanged (e c : OtpChallenge) : sameChallenge e c = unchanged c e := by
  unfold sameChallenge unchanged
  split_ifs with hid hattempts <;> simp_all [Bool.and_comm]

inductive ItemOp
  | getSubscriber (imsi : String)
  | putSubscriber (item : Subscriber)
  | deleteSubscriber (imsi : String)
  | getMsisdn (msisdn : String)
  | putMsisdn (msisdn imsi : String)
  | deleteMsisdn (msisdn : String)
  | getQuota (msisdn : String)
  | getChallenge (msisdn : String)
  /-- Put both items if the quota still has the version read, or does not exist, and the
  challenge is the one read, or does not exist. `fault` is an error the service raises instead. -/
  | transactIssue (msisdn : String) (quota : OtpQuota) (version : Option Int)
      (challenge : OtpChallenge) (existing : Option OtpChallenge) (fault : Option ClientError)
  | replaceChallenge (msisdn : String) (expected : OtpChallenge) (replacement : Option OtpChallenge)
  | putToken (item : TokenRecord)
  | getToken (tokenHash : String)
  | queryTokens (imsi : String) (limit : Nat)
  | updateRevoked (tokenHash : String)
  | getDevice (deviceId : String)
  | putDevice (item : Device)

@[reducible] def ItemOp.Answer : ItemOp → Type
  | .getSubscriber _ => Option Subscriber
  | .putSubscriber _ => Unit
  | .deleteSubscriber _ => Unit
  | .getMsisdn _ => Option String
  | .putMsisdn _ _ => Unit
  | .deleteMsisdn _ => Unit
  | .getQuota _ => Option OtpQuota
  | .getChallenge _ => Option OtpChallenge
  | .transactIssue .. => Except ClientError Unit
  | .replaceChallenge .. => Bool
  | .putToken _ => Unit
  | .getToken _ => Option TokenRecord
  | .queryTokens _ _ => List TokenRecord
  | .updateRevoked _ => Unit
  | .getDevice _ => Option Device
  | .putDevice _ => Unit

abbrev ItemProgram := Program ItemOp ItemOp.Answer

/-- The order in which the index lists the items of a partition: by `gsi1sk`, which leaves items
of one second in any order. -/
structure Gsi where
  sort : List TokenRecord → List TokenRecord
  perm : ∀ l, (sort l).Perm l

namespace DynamoTable
open Function

/-- `version = :v`, or `attribute_not_exists(pk)` when no quota was read. -/
def quotaCondition (version : Option Int) : Option OtpQuota → Bool
  | none => version = none
  | some quota => quota.version ≠ none && (quota.version = version : Bool)

def challengeCondition : Option OtpChallenge → Option OtpChallenge → Bool
  | none, stored => stored = none
  | some existing, some current => sameChallenge existing current
  | some _, none => false

def reason (met : Bool) : Option String := if met then some "None" else some "ConditionalCheckFailed"

def putIssue (t : DynamoTable) (msisdn : String) (quota : OtpQuota) (challenge : OtpChallenge) :
    DynamoTable :=
  { t with
    quotas := update t.quotas msisdn (some quota)
    challenges := update t.challenges msisdn (some challenge) }

@[simp] theorem putIssue_quotas (t : DynamoTable) (msisdn : String) (quota : OtpQuota)
    (challenge : OtpChallenge) :
    (t.putIssue msisdn quota challenge).quotas = update t.quotas msisdn (some quota) := rfl

@[simp] theorem putIssue_challenges (t : DynamoTable) (msisdn : String) (quota : OtpQuota)
    (challenge : OtpChallenge) :
    (t.putIssue msisdn quota challenge).challenges = update t.challenges msisdn (some challenge) := rfl

def transactIssue (t : DynamoTable) (msisdn : String) (quota : OtpQuota) (version : Option Int)
    (challenge : OtpChallenge) (existing : Option OtpChallenge) :
    Except ClientError Unit × DynamoTable :=
  let quotaMet := quotaCondition version (t.quotas msisdn)
  let challengeMet := challengeCondition existing (t.challenges msisdn)
  if quotaMet && challengeMet then (.ok (), t.putIssue msisdn quota challenge)
  else
    (.error ⟨"TransactionCanceledException", [reason quotaMet, reason challengeMet]⟩, t)

def replaceChallenge (t : DynamoTable) (msisdn : String) (expected : OtpChallenge)
    (replacement : Option OtpChallenge) : Bool × DynamoTable :=
  match t.challenges msisdn with
  | some current =>
    if sameChallenge expected current then
      (true, { t with challenges := update t.challenges msisdn replacement })
    else (false, t)
  | none => (false, t)

def exec (gsi : Gsi) : (op : ItemOp) → DynamoTable → op.Answer × DynamoTable
  | .getSubscriber imsi, t => (t.subscribers imsi, t)
  | .putSubscriber s, t => ((), { t with subscribers := update t.subscribers s.imsi (some s) })
  | .deleteSubscriber imsi, t => ((), { t with subscribers := update t.subscribers imsi none })
  | .getMsisdn msisdn, t => (t.msisdns msisdn, t)
  | .putMsisdn msisdn imsi, t => ((), { t with msisdns := update t.msisdns msisdn (some imsi) })
  | .deleteMsisdn msisdn, t => ((), { t with msisdns := update t.msisdns msisdn none })
  | .getQuota msisdn, t => (t.quotas msisdn, t)
  | .getChallenge msisdn, t => (t.challenges msisdn, t)
  | .transactIssue _ _ _ _ _ (some e), t => (.error e, t)
  | .transactIssue msisdn quota version challenge existing none, t =>
    t.transactIssue msisdn quota version challenge existing
  | .replaceChallenge msisdn expected replacement, t =>
    t.replaceChallenge msisdn expected replacement
  | .putToken r, t => ((), { t with tokens := t.tokens.put r })
  | .getToken tokenHash, t => (t.tokens.get tokenHash, t)
  | .queryTokens imsi limit, t => ((gsi.sort (t.tokens.filter (·.imsi = imsi))).take limit, t)
  | .updateRevoked tokenHash, t =>
    ((), { t with tokens := t.tokens.revokeIf (·.tokenHash = tokenHash) })
  | .getDevice deviceId, t => (t.devices deviceId, t)
  | .putDevice d, t => ((), { t with devices := update t.devices d.deviceId (some d) })

end DynamoTable
end Acs
