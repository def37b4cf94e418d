import Mathlib

/-! The persisted entities, with the fields and defaults of `acs.domain.models`. -/

namespace Acs

/-- A reading of `int(time.time())`. It is never 0, which Python counts as false. -/
structure Clock where
  now : Int
  pos : 0 < now

namespace Clock

def orNow (clock : Clock) : Option Int → Int
  | some t => if t = 0 then clock.now else t
  | none => clock.now

theorem orNow_ne_zero (clock : Clock) (t : Option Int) : clock.orNow t ≠ 0 := by
  have hpos : clock.now ≠ 0 := Int.ne_of_gt clock.pos
  cases t with
  | none => exact hpos
  | some t =>
    by_cases ht : t = 0
    · simpa only [orNow, if_pos ht] using hpos
    · simpa only [orNow, if_neg ht] using ht

theorem orNow_some {clock : Clock} {t : Int} (ht : t ≠ 0) : clock.orNow (some t) = t := if_neg ht

/-! The readings of the worked runs. -/

theorem pos_start : (0 : Int) < 1700000000 := by decide

theorem pos_second : (0 : Int) < 1700000001 := by decide

theorem pos_minute : (0 : Int) < 1700000060 := by decide

theorem pos_later : (0 : Int) < 1700000100 := by decide

end Clock

/-- A provisionable subscriber record. `overrides` is a dictionary in insertion order. -/
structure Subscriber where
  imsi : String
  msisdn : String
  entitled : Bool := true
  provisioningVersion : Int := 1
  forcedVers : Option Int := none
  rcsProfile : String := ""
  imeiAllowlist : List String := []
  overrides : List (String × String) := []
  dmPassword : String := ""
  volteEnabled : Bool := true
  createdAt : Int
  updatedAt : Int
deriving DecidableEq, Repr

def Subscriber.imeiAllowed (s : Subscriber) (imei : Option String) : Bool :=
  if s.imeiAllowlist.isEmpty then true
  else match imei with
    | none => false
    | some i => s.imeiAllowlist.contains i

/-- A pending SMS challenge; `challengeId` is empty on one stored by an old release. -/
structure OtpChallenge where
  msisdn : String
  otpHash : String
  imsi : String
  createdAt : Int
  expiresAt : Int
  attempts : Int := 0
  smsPort : Option Int := none
  consumed : Bool := false
  challengeId : String := ""
deriving DecidableEq, Repr

namespace OtpChallenge

def expired (c : OtpChallenge) (t : Option Int) (clock : Clock) : Bool :=
  c.expiresAt ≤ clock.orNow t

def sameIssue (c other : OtpChallenge) : Bool :=
  if c.challengeId ≠ "" ∧ other.challengeId ≠ "" then c.challengeId = other.challengeId
  else (c.otpHash, c.createdAt) = (other.otpHash, other.createdAt)

end OtpChallenge

/-- A provisioning token; only the digest is stored. -/
structure TokenRecord where
  tokenHash : String
  imsi : String
  imei : Option String
  issuedAt : Int
  expiresAt : Int
  revoked : Bool := false
deriving DecidableEq, Repr

def TokenRecord.expired (r : TokenRecord) (t : Option Int) (clock : Clock) : Bool :=
  r.expiresAt ≤ clock.orNow t

/-- A managed device; `moValues` maps node URIs to values. -/
structure Device where
  deviceId : String
  imsi : String := ""
  manufacturer : String := ""
  model : String := ""
  swVersion : String := ""
  clientVendor : String := ""
  clientVersion : String := ""
  dmClientVersion : String := ""
  lastSeenAt : Int
  moValues : List (String × String) := []
deriving DecidableEq, Repr

structure DmSession where
  sessionId : String
  deviceId : String
  wireSessionId : String := ""
  imsi : String := ""
  phase : String := "init"
  lastMsgId : Int := 0
  serverCmdId : Int := 0
  authenticated : Bool := false
  nonce : String := ""
  pending : List (List (String × String)) := []
  reportedFailures : Int := 0
  expiresAt : Int := 0
deriving DecidableEq, Repr

/-- The unsent part of a package, kept apart from its session. -/
structure DmPendingPackage where
  sessionId : String
  phase : String
  entries : List (List String) := []
  messages : Int := 1
  expiresAt : Int := 0
deriving DecidableEq, Repr

end Acs
