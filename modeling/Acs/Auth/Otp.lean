import Acs.Store.Memory

/-! The SMS one-time-password challenge: `create_challenge`, `verify_challenge` and
`discard_challenge` as programs over the store. -/

namespace Acs
open Interleave

structure OtpPolicy where
  length : Int := 6
  ttlSeconds : Int := 300
  maxAttempts : Int := 3
  resendCooldownSeconds : Int := 60
  maxSendsPerDay : Int := 10

inductive OtpOutcome
  | verified
  | noChallenge
  | expired
  | mismatch
  | exhausted
  | consumed
deriving DecidableEq

inductive CreateError
  | sendBlocked (reason : RefusalReason) (retryAfter : Int)
  | store (e : StoreError)

namespace Otp

variable (sha256 : String → String)

/-- Hash the OTP together with the MSISDN so a digest cannot be replayed. -/
def hashOtp (msisdn otp : String) : String := sha256 (msisdn ++ ":" ++ otp)

def newChallenge (policy : OtpPolicy) (msisdn imsi : String) (smsPort : Option Int) (current : Int)
    (otp challengeId : String) : OtpChallenge :=
  { msisdn, otpHash := hashOtp sha256 msisdn otp, imsi, createdAt := current
    expiresAt := current + policy.ttlSeconds, smsPort, challengeId }

/-- `otp` and `challengeId` are what `generate_otp` and `token_hex` drew. -/
def createChallenge (policy : OtpPolicy) (msisdn imsi : String) (smsPort now : Option Int)
    (clock : Clock) (otp challengeId : String) :
    StoreProgram (Except CreateError (OtpChallenge × String)) := do
  let current := clock.orNow now
  let challenge := newChallenge sha256 policy msisdn imsi smsPort current otp challengeId
  match ← Store.issueOtp challenge policy.resendCooldownSeconds policy.maxSendsPerDay current clock with
  | .error e => return .error (.store e)
  | .ok (some refused) => return .error (.sendBlocked refused.reason refused.retryAfter)
  | .ok none => return .ok (challenge, otp)

/-- The outcome of one guess, and what is to be stored in place of the challenge. -/
def judge (policy : OtpPolicy) (msisdn otp : String) (challenge : OtpChallenge) :
    OtpOutcome × Option OtpChallenge :=
  let attempts := challenge.attempts + 1
  if challenge.otpHash = hashOtp sha256 msisdn otp then (.verified, none)
  else if attempts ≥ policy.maxAttempts then (.exhausted, none)
  else (.mismatch, some { challenge with attempts })

def verifyRounds : Nat := 5

def verifyFrom (policy : OtpPolicy) (msisdn otp : String) (current : Int) (clock : Clock) :
    Nat → StoreProgram OtpOutcome
  | 0 => return .mismatch
  | rounds + 1 => do
    match ← Store.getOtp msisdn with
    | none => return .noChallenge
    | some challenge =>
      if challenge.consumed then return .consumed
      else if challenge.expired (some current) clock then
        let _ ← Store.replaceOtp challenge none
        return .expired
      else if challenge.attempts ≥ policy.maxAttempts then
        let _ ← Store.replaceOtp challenge none
        return .exhausted
      else
        let judged := judge sha256 policy msisdn otp challenge
        if ← Store.replaceOtp challenge judged.2 then return judged.1
        else verifyFrom policy msisdn otp current clock rounds

def verifyChallenge (policy : OtpPolicy) (msisdn otp : String) (now : Option Int) (clock : Clock) :
    StoreProgram OtpOutcome :=
  verifyFrom sha256 policy msisdn otp (clock.orNow now) clock verifyRounds

def discardFrom (challenge : OtpChallenge) : Nat → StoreProgram Bool
  | 0 => return false
  | rounds + 1 => do
    match ← Store.getOtp challenge.msisdn with
    | none => return false
    | some current =>
      if current.sameIssue challenge then
        if ← Store.replaceOtp current none then return true else discardFrom challenge rounds
      else return false

/-- Delete `challenge` if it is still the stored one, whatever its attempts. -/
def discardChallenge (challenge : OtpChallenge) : StoreProgram Bool :=
  discardFrom challenge verifyRounds

end Otp
end Acs
