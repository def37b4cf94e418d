import Acs.Domain.Models
import Acs.Interleave.Program

/-! The persistence port: what the rest of the server asks of a store. -/

namespace Acs
open Interleave

inductive RefusalReason
  | cooldown
  | dailyQuota
deriving DecidableEq, Repr

structure OtpIssueRefused where
  reason : RefusalReason
  retryAfter : Int
deriving DecidableEq, Repr

inductive StoreError
  | otpStoreContention
  | clientError
  | typeError
  | inexactNumber
deriving DecidableEq, Repr

inductive StoreOp
  | getSubscriber (imsi : String)
  | getSubscriberByMsisdn (msisdn : String)
  | putSubscriber (subscriber : Subscriber) (clock : Clock)
  | deleteSubscriber (imsi : String)
  /-- Assign the fields of the object `get_subscriber` returned; the store is not called. -/
  | editSubscriber (subscriber : Subscriber)
  | getOtp (msisdn : String)
  | issueOtp (challenge : OtpChallenge) (cooldownSeconds maxSendsPerDay now : Int) (clock : Clock)
  | replaceOtp (expected : OtpChallenge) (replacement : Option OtpChallenge)
  | putToken (record : TokenRecord)
  | getToken (tokenHash : String)
  | revokeToken (tokenHash : String)
  | revokeTokensForImsi (imsi : String)
  | getDevice (deviceId : String)
  | putDevice (device : Device)

@[reducible] def StoreOp.Answer : StoreOp → Type
  | .getSubscriber _ => Option Subscriber
  | .getSubscriberByMsisdn _ => Option Subscriber
  | .putSubscriber _ _ => Unit
  | .deleteSubscriber _ => Unit
  | .editSubscriber _ => Unit
  | .getOtp _ => Option OtpChallenge
  | .issueOtp .. => Except StoreError (Option OtpIssueRefused)
  | .replaceOtp _ _ => Bool
  | .putToken _ => Unit
  | .getToken _ => Except StoreError (Option TokenRecord)
  | .revokeToken _ => Unit
  | .revokeTokensForImsi _ => Nat
  | .getDevice _ => Option Device
  | .putDevice _ => Unit

abbrev StoreProgram := Program StoreOp StoreOp.Answer

namespace Store

def getSubscriber (imsi : String) : StoreProgram (Option Subscriber) :=
  .perform (StoreOp.getSubscriber imsi)

def getSubscriberByMsisdn (msisdn : String) : StoreProgram (Option Subscriber) :=
  .perform (StoreOp.getSubscriberByMsisdn msisdn)

def putSubscriber (subscriber : Subscriber) (clock : Clock) : StoreProgram Unit :=
  .perform (StoreOp.putSubscriber subscriber clock)

def deleteSubscriber (imsi : String) : StoreProgram Unit := .perform (StoreOp.deleteSubscriber imsi)

def editSubscriber (subscriber : Subscriber) : StoreProgram Unit :=
  .perform (StoreOp.editSubscriber subscriber)

def getOtp (msisdn : String) : StoreProgram (Option OtpChallenge) := .perform (StoreOp.getOtp msisdn)

def issueOtp (challenge : OtpChallenge) (cooldownSeconds maxSendsPerDay now : Int)
    (clock : Clock) : StoreProgram (Except StoreError (Option OtpIssueRefused)) :=
  .perform (StoreOp.issueOtp challenge cooldownSeconds maxSendsPerDay now clock)

def replaceOtp (expected : OtpChallenge) (replacement : Option OtpChallenge) : StoreProgram Bool :=
  .perform (StoreOp.replaceOtp expected replacement)

def putToken (record : TokenRecord) : StoreProgram Unit := .perform (StoreOp.putToken record)

def getToken (tokenHash : String) : StoreProgram (Except StoreError (Option TokenRecord)) :=
  .perform (StoreOp.getToken tokenHash)

def revokeTokensForImsi (imsi : String) : StoreProgram Nat :=
  .perform (StoreOp.revokeTokensForImsi imsi)

def getDevice (deviceId : String) : StoreProgram (Option Device) :=
  .perform (StoreOp.getDevice deviceId)

def putDevice (device : Device) : StoreProgram Unit := .perform (StoreOp.putDevice device)

end Store
end Acs
