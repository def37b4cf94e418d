import Acs.Domain.Models

/-! What the identity resolution chain concludes about a request. -/

namespace Acs

inductive IdentityMethod
  | token
  | enrichment
  | gba
  | otp
deriving DecidableEq

def IdentityMethod.value : IdentityMethod → String
  | token => "token"
  | enrichment => "enrichment"
  | gba => "gba"
  | otp => "otp"

inductive Identity
  /-- The subscriber is proven; serve the configuration. -/
  | authenticated (subscriber : Subscriber) (method : IdentityMethod)
  /-- A candidate is known; send an OTP and answer 200 with no body. -/
  | challenge (subscriber : Subscriber) (candidateMsisdn detail : String)
  /-- No usable identity; answer 511. -/
  | unresolved (detail : String)
  /-- Known subscriber, RCS not permitted; answer 403. -/
  | notEntitled (subscriber : Subscriber) (detail : String)

end Acs
