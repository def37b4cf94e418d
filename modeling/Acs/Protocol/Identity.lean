import Acs.Data.Except
import Acs.Security.Pii

/-! The IMS identities that follow from an IMSI. -/

namespace Acs

inductive PyError
  | valueError (message : String)
  | catalogError
  | formatError
deriving DecidableEq

/-- MCCs whose operators use 3-digit MNCs. -/
def threeDigitMncMcc : List String :=
  ["302", "310", "311", "312", "313", "314", "315", "316", "334", "338", "342", "344", "346", "348",
   "365", "374", "708", "722", "732"]

structure ImsIdentity where
  imsi : String
  mcc : String
  mnc : String
  imsDomain : String
  impi : String
  impu : String
  acsFqdn : String

def ImsIdentity.asContext (i : ImsIdentity) : List (String × String) :=
  [("imsi", i.imsi), ("mcc", i.mcc), ("mnc", i.mnc), ("ims_domain", i.imsDomain),
   ("impi", i.impi), ("impu", i.impu), ("acs_fqdn", i.acsFqdn)]

def zfill (width : Nat) (s : String) : String :=
  String.ofList (List.replicate (width - s.length) '0' ++ s.toList)

/-- Split an IMSI into MCC and MNC, the MNC zero-padded to three digits. -/
def splitImsi (py : PyText) (imsi : String) : Except PyError (String × String) :=
  if imsi.length < 5 || !py.digits imsi then .error (.valueError "IMSI must be at least 5 digits")
  else
    let mcc := String.ofList (imsi.toList.take 3)
    let length := if mcc ∈ threeDigitMncMcc then 3 else 2
    .ok (mcc, zfill 3 (String.ofList ((imsi.toList.drop 3).take length)))

def deriveIdentity (py : PyText) (imsi msisdn : String) : Except PyError ImsIdentity := do
  let (mcc, mnc) ← splitImsi py imsi
  let imsDomain := "ims.mnc" ++ mnc ++ ".mcc" ++ mcc ++ ".3gppnetwork.org"
  let impi := imsi ++ "@" ++ imsDomain
  return {
    imsi, mcc, mnc, imsDomain, impi
    impu := if msisdn ≠ "" then "sip:" ++ msisdn ++ "@" ++ imsDomain else "sip:" ++ impi
    acsFqdn := "config.rcs.mnc" ++ mnc ++ ".mcc" ++ mcc ++ ".pub.3gppnetwork.org" }

end Acs
