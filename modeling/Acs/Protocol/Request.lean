import Mathlib

/-! A parsed RCC.14 configuration request. -/

namespace Acs

/-- `value or default`: an absent and an empty string both count as false. -/
def orElseText (value : Option String) (default : String) : String :=
  match value with
  | some v => if v = "" then default else v
  | none => default

structure ConfigQuery where
  vers : Int := 0
  imsi : Option String := none
  imei : Option String := none
  msisdn : Option String := none
  token : Option String := none
  otp : Option String := none
  smsPort : Option Int := none
  defaultSmsApp : Option Int := none
  terminalVendor : Option String := none
  terminalModel : Option String := none
  terminalSwVersion : Option String := none
  clientVendor : Option String := none
  clientVersion : Option String := none
  rcsProfile : Option String := none
  deviceId : Option String := none
  apps : List String := []
  imeisv : Option String := none
  smsFormat : Option String := none
  defaultVvmApp : Option Int := none
  rcsVersion : Option String := none
  rcsState : Option Int := none
  provisioningVersion : Option String := none
  deviceType : Option String := none
  friendlyDeviceName : Option String := none
  clientAlias : Option String := none
  userAgent : String := ""
  unknown : List String := []

/-- Stable identifier for the device across CP and DM planes. -/
def ConfigQuery.deviceKey (q : ConfigQuery) : String :=
  orElseText q.imei (orElseText q.deviceId (orElseText q.imsi "unknown"))

end Acs
