import Mathlib

/-! The settings that the modelled code reads, with their defaults. -/

namespace Acs

inductive DmAuthScheme
  | none
  | basic
  | md5
deriving DecidableEq, Repr

structure Settings where
  serviceName : String := "rcs-acs"
  xmlContentType : String := "text/xml"
  defaultCountryCode : String := ""
  nationalTrunkPrefix : String := "0"
  defaultRcsProfile : String := "UP_2.4"
  provisioningValiditySeconds : Int := 86400
  tokenTtlSeconds : Int := 2592000
  tokenBindImei : Bool := true
  dmEnabled : Bool := true
  dmServerId : String := "ACS-DM"
  dmAuthScheme : DmAuthScheme := .basic
  dmBootstrapInCp : Bool := true
  dmAccountUri : String := "https://acs.example.com/dm"
  dmMaxMsgSize : Int := 16384
  dmSessionTtlSeconds : Int := 600

end Acs
