import Mathlib

/-! Configuration version (`VERS`) semantics. -/

namespace Acs.Vers

/-- Values an operator may force through the admin API. -/
def forceableVersions : List Int := [0, -1, -2, -3, -4]

/-- True when the client already holds the configuration we would send. -/
def clientHoldsCurrent (requestVers serverVersion : Int) : Bool :=
  serverVersion > 0 && (requestVers = serverVersion : Bool)

def nextVersion (current : Int) : Int := if current > 0 then current + 1 else 1

end Acs.Vers
