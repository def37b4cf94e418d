import Mathlib

/-! IP addresses and networks as the module `ipaddress` of Python reads them. -/

namespace IpAddress

inductive Address
  | v4 (value : Nat)
  | v6 (value : Nat)
deriving DecidableEq

/-- A network under its mask; host bits of the text it was read from are cleared. -/
inductive Network
  | v4 (base mask : Nat)
  | v6 (base mask : Nat)
deriving DecidableEq

def Network.contains : Network → Address → Bool
  | .v4 base mask, .v4 value => value &&& mask = base
  | .v6 base mask, .v6 value => value &&& mask = base
  | _, _ => false

def decimal (cs : List Char) : Option Nat :=
  if !cs.isEmpty && cs.all Char.isDigit then
    some (cs.foldl (fun n c => 10 * n + (c.toNat - '0'.toNat)) 0)
  else none

def hexDigit (c : Char) : Option Nat :=
  if c.isDigit then some (c.toNat - '0'.toNat)
  else if 'a' ≤ c ∧ c ≤ 'f' then some (c.toNat - 'a'.toNat + 10)
  else if 'A' ≤ c ∧ c ≤ 'F' then some (c.toNat - 'A'.toNat + 10)
  else none

/-- `_parse_octet`: no leading zeros. -/
def parseOctet (cs : List Char) : Option Nat :=
  if 3 < cs.length || (cs ≠ ['0'] && cs.head? = some '0') then none
  else (decimal cs).filter (· ≤ 255)

def parseHextet (cs : List Char) : Option Nat :=
  if cs.isEmpty || 4 < cs.length then none
  else cs.foldlM (fun n c => (hexDigit c).map (16 * n + ·)) 0

def parseIPv4 (cs : List Char) : Option Nat :=
  match cs.splitOn '.' with
  | [a, b, c, d] => do
    let octets ← [a, b, c, d].mapM parseOctet
    return octets.foldl (256 * · + ·) 0
  | _ => none

def hextets (cs : List Char) : Option (List (List Char)) :=
  let parts := cs.splitOn ':'
  let last := parts.getLastD []
  if parts.length < 3 then none
  else if last.contains '.' then
    (parseIPv4 last).map fun value =>
      parts.dropLast ++ [Nat.toDigits 16 (value / 65536), Nat.toDigits 16 (value % 65536)]
  else some parts

/-- An end of the address next to `::` may itself be empty, if it is all there is. -/
def openEnd (parts : List (List Char)) (outermost : Option (List Char)) :
    Option (List (List Char)) :=
  if outermost = some [] then (if parts.length = 1 then some [] else none) else some parts

def joinHextets (parts : List (List Char)) : Option Nat := do
  let values ← parts.mapM parseHextet
  return values.foldl (65536 * · + ·) 0

/-- `_ip_int_from_string`: at most one run of zeros is left out, as `::`. -/
def parseHextets (parts : List (List Char)) : Option Nat :=
  if 9 < parts.length then none
  else
    match (List.range (parts.length - 2)).filter fun i => parts[i + 1]? = some [] with
    | [] => if parts.length = 8 then joinHextets parts else none
    | [skip] => do
      let high ← openEnd (parts.take (skip + 1)) parts.head?
      let low ← openEnd (parts.drop (skip + 2)) parts.getLast?
      if 8 ≤ high.length + low.length then none
      else
        joinHextets (high ++ List.replicate (8 - high.length - low.length) ['0'] ++ low)
    | _ => none

def parseIPv6 (cs : List Char) : Option Nat :=
  if cs.contains '/' then none
  else
    match cs.splitOn '%' with
    | [address] => (hextets address).bind parseHextets
    | [address, zone] => if zone.isEmpty then none else (hextets address).bind parseHextets
    | _ => none

/-- `ip_address`, or `none` where it raises `ValueError`. -/
def parseAddress (s : String) : Option Address :=
  (parseIPv4 s.toList).map .v4 <|> (parseIPv6 s.toList).map .v6

def netmask (width prefixLength : Nat) : Nat := 2 ^ width - 2 ^ (width - prefixLength)

/-- A prefix length, or for IPv4 a netmask or hostmask in dotted form; no mask is a single host. -/
def parseMaskIPv4 : Option (List Char) → Option Nat
  | none => some (netmask 32 32)
  | some cs =>
    match (decimal cs).filter (· ≤ 32) with
    | some prefixLength => some (netmask 32 prefixLength)
    | none => (parseIPv4 cs).bind fun value =>
      let masks := (List.range 33).map (netmask 32)
      masks.find? (· = value) <|> masks.find? (· = 2 ^ 32 - 1 - value)

def parseMaskIPv6 : Option (List Char) → Option Nat
  | none => some (netmask 128 128)
  | some cs => ((decimal cs).filter (· ≤ 128)).map (netmask 128)

/-- `ip_network(text, strict=False)`, or `none` where it raises `ValueError`. -/
def parseNetwork (s : String) : Option Network :=
  let read (address : List Char) (mask : Option (List Char)) : Option Network :=
    (do
      let value ← parseIPv4 address
      let mask ← parseMaskIPv4 mask
      return .v4 (value &&& mask) mask) <|>
    (do
      let value ← parseIPv6 address
      let mask ← parseMaskIPv6 mask
      return .v6 (value &&& mask) mask)
  match s.toList.splitOn '/' with
  | [address] => read address none
  | [address, mask] => read address (some mask)
  | _ => none

example : (parseNetwork "10.1.2.3/8").map (·.contains (.v4 0x0A000007)) = some true := by decide

example : parseAddress "::ffff:10.0.0.7" = some (.v6 0xFFFF0A000007) := by decide

end IpAddress
