import Mathlib
import Acs.Config

/-! `normalise_msisdn`, over what Python takes for white space and digits. -/

namespace Acs

def isSpaceChar (c : Char) : Bool :=
  (0x09 ≤ c.toNat && c.toNat ≤ 0x0D) || (0x1C ≤ c.toNat && c.toNat ≤ 0x20) ||
    (0x2000 ≤ c.toNat && c.toNat ≤ 0x200A) ||
    [0x85, 0xA0, 0x1680, 0x2028, 0x2029, 0x202F, 0x205F, 0x3000].contains c.toNat

def strip (s : String) : String :=
  String.ofList ((s.toList.dropWhile isSpaceChar).rdropWhile isSpaceChar)

/-- The Unicode tables behind `str.strip`, `str.isdigit`, the pattern `\d` and `int`. -/
structure PyText where
  strip : String → String
  isDigit : Char → Bool
  isDecimal : Char → Bool
  parseInt : String → Option Int

def asciiText : PyText where
  strip s := s
  isDigit := Char.isDigit
  isDecimal := Char.isDigit
  parseInt := String.toInt?

def PyText.digits (py : PyText) (s : String) : Bool := s ≠ "" && s.toList.all py.isDigit

/-- Normalise an MSISDN to E.164, or return `none` if it cannot be. -/
def normaliseMsisdn (py : PyText) (settings : Settings) (raw : String) : Option String :=
  let cleaned := (py.strip raw).toList.filterMap fun c =>
    if c = '-' then none else some (if c = ' ' then '+' else c)
  let hadPlus := cleaned.head? = some '+'
  let digits := cleaned.filter py.isDigit
  let country := settings.defaultCountryCode.toList
  let trunk := settings.nationalTrunkPrefix.toList
  if digits = [] then none
  else
    let digits :=
      if !hadPlus && !country.isEmpty && !trunk.isEmpty && trunk.isPrefixOf digits &&
          !country.isPrefixOf digits then country ++ digits.drop trunk.length
      else digits
    -- `^\+?\d{6,15}$`, and no country code begins with zero
    if digits.all py.isDecimal && 6 ≤ digits.length && digits.length ≤ 15 && digits.head? ≠ some '0'
    then some (String.ofList ('+' :: digits))
    else none

end Acs
