import Mathlib
import Acs.Protocol.Parameters
import Acs.Security.Numbers

/-! What the values of a parsed request look like: the documented grammar, and the texts beyond it
that the checks let through. -/

namespace Acs.Parameters
open Msisdn

section First
variable {α : Type} [DecidableEq α]

end First

/-! ### The parameters as a map -/

section Params
variable {env : ParseEnv} {maxValueLength : Nat} {params groups : List (String × List String)}
  {g g' : Gathered} {userAgent : String} {q : ConfigQuery}

def itemsOf (params : List (String × List String)) : List (String × String) :=
  params.flatMap fun (wireName, values) => values.map (wireName, ·)

end Params

/-! ### The documented grammar -/

section Documented

/-- What the documentation says of `int` and `str.isalnum` on ASCII. -/
structure ParseEnv.Lawful (env : ParseEnv) : Prop where
  text : env.py.Lawful
  parseInt : ∀ {s n}, Bare s → env.py.parseInt s = some n → IsInteger s n
  isAlnum : ∀ {s}, Bare s → env.isAlnum s = true → s ≠ "" ∧ ∀ c ∈ s.toList, c.isAlphanum = true

def DigitsOf (low high : Nat) (v : String) : Prop :=
  Digits v.toList ∧ low ≤ v.length ∧ v.length ≤ high

def IntegerIn (low high : Int) (v : String) : Prop := ∃ n, IsInteger v n ∧ low ≤ n ∧ n ≤ high

/-- Every value that is kept for a field meets the rule of the field. -/
structure Documented (env : ParseEnv) (kept : String → Option String) : Prop where
  vers : ∀ v ∈ kept "vers", IntegerIn (-99) 10000000 v
  imsi : ∀ v ∈ kept "imsi", DigitsOf 5 15 v
  imei : ∀ v ∈ kept "imei", DigitsOf 14 16 v
  imeisv : ∀ v ∈ kept "imeisv", DigitsOf 14 16 v
  otp : ∀ v ∈ kept "otp", env.py.strip v ≠ "" ∧
    ∀ c ∈ (env.py.strip v).toList, c.isAlphanum = true
  smsPort : ∀ v ∈ kept "sms_port", IntegerIn 0 65535 v
  defaultSmsApp : ∀ v ∈ kept "default_sms_app", IntegerIn (-4) 99 v
  defaultVvmApp : ∀ v ∈ kept "default_vvm_app", IntegerIn (-4) 99 v
  rcsState : ∀ v ∈ kept "rcs_state", IntegerIn (-4) 99 v

def bareFields : List String :=
  ["vers", "imsi", "imei", "imeisv", "sms_port", "default_sms_app", "default_vvm_app", "rcs_state"]

/-- The values that are checked are ASCII without blanks and underscores. -/
structure PlainlyWritten (env : ParseEnv) (kept : String → Option String) : Prop where
  bare : ∀ field ∈ bareFields, ∀ v ∈ kept field, Bare v
  otp : ∀ v ∈ kept "otp", Bare (env.py.strip v)

variable {env : ParseEnv} {v : String} {kept : String → Option String}

theorem Documented.written (h : Documented env kept) : PlainlyWritten env kept := by
  have hdigits : ∀ {low high : Nat} {v}, DigitsOf low high v → Bare v := fun h => h.1.bare
  have hinteger : ∀ {low high : Int} {v}, IntegerIn low high v → Bare v :=
    fun ⟨_, hn, _⟩ => hn.bare
  refine ⟨fun field hfield v hv => ?_, fun v hv c hc => ?_⟩
  · simp only [bareFields, List.mem_cons, List.not_mem_nil, or_false] at hfield
    rcases hfield with rfl | rfl | rfl | rfl | rfl | rfl | rfl | rfl
    · exact hinteger (h.vers v hv)
    · exact hdigits (h.imsi v hv)
    · exact hdigits (h.imei v hv)
    · exact hdigits (h.imeisv v hv)
    · exact hinteger (h.smsPort v hv)
    · exact hinteger (h.defaultSmsApp v hv)
    · exact hinteger (h.defaultVvmApp v hv)
    · exact hinteger (h.rcsState v hv)
  · exact bare_of_isAlphanum ((h.otp v hv).2 c hc)

end Documented

section Accepted
variable {env : ParseEnv} {params : List (String × List String)} {userAgent : String}

end Accepted

namespace Lab

def env : ParseEnv where
  py := Msisdn.Lab.text
  isAlnum s := s ≠ "" && s.toList.all fun c => c.isAlphanum || c = 'é'

def written : List (String × List String) :=
  [("vers", ["-1"]), ("IMSI", ["450051234567890"]), ("OTP", [" 123456 "]), ("app", ["b", "a", "b"])]

end Lab
end Acs.Parameters
