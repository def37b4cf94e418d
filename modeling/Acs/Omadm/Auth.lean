import Acs.Omadm.SyncMl

/-! OMA-DM session authentication: `syncml:auth-basic` and `syncml:auth-md5`. -/

namespace Acs.Omadm

/-- The base64 and MD5 routines: what a credential decodes to, if it can be decoded, and the
base64 of the MD5 digest of a text. -/
structure DmCrypto where
  decodeBase64 : String → Option String
  md5B64 : String → String

def splitColon (s : String) : Option (String × String) :=
  let (username, rest) := s.toList.span (· ≠ ':')
  match rest with
  | [] => none
  | _ :: password => some (String.ofList username, String.ofList password)

namespace Auth
variable (py : PyText) (crypto : DmCrypto)

def decodeBasic (c : Credentials) : Option (String × String) :=
  if c.type ≠ authBasic ∨ c.data = "" then none
  else (crypto.decodeBase64 c.data).bind splitColon

def md5Credential (username password nonce : String) : String :=
  crypto.md5B64 (crypto.md5B64 (username ++ ":" ++ password) ++ ":" ++ nonce)

/-- Whether a challenge repeats the nonce of the session, if it has one, or draws a fresh one. -/
inductive ChallengeNonce
  | keep
  | fresh
deriving DecidableEq

inductive Verdict
  | accepted (username : String)
  | rejected (reason : String) (nonce : ChallengeNonce)
deriving DecidableEq

def authenticateNone (credentials : Option Credentials) : Verdict :=
  .accepted (((credentials.bind (decodeBasic crypto)).map Prod.fst).getD "")

/-- Whose password `authenticate` looks up. -/
def basicUser (credentials : Option Credentials) : Option String :=
  match credentials with
  | none => none
  | some c => (decodeBasic crypto c).map Prod.fst

/-- `authenticate` under the scheme `basic`; `expected` is the password of `basicUser`. -/
def authenticate (credentials : Option Credentials) (expected : Option String) : Verdict :=
  match credentials with
  | none => .rejected "missing_credentials" .keep
  | some c =>
    if c.data = "" then .rejected "missing_credentials" .keep
    else if c.type = authBasic then
      match decodeBasic crypto c with
      | none => .rejected "malformed" .keep
      | some (username, password) =>
        match expected with
        | none => .rejected "invalid" .keep
        | some p => if p = "" ∨ p ≠ password then .rejected "invalid" .keep else .accepted username
    else if c.type = authMd5 then .rejected "md5_requires_username" .keep
    else .rejected "unsupported_scheme" .keep

def authenticateMd5 (c : Credentials) (username : String) (expected : Option String)
    (nonce : String) : Verdict :=
  if c.data = "" ∨ c.type ≠ authMd5 then .rejected "missing_credentials" .keep
  else
    match expected with
    | none => .rejected "invalid" .keep
    | some p =>
      if p = "" ∨ nonce = "" then .rejected "invalid" .keep
      else if md5Credential crypto username p nonce ≠ py.strip c.data then .rejected "invalid" .fresh
      else .accepted username

end Auth
end Acs.Omadm
