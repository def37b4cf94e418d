import Acs.Api.Admin
import Acs.Api.MsisdnUi

/-! The checks of what an unauthenticated caller sends, and where they raise instead of refusing:
the nonce, the Digest header, the console's session and form tokens, and the admin token. -/

namespace Acs.Credentials
open Gba

structure Gatekeeper where
  py : PyText
  lower : String → String
  crypto : GbaCrypto
  /-- The text of a `base64.urlsafe_b64decode`, unless it raises. -/
  decodeUrlsafe : String → Option String
  bsf : BsfClient
  realm : String
  nonceSecret : String
  method : String := "GET"
  maxNonceAge : Int := 300
  adminToken : String
  clock : Clock

variable (g : Gatekeeper)

/-- The parts of `raw.rpartition(":")` around the colon. -/
def payloadOf (raw : String) : String :=
  String.ofList ((raw.toList.reverse.dropWhile (· ≠ ':')).drop 1).reverse

def signatureIn (raw : String) : String :=
  String.ofList (raw.toList.reverse.takeWhile (· ≠ ':')).reverse

def sessionValid (cookie : Option String) (secret : String) : Except GbaError Bool :=
  if orElseText cookie "" = "" || secret = "" then .ok false
  else
    match g.decodeUrlsafe (orElseText cookie "") with
    | none => .ok false
    | some raw =>
      if !g.py.digits (payloadOf raw) || signatureIn raw = "" then .ok false
      else
        match compareDigest (signatureOf g.crypto secret (payloadOf raw)) (signatureIn raw) with
        | .error e => .error e
        | .ok false => .ok false
        | .ok true =>
          match g.py.parseInt (payloadOf raw) with
          | none => .error .valueError
          | some expires => .ok (g.clock.now < expires)

def consoleCheckCsrf (formToken : String) (cookieToken : Option String) :
    Except GbaError (Admin.Response Unit) :=
  match orElseText cookieToken "" with
  | "" => .ok (.error ⟨400, "stale form; reload and try again"⟩)
  | cookie =>
    match compareDigest formToken cookie with
    | .error e => .error e
    | .ok true => .ok (.ok ())
    | .ok false => .ok (.error ⟨400, "stale form; reload and try again"⟩)

def requireAdmin (authorization : String) : Except GbaError (Admin.Response Unit) :=
  if g.adminToken = "" then
    .ok (.error ⟨503, "admin API disabled: ACS_ADMIN_TOKEN is not configured"⟩)
  else
    let scheme := String.ofList (authorization.toList.takeWhile (· ≠ ' '))
    let token := String.ofList ((authorization.toList.dropWhile (· ≠ ' ')).drop 1)
    if g.lower scheme ≠ "bearer" then .ok (.error ⟨401, "invalid admin credentials"⟩)
    else
      match compareDigest token g.adminToken with
      | .error e => .error e
      | .ok true => .ok (.ok ())
      | .ok false => .ok (.error ⟨401, "invalid admin credentials"⟩)

inductive Call
  | verifyNonce (nonce : String)
  | verifyAuthorization (header : String)
  | sessionValid (cookie : Option String)
  | consoleCheckCsrf (formToken : String) (cookieToken : Option String)
  | webCheckCsrf (formToken : String) (cookieToken : Option String)
  | requireAdmin (authorization : String)

/-- How a check ends without an exception of its own making. -/
inductive Ending
  | result (accepted : Bool)
  | check (check : AuthorizationCheck)
  | response (response : Admin.Response Unit)

def run : Call → Except GbaError Ending
  | .verifyNonce nonce =>
    (verifyNonce g.py g.crypto nonce g.nonceSecret g.maxNonceAge g.clock).map .result
  | .verifyAuthorization header =>
    (verifyAuthorization g.py g.lower g.crypto header g.realm g.nonceSecret g.method g.bsf g.clock
      g.maxNonceAge).map .check
  | .sessionValid cookie => (sessionValid g cookie g.adminToken).map .result
  | .consoleCheckCsrf formToken cookieToken => (consoleCheckCsrf formToken cookieToken).map .response
  | .webCheckCsrf formToken cookieToken => (MsisdnUi.checkCsrf formToken cookieToken).map .result
  | .requireAdmin authorization => (requireAdmin g authorization).map .response

/-- A check accepts, or refuses in its own way. -/
def Own : Call → Ending → Prop
  | .verifyNonce _, .result _ => True
  | .verifyAuthorization _, .check _ => True
  | .sessionValid _, .result _ => True
  | .consoleCheckCsrf _ _, .response r => ∀ e, r = .error e → e.statusCode = 400
  | .webCheckCsrf _ _, .result _ => True
  | .requireAdmin _, .response r =>
    ∀ e, r = .error e → e.statusCode = 401 ∨ g.adminToken = "" ∧ e.statusCode = 503
  | _, _ => False

def EndsWell (c : Call) : Prop := ∃ e, run g c = .ok e ∧ Own g c e

structure NonceParts (nonce stamp signature : String) : Prop where
  hasSecret : g.nonceSecret ≠ ""
  given : nonce ≠ ""
  decoded : ∃ raw, g.crypto.decodeBase64 nonce = some raw ∧
    stamp = String.ofList (raw.toList.takeWhile (· ≠ ':')) ∧
    signature = String.ofList ((raw.toList.dropWhile (· ≠ ':')).drop 1)
  signed : signature ≠ ""
  stamped : g.py.digits stamp = true

/-- The signature is beyond ASCII, or that of a stamp of digits that `int` does not read. -/
def Stumbles (secret stamp signature : String) : Prop :=
  isAscii signature = false ∨
    signature = signatureOf g.crypto secret stamp ∧ g.py.parseInt stamp = none

def NonceTrap (nonce : String) : Prop :=
  ∃ stamp signature, NonceParts g nonce stamp signature ∧ Stumbles g g.nonceSecret stamp signature

def NonceGood (nonce : String) : Prop :=
  ∃ stamp signature t, NonceParts g nonce stamp signature ∧
    signature = signatureOf g.crypto g.nonceSecret stamp ∧ g.py.parseInt stamp = some t ∧
    0 ≤ g.clock.now - t ∧ g.clock.now - t ≤ g.maxNonceAge

def directive (header name : String) : String :=
  ((parseAuthorization g.py g.lower header).lookup name).getD ""

def Complete (header : String) : Prop :=
  parseAuthorization g.py g.lower header ≠ [] ∧
    ∀ name ∈ ["username", "nonce", "response", "uri"], directive g header name ≠ ""

def Trap : Call → Prop
  | .verifyNonce nonce => NonceTrap g nonce
  | .verifyAuthorization header =>
    Complete g header ∧ (NonceTrap g (directive g header "nonce") ∨
      NonceGood g (directive g header "nonce") ∧
        ((∃ e, g.bsf 0 (directive g header "username") g.realm = .error e) ∨
          (∃ keys, g.bsf 0 (directive g header "username") g.realm = .ok (some keys)) ∧
            isAscii (directive g header "response") = false))
  | .sessionValid cookie =>
    orElseText cookie "" ≠ "" ∧ g.adminToken ≠ "" ∧
      ∃ raw, g.decodeUrlsafe (orElseText cookie "") = some raw ∧
        g.py.digits (payloadOf raw) = true ∧ signatureIn raw ≠ "" ∧
        Stumbles g g.adminToken (payloadOf raw) (signatureIn raw)
  | .consoleCheckCsrf formToken cookieToken | .webCheckCsrf formToken cookieToken =>
    orElseText cookieToken "" ≠ "" ∧
      (isAscii formToken = false ∨ isAscii (orElseText cookieToken "") = false)
  | .requireAdmin authorization =>
    g.adminToken ≠ "" ∧
      g.lower (String.ofList (authorization.toList.takeWhile (· ≠ ' '))) = "bearer" ∧
      (isAscii (String.ofList ((authorization.toList.dropWhile (· ≠ ' ')).drop 1)) = false ∨
        isAscii g.adminToken = false)

/-- The digests are written in hexadecimal. -/
structure Gatekeeper.Hexes (g : Gatekeeper) : Prop where
  hmac : ∀ secret text, isAscii (g.crypto.hmacSha256 secret text) = true
  md5 : ∀ bytes, isAscii (g.crypto.md5 bytes) = true

/-! ### A signed stamp -/

section Signed
variable {g : Gatekeeper} {secret stamp signature nonce : String} {fresh : Int → Bool}

def checkSigned (g : Gatekeeper) (secret stamp signature : String) (fresh : Int → Bool) :
    Except GbaError Bool :=
  if signature = "" || !g.py.digits stamp then .ok false
  else
    match compareDigest (signatureOf g.crypto secret stamp) signature with
    | .error e => .error e
    | .ok false => .ok false
    | .ok true =>
      match g.py.parseInt stamp with
      | none => .error .valueError
      | some t => .ok (fresh t)

theorem isAscii_signatureOf (hg : g.Hexes) (secret stamp : String) :
    isAscii (signatureOf g.crypto secret stamp) = true := by
  have hall := List.all_eq_true.1 (hg.hmac secret stamp)
  unfold isAscii signatureOf
  rw [String.toList_ofList]
  exact List.all_eq_true.2 fun c hc => hall c (List.mem_of_mem_take hc)

theorem compareDigest_ascii {a b : String} (ha : isAscii a = true) (hb : isAscii b = true) :
    compareDigest a b = .ok (decide (a = b)) := by
  unfold compareDigest
  rw [ha, hb]
  rfl

theorem compareDigest_beyond {a b : String} (h : isAscii a = false ∨ isAscii b = false) :
    compareDigest a b = .error .typeError := by
  unfold compareDigest
  rw [if_neg]
  rw [Bool.and_eq_true]
  rintro ⟨ha, hb⟩
  rcases h with h | h
  · exact Bool.false_ne_true (h.symm.trans ha)
  · exact Bool.false_ne_true (h.symm.trans hb)

theorem checkSigned_error (hg : g.Hexes) :
    (∃ e, checkSigned g secret stamp signature fresh = .error e) ↔
      signature ≠ "" ∧ g.py.digits stamp = true ∧ Stumbles g secret stamp signature := by
  unfold checkSigned Stumbles
  by_cases hempty : signature = ""
  · simp [hempty]
  · cases hdigits : g.py.digits stamp with
    | false => simp
    | true =>
      rw [if_neg (by simp [hempty])]
      cases hascii : isAscii signature with
      | false =>
        rw [compareDigest_beyond (.inr hascii)]
        simp [hempty]
      | true =>
        rw [compareDigest_ascii (isAscii_signatureOf hg _ _) hascii]
        by_cases hsame : signatureOf g.crypto secret stamp = signature
        · rw [decide_eq_true hsame]
          cases hint : g.py.parseInt stamp with
          | none => simp [hempty, hsame]
          | some t => simp
        · rw [decide_eq_false hsame]
          simp [Ne.symm hsame]

theorem checkSigned_true (hg : g.Hexes) :
    checkSigned g secret stamp signature fresh = .ok true ↔
      signature ≠ "" ∧ g.py.digits stamp = true ∧ signature = signatureOf g.crypto secret stamp ∧
        ∃ t, g.py.parseInt stamp = some t ∧ fresh t = true := by
  unfold checkSigned
  by_cases hempty : signature = ""
  · simp [hempty]
  · cases hdigits : g.py.digits stamp with
    | false => simp
    | true =>
      rw [if_neg (by simp [hempty])]
      by_cases hsame : signatureOf g.crypto secret stamp = signature
      · have hascii : isAscii signature = true := hsame ▸ isAscii_signatureOf hg _ _
        rw [compareDigest_ascii (isAscii_signatureOf hg _ _) hascii, decide_eq_true hsame]
        cases hint : g.py.parseInt stamp with
        | none => simp
        | some t => simp [hempty, hsame]
      · cases hascii : isAscii signature with
        | false =>
          rw [compareDigest_beyond (.inr hascii)]
          simp [Ne.symm hsame]
        | true =>
          rw [compareDigest_ascii (isAscii_signatureOf hg _ _) hascii, decide_eq_false hsame]
          simp [Ne.symm hsame]

theorem verifyNonce_eq (nonce : String) :
    verifyNonce g.py g.crypto nonce g.nonceSecret g.maxNonceAge g.clock =
      if g.nonceSecret = "" || nonce = "" then .ok false
      else
        match g.crypto.decodeBase64 nonce with
        | none => .ok false
        | some raw =>
          checkSigned g g.nonceSecret (String.ofList (raw.toList.takeWhile (· ≠ ':')))
            (String.ofList ((raw.toList.dropWhile (· ≠ ':')).drop 1))
            fun t => 0 ≤ g.clock.now - t && g.clock.now - t ≤ g.maxNonceAge := rfl

theorem sessionValid_eq (cookie : Option String) (secret : String) :
    sessionValid g cookie secret =
      if orElseText cookie "" = "" || secret = "" then .ok false
      else
        match g.decodeUrlsafe (orElseText cookie "") with
        | none => .ok false
        | some raw =>
          checkSigned g secret (payloadOf raw) (signatureIn raw) fun t => g.clock.now < t := by
  unfold sessionValid checkSigned
  simp only [Bool.or_comm]

theorem verifyNonce_error (hg : g.Hexes) :
    (∃ e, verifyNonce g.py g.crypto nonce g.nonceSecret g.maxNonceAge g.clock = .error e) ↔
      NonceTrap g nonce := by
  rw [verifyNonce_eq]
  unfold NonceTrap
  by_cases hgiven : g.nonceSecret = "" ∨ nonce = ""
  · rw [if_pos (by simpa using hgiven)]
    refine iff_of_false (by simp) ?_
    rintro ⟨stamp, signature, hparts, -⟩
    exact hgiven.elim hparts.hasSecret hparts.given
  · rw [if_neg (by simpa using hgiven)]
    rw [not_or] at hgiven
    cases hdecoded : g.crypto.decodeBase64 nonce with
    | none =>
      refine iff_of_false (by simp) ?_
      rintro ⟨stamp, signature, hparts, -⟩
      obtain ⟨raw, hraw, -⟩ := hparts.decoded
      cases hdecoded.symm.trans hraw
    | some raw =>
      dsimp only
      rw [checkSigned_error hg]
      constructor
      · rintro ⟨hsigned, hstamped, hstumbles⟩
        exact ⟨_, _, ⟨hgiven.1, hgiven.2, ⟨raw, hdecoded, rfl, rfl⟩, hsigned, hstamped⟩, hstumbles⟩
      · rintro ⟨stamp, signature, ⟨-, -, ⟨raw', hraw, rfl, rfl⟩, hsigned, hstamped⟩, hstumbles⟩
        obtain rfl := Option.some.inj (hdecoded.symm.trans hraw)
        exact ⟨hsigned, hstamped, hstumbles⟩

theorem verifyNonce_accepted (hg : g.Hexes) :
    verifyNonce g.py g.crypto nonce g.nonceSecret g.maxNonceAge g.clock = .ok true ↔
      NonceGood g nonce := by
  rw [verifyNonce_eq]
  unfold NonceGood
  by_cases hgiven : g.nonceSecret = "" ∨ nonce = ""
  · rw [if_pos (by simpa using hgiven)]
    refine iff_of_false (by simp) ?_
    rintro ⟨stamp, signature, t, hparts, -⟩
    exact hgiven.elim hparts.hasSecret hparts.given
  · rw [if_neg (by simpa using hgiven)]
    rw [not_or] at hgiven
    cases hdecoded : g.crypto.decodeBase64 nonce with
    | none =>
      refine iff_of_false (by simp) ?_
      rintro ⟨stamp, signature, t, hparts, -⟩
      obtain ⟨raw, hraw, -⟩ := hparts.decoded
      cases hdecoded.symm.trans hraw
    | some raw =>
      dsimp only
      rw [checkSigned_true hg]
      simp only [Bool.and_eq_true, decide_eq_true_eq]
      constructor
      · rintro ⟨hsigned, hstamped, hsame, t, ht, hlow, hhigh⟩
        exact ⟨_, _, t, ⟨hgiven.1, hgiven.2, ⟨raw, hdecoded, rfl, rfl⟩, hsigned, hstamped⟩, hsame,
          ht, hlow, hhigh⟩
      · rintro ⟨stamp, signature, t, ⟨-, -, ⟨raw', hraw, rfl, rfl⟩, hsigned, hstamped⟩, hrest⟩
        obtain rfl := Option.some.inj (hdecoded.symm.trans hraw)
        exact ⟨hsigned, hstamped, hrest.1, t, hrest.2⟩

end Signed

/-! ### The checks end well -/

section Total
variable {g : Gatekeeper}

theorem ok_iff {ε α : Type} (x : Except ε α) : (∃ a, x = .ok a) ↔ ¬ ∃ e, x = .error e := by
  cases x <;> simp

def verifyDirectives (g : Gatekeeper) (ds : List (String × String))
    (user nonce response uri : String) : Except GbaError AuthorizationCheck :=
  if ds.isEmpty then .ok { ok := false, reason := "not_digest" }
  else if user = "" || nonce = "" || response = "" || uri = "" then
    .ok { ok := false, btid := user, reason := "incomplete" }
  else
    match verifyNonce g.py g.crypto nonce g.nonceSecret g.maxNonceAge g.clock with
    | .error e => .error e
    | .ok false => .ok { ok := false, btid := user, reason := "nonce_invalid" }
    | .ok true =>
      match g.bsf 0 user g.realm with
      | .error e => .error e
      | .ok none => .ok { ok := false, btid := user, reason := "btid_unknown" }
      | .ok (some keys) =>
        match compareDigest (expectedResponse g.crypto g.realm g.method ds keys) response with
        | .error e => .error e
        | .ok false => .ok { ok := false, btid := user, reason := "response_mismatch" }
        | .ok true => .ok { ok := true, btid := user, reason := "verified" }

theorem verifyDirectives_error (hg : g.Hexes) (ds : List (String × String))
    (user nonce response uri : String) :
    (∃ e, verifyDirectives g ds user nonce response uri = .error e) ↔
      (ds ≠ [] ∧ user ≠ "" ∧ nonce ≠ "" ∧ response ≠ "" ∧ uri ≠ "") ∧
        (NonceTrap g nonce ∨ NonceGood g nonce ∧ ((∃ e, g.bsf 0 user g.realm = .error e) ∨
          (∃ keys, g.bsf 0 user g.realm = .ok (some keys)) ∧ isAscii response = false)) := by
  have hexpected : ∀ keys, isAscii (expectedResponse g.crypto g.realm g.method ds keys) = true :=
    fun keys => hg.md5 _
  rw [← verifyNonce_error hg, ← verifyNonce_accepted hg]
  unfold verifyDirectives
  by_cases hempty : ds = []
  · rw [if_pos (List.isEmpty_iff.2 hempty)]
    simp [hempty]
  · rw [if_neg fun h => hempty (List.isEmpty_iff.1 h)]
    by_cases hmissing : user = "" ∨ nonce = "" ∨ response = "" ∨ uri = ""
    · rw [if_pos (by simpa only [Bool.or_eq_true, decide_eq_true_eq, or_assoc] using hmissing)]
      refine iff_of_false (by simp) ?_
      rintro ⟨⟨-, huser, hnonce, hresponse, huri⟩, -⟩
      exact hmissing.elim huser fun h => h.elim hnonce fun h => h.elim hresponse huri
    · rw [if_neg (by simpa only [Bool.or_eq_true, decide_eq_true_eq, or_assoc] using hmissing)]
      simp only [not_or] at hmissing
      rw [and_iff_right ⟨hempty, hmissing⟩]
      cases verifyNonce g.py g.crypto nonce g.nonceSecret g.maxNonceAge g.clock with
      | error e => exact iff_of_true ⟨e, rfl⟩ (.inl ⟨e, rfl⟩)
      | ok good =>
        cases good with
        | false => simp
        | true =>
          cases g.bsf 0 user g.realm with
          | error e => exact iff_of_true ⟨e, rfl⟩ (.inr ⟨rfl, .inl ⟨e, rfl⟩⟩)
          | ok found =>
            cases found with
            | none => simp
            | some keys =>
              dsimp only
              cases hascii : isAscii response with
              | false =>
                rw [compareDigest_beyond (.inr hascii)]
                exact iff_of_true ⟨_, rfl⟩ (.inr ⟨rfl, .inr ⟨⟨keys, rfl⟩, rfl⟩⟩)
              | true =>
                rw [compareDigest_ascii (hexpected keys) hascii]
                cases decide (expectedResponse g.crypto g.realm g.method ds keys = response) <;> simp

theorem verifyAuthorization_error (hg : g.Hexes) (header : String) :
    (∃ e, verifyAuthorization g.py g.lower g.crypto header g.realm g.nonceSecret g.method g.bsf
      g.clock g.maxNonceAge = .error e) ↔ Trap g (.verifyAuthorization header) := by
  have hsplit : verifyAuthorization g.py g.lower g.crypto header g.realm g.nonceSecret g.method
      g.bsf g.clock g.maxNonceAge =
      verifyDirectives g (parseAuthorization g.py g.lower header) (directive g header "username")
        (directive g header "nonce") (directive g header "response") (directive g header "uri") :=
    rfl
  rw [hsplit, verifyDirectives_error hg]
  rw [Trap]
  unfold Complete
  simp only [List.mem_cons, List.not_mem_nil, or_false, forall_eq_or_imp, forall_eq]

theorem sessionValid_error (hg : g.Hexes) (cookie : Option String) :
    (∃ e, sessionValid g cookie g.adminToken = .error e) ↔ Trap g (.sessionValid cookie) := by
  rw [sessionValid_eq, Trap]
  by_cases hgiven : orElseText cookie "" = "" ∨ g.adminToken = ""
  · rw [if_pos (by simpa using hgiven)]
    refine iff_of_false (by simp) ?_
    rintro ⟨hcookie, htoken, -⟩
    exact hgiven.elim hcookie htoken
  · rw [if_neg (by simpa using hgiven)]
    rw [not_or] at hgiven
    rw [and_iff_right hgiven.1, and_iff_right hgiven.2]
    cases g.decodeUrlsafe (orElseText cookie "") with
    | none => simp
    | some raw =>
      dsimp only
      rw [checkSigned_error hg]
      simp only [Option.some.injEq, exists_eq_left']
      exact and_left_comm

theorem compareTokens_error {formToken cookie : String} :
    (∃ e, compareDigest formToken cookie = .error e) ↔
      isAscii formToken = false ∨ isAscii cookie = false := by
  unfold compareDigest
  cases isAscii formToken <;> cases isAscii cookie <;> simp

theorem webCheckCsrf_error (formToken : String) (cookieToken : Option String) :
    (∃ e, MsisdnUi.checkCsrf formToken cookieToken = .error e) ↔
      Trap g (.webCheckCsrf formToken cookieToken) := by
  rw [Trap]
  unfold MsisdnUi.checkCsrf
  split
  · rename_i hempty
    simp [hempty]
  · rename_i cookie hcookie
    rw [compareTokens_error]
    exact (and_iff_right hcookie).symm

theorem consoleCheckCsrf_error (formToken : String) (cookieToken : Option String) :
    (∃ e, consoleCheckCsrf formToken cookieToken = .error e) ↔
      Trap g (.consoleCheckCsrf formToken cookieToken) := by
  rw [Trap]
  unfold consoleCheckCsrf
  split
  · rename_i hempty
    simp [hempty]
  · rename_i cookie hcookie
    rw [and_iff_right hcookie, ← compareTokens_error]
    cases compareDigest formToken (orElseText cookieToken "") with
    | error e => simp
    | ok same => cases same <;> simp

theorem requireAdmin_error (authorization : String) :
    (∃ e, requireAdmin g authorization = .error e) ↔ Trap g (.requireAdmin authorization) := by
  rw [Trap]
  unfold requireAdmin
  by_cases htoken : g.adminToken = ""
  · simp [htoken]
  · rw [if_neg htoken, and_iff_right htoken]
    dsimp only
    by_cases hscheme : g.lower (String.ofList (authorization.toList.takeWhile (· ≠ ' '))) = "bearer"
    · rw [if_neg (not_not_intro hscheme), and_iff_right hscheme, ← compareTokens_error]
      cases compareDigest (String.ofList ((authorization.toList.dropWhile (· ≠ ' ')).drop 1))
          g.adminToken with
      | error e => simp
      | ok same => cases same <;> simp
    · rw [if_pos hscheme]
      exact iff_of_false (by simp) fun h => hscheme h.1

theorem run_error (hg : g.Hexes) (c : Call) : (∃ e, run g c = .error e) ↔ Trap g c := by
  have hmap : ∀ {α : Type} (x : Except GbaError α) (f : α → Ending),
      (∃ e, x.map f = .error e) ↔ ∃ e, x = .error e := by
    intro α x f
    cases x <;> simp [Except.map]
  cases c with
  | verifyNonce nonce => exact (hmap _ _).trans (verifyNonce_error hg)
  | verifyAuthorization header => exact (hmap _ _).trans (verifyAuthorization_error hg header)
  | sessionValid cookie => exact (hmap _ _).trans (sessionValid_error hg cookie)
  | consoleCheckCsrf formToken cookieToken =>
    exact (hmap _ _).trans (consoleCheckCsrf_error formToken cookieToken)
  | webCheckCsrf formToken cookieToken =>
    exact (hmap _ _).trans (webCheckCsrf_error formToken cookieToken)
  | requireAdmin authorization => exact (hmap _ _).trans (requireAdmin_error authorization)

theorem own_run {c : Call} {e : Ending} (h : run g c = .ok e) : Own g c e := by
  cases c with
  | verifyNonce nonce =>
    obtain ⟨result, -, rfl⟩ := Except.map_eq_ok.mp h
    trivial
  | verifyAuthorization header =>
    obtain ⟨result, -, rfl⟩ := Except.map_eq_ok.mp h
    trivial
  | sessionValid cookie =>
    obtain ⟨result, -, rfl⟩ := Except.map_eq_ok.mp h
    trivial
  | webCheckCsrf formToken cookieToken =>
    obtain ⟨result, -, rfl⟩ := Except.map_eq_ok.mp h
    trivial
  | consoleCheckCsrf formToken cookieToken =>
    obtain ⟨response, hresponse, rfl⟩ := Except.map_eq_ok.mp h
    rintro e rfl
    unfold consoleCheckCsrf at hresponse
    split at hresponse
    · cases hresponse
      rfl
    · split at hresponse <;> cases hresponse
      rfl
  | requireAdmin authorization =>
    obtain ⟨response, hresponse, rfl⟩ := Except.map_eq_ok.mp h
    rintro e rfl
    unfold requireAdmin at hresponse
    dsimp only at hresponse
    split_ifs at hresponse with htoken hscheme
    · cases hresponse
      exact .inr ⟨htoken, rfl⟩
    · cases hresponse
      exact .inl rfl
    · split at hresponse <;> cases hresponse
      exact .inl rfl

/-- A check accepts or refuses in its own way unless its texts are a trap: text beyond ASCII where
they are compared, or a signed stamp that `int` does not read. -/
theorem endsWell_iff (hg : g.Hexes) (c : Call) : EndsWell g c ↔ ¬ Trap g c := by
  rw [← run_error hg, ← ok_iff]
  constructor
  · rintro ⟨e, he, -⟩
    exact ⟨e, he⟩
  · rintro ⟨e, he⟩
    exact ⟨e, he, own_run he⟩

end Total

namespace Lab

def crypto : GbaCrypto where
  decodeBase64 _ := none
  encodeBase64 := id
  hmacSha256 _ _ := ""
  md5 _ := ""

def gatekeeper : Gatekeeper where
  py := { asciiText with strip }
  lower s := String.ofList (s.toList.map Char.toLower)
  crypto
  decodeUrlsafe _ := none
  bsf _ _ _ := .ok none
  realm := "3GPP-bootstrapping@acs.example.com"
  nonceSecret := "gba-nonce-secret"
  adminToken := "admin-token"
  clock := ⟨1700000000, Clock.pos_start⟩

theorem hexes_gatekeeper : gatekeeper.Hexes := ⟨fun _ _ => rfl, fun _ => rfl⟩

theorem endsWell_wrong_token : EndsWell gatekeeper (.requireAdmin "Bearer guess") ↔
    ¬ Trap gatekeeper (.requireAdmin "Bearer guess") :=
  endsWell_iff hexes_gatekeeper _

theorem endsWell_beyond_ascii :
    run gatekeeper (.requireAdmin "Bearer é") = .error .typeError ∧
      ¬ EndsWell gatekeeper (.requireAdmin "Bearer é") := by
  have hrun : run gatekeeper (.requireAdmin "Bearer é") = .error .typeError := by rfl
  refine ⟨hrun, ?_⟩
  rintro ⟨e, he, -⟩
  cases hrun.symm.trans he

end Lab
end Acs.Credentials
