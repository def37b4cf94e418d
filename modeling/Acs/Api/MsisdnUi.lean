import Acs.Auth.Gba
import Acs.Auth.Otp
import Acs.Domain.Service
import Acs.Interleave.Exec

/-! The MSISDN entry flow: a user asks for a code on a web page and types it in. -/

namespace Acs.MsisdnUi
open Interleave

inductive Page
  | sessionExpired (title : String)
  | notANumber
  | enterCode (msisdn : String)
  | invalidSubmission
  | verified
  | notAccepted
deriving DecidableEq

structure Response where
  statusCode : Nat
  page : Page
deriving DecidableEq

inductive Failure
  | gba (e : GbaError)
  | store (e : StoreError)

variable (py : PyText) (settings : Settings) (sha256 : String → String) (policy : OtpPolicy)

/-- `bool(cookie_token) and hmac.compare_digest(form_token, cookie_token)` -/
def checkCsrf (formToken : String) (cookieToken : Option String) : Except GbaError Bool :=
  match orElseText cookieToken "" with
  | "" => .ok false
  | cookie => Gba.compareDigest formToken cookie

structure WebDraws where
  otp : String
  challengeId : String
  sms : SmsResult
  challengedAt : Clock

def sendCode (normalised : String) (subscriber : Subscriber) (draws : WebDraws) :
    StoreProgram (Except Failure Unit) := do
  match ← Otp.createChallenge sha256 policy normalised subscriber.imsi none none draws.challengedAt
      draws.otp draws.challengeId with
  | .error (.sendBlocked ..) => return .ok ()
  | .error (.store .otpStoreContention) => return .ok ()
  | .error (.store e) => return .error (.store e)
  | .ok (challenge, _) =>
    match draws.sms with
    | .sent => return .ok ()
    | _ =>
      -- a challenge whose code never left must not hold the resend cooldown
      let _ ← Otp.discardChallenge challenge
      return .ok ()

def msisdnSubmit (msisdn csrf : String) (cookie : Option String) (draws : WebDraws) :
    StoreProgram (Except Failure Response) :=
  match checkCsrf csrf cookie with
  | .error e => return .error (.gba e)
  | .ok false => return .ok ⟨400, .sessionExpired "Activate messaging"⟩
  | .ok true =>
    match normaliseMsisdn py settings msisdn with
    | none => return .ok ⟨400, .notANumber⟩
    | some normalised => do
      match ← Store.getSubscriberByMsisdn normalised with
      | none => return .ok ⟨200, .enterCode normalised⟩
      | some subscriber =>
        match ← sendCode sha256 policy normalised subscriber draws with
        | .error e => return .error e
        | .ok () => return .ok ⟨200, .enterCode normalised⟩

/-- `isAlnum` is `str.isalnum`. -/
def msisdnVerify (isAlnum : String → Bool) (msisdn otp csrf : String) (cookie : Option String)
    (clock : Clock) : StoreProgram (Except Failure Response) :=
  match checkCsrf csrf cookie with
  | .error e => return .error (.gba e)
  | .ok false => return .ok ⟨400, .sessionExpired "Enter your code"⟩
  | .ok true =>
    match normaliseMsisdn py settings msisdn with
    | none => return .ok ⟨400, .invalidSubmission⟩
    | some normalised =>
      if !isAlnum otp then return .ok ⟨400, .invalidSubmission⟩
      else do
        match ← Otp.verifyChallenge sha256 policy normalised otp none clock with
        | .verified => return .ok ⟨200, .verified⟩
        | _ => return .ok ⟨400, .notAccepted⟩

def submitted (msisdn csrf : String) (cookie : Option String) : Except Failure Response :=
  match checkCsrf csrf cookie with
  | .error e => .error (.gba e)
  | .ok false => .ok ⟨400, .sessionExpired "Activate messaging"⟩
  | .ok true =>
    match normaliseMsisdn py settings msisdn with
    | none => .ok ⟨400, .notANumber⟩
    | some normalised => .ok ⟨200, .enterCode normalised⟩

def notVerified (isAlnum : String → Bool) (msisdn otp csrf : String) (cookie : Option String) :
    Except Failure Response :=
  match checkCsrf csrf cookie with
  | .error e => .error (.gba e)
  | .ok false => .ok ⟨400, .sessionExpired "Enter your code"⟩
  | .ok true =>
    match normaliseMsisdn py settings msisdn with
    | none => .ok ⟨400, .invalidSubmission⟩
    | some _ => if !isAlnum otp then .ok ⟨400, .invalidSubmission⟩ else .ok ⟨400, .notAccepted⟩

/-- A store with whatever records, and among whatever other requests, that raises only
`OtpStoreContention`. -/
def OnlyContention {σ : Type} (R : Effect StoreOp StoreOp.Answer σ) : Prop :=
  ∀ challenge cooldown cap now clock s e s',
    R (.issueOtp challenge cooldown cap now clock) s (.error e) s' → e = .otpStoreContention

section Pages
variable {py settings sha256 policy} {σ : Type} {R : Effect StoreOp StoreOp.Answer σ} {s s' : σ}
  {tr : List (Event StoreOp.Answer)} {msisdn otp csrf : String} {cookie : Option String}
  {r : Except Failure Response}

theorem exec_sendCode (hR : OnlyContention R) {subscriber : Subscriber} {draws : WebDraws}
    {r : Except Failure Unit} (h : Exec R (sendCode sha256 policy msisdn subscriber draws) s tr r s') :
    r = .ok () := by
  unfold sendCode Otp.createChallenge Store.issueOtp at h
  rw [Program.perform_bind, Program.call_bind] at h
  obtain ⟨ans, s₁, tr₁, hissue, hrest, -⟩ := Exec.call_iff.mp h
  match ans with
  | .error e =>
    obtain rfl := hR _ _ _ _ _ _ _ _ hissue
    exact (Exec.result_iff.mp hrest).2.1
  | .ok (some refused) => exact (Exec.result_iff.mp hrest).2.1
  | .ok none =>
    simp only [Program.pure_eq, Program.result_bind] at hrest
    cases hsms : draws.sms with
    | sent =>
      rw [hsms] at hrest
      exact (Exec.result_iff.mp hrest).2.1
    | deliveryFailed | unsupportedDelivery =>
      -- the challenge is discarded first
      rw [hsms] at hrest
      obtain ⟨discarded, s₂, tr₂, tr₃, -, hend, -⟩ := Exec.bind_iff.mp hrest
      exact (Exec.result_iff.mp hend).2.1

theorem exec_msisdnSubmit (hR : OnlyContention R) {draws : WebDraws}
    (h : Exec R (msisdnSubmit py settings sha256 policy msisdn csrf cookie draws) s tr r s') :
    r = submitted py settings msisdn csrf cookie := by
  unfold msisdnSubmit at h
  unfold submitted
  cases hcsrf : checkCsrf csrf cookie with
  | error e =>
    rw [hcsrf] at h
    exact (Exec.result_iff.mp h).2.1
  | ok valid =>
    rw [hcsrf] at h
    cases valid with
    | false => exact (Exec.result_iff.mp h).2.1
    | true =>
      cases hnumber : normaliseMsisdn py settings msisdn with
      | none =>
        rw [hnumber] at h
        exact (Exec.result_iff.mp h).2.1
      | some normalised =>
        rw [hnumber] at h
        obtain ⟨found, s₁, tr₁, tr₂, -, hrest, -⟩ := Exec.bind_iff.mp h
        cases found with
        | none => exact (Exec.result_iff.mp hrest).2.1
        | some subscriber =>
          obtain ⟨sent, s₂, tr₃, tr₄, hsend, hend, -⟩ := Exec.bind_iff.mp hrest
          rw [exec_sendCode hR hsend] at hend
          exact (Exec.result_iff.mp hend).2.1

theorem exec_msisdnVerify {isAlnum : String → Bool} {clock : Clock}
    (h : Exec R (msisdnVerify py settings sha256 policy isAlnum msisdn otp csrf cookie clock)
      s tr r s') :
    r = .ok ⟨200, .verified⟩ ∨ r = notVerified py settings isAlnum msisdn otp csrf cookie := by
  unfold msisdnVerify at h
  unfold notVerified
  cases hcsrf : checkCsrf csrf cookie with
  | error e =>
    rw [hcsrf] at h
    exact Or.inr (Exec.result_iff.mp h).2.1
  | ok valid =>
    rw [hcsrf] at h
    cases valid with
    | false => exact Or.inr (Exec.result_iff.mp h).2.1
    | true =>
      cases hnumber : normaliseMsisdn py settings msisdn with
      | none =>
        rw [hnumber] at h
        exact Or.inr (Exec.result_iff.mp h).2.1
      | some normalised =>
        rw [hnumber] at h
        dsimp only at h ⊢
        split_ifs at h ⊢
        · exact Or.inr (Exec.result_iff.mp h).2.1
        · obtain ⟨outcome, s₁, tr₁, tr₂, -, hend, -⟩ := Exec.bind_iff.mp h
          cases outcome with
          | verified => exact Or.inl (Exec.result_iff.mp hend).2.1
          | _ => exact Or.inr (Exec.result_iff.mp hend).2.1

/-- Two submissions of one number are answered alike, whatever the stores hold, whatever other
requests do and whatever becomes of the messages; and so are two codes that are not verified. -/
theorem pages_alike {σ' : Type} {R' : Effect StoreOp StoreOp.Answer σ'} (hR : OnlyContention R)
    (hR' : OnlyContention R') (py : PyText) (settings : Settings) (sha256 : String → String)
    (policy : OtpPolicy) (isAlnum : String → Bool) (msisdn otp csrf : String)
    (cookie : Option String) :
    (∀ draws draws' s tr r s₁ t tr' r' t₁,
      Exec R (msisdnSubmit py settings sha256 policy msisdn csrf cookie draws) s tr r s₁ →
      Exec R' (msisdnSubmit py settings sha256 policy msisdn csrf cookie draws') t tr' r' t₁ →
        r = r') ∧
      ∀ clock clock' s tr r s₁ t tr' r' t₁,
        Exec R (msisdnVerify py settings sha256 policy isAlnum msisdn otp csrf cookie clock)
          s tr r s₁ →
        Exec R' (msisdnVerify py settings sha256 policy isAlnum msisdn otp csrf cookie clock')
          t tr' r' t₁ →
        r ≠ .ok ⟨200, .verified⟩ → r' ≠ .ok ⟨200, .verified⟩ → r = r' := by
  constructor
  · intro draws draws' s tr r s₁ t tr' r' t₁ h h'
    rw [exec_msisdnSubmit hR h, exec_msisdnSubmit hR' h']
  · intro clock clock' s tr r s₁ t tr' r' t₁ h h' hne hne'
    have hpage := (exec_msisdnVerify h).resolve_left hne
    have hpage' := (exec_msisdnVerify h').resolve_left hne'
    rw [hpage, hpage']

end Pages

theorem onlyContention_of_step {σ : Type} {step : (op : StoreOp) → σ → op.Answer × σ}
    (hstep : ∀ challenge cooldown cap now clock s e,
      (step (.issueOtp challenge cooldown cap now clock) s).1 = .error e → e = .otpStoreContention) :
    OnlyContention fun op s ans s' => step op s = (ans, s') :=
  fun challenge cooldown cap now clock s e _ h =>
    hstep challenge cooldown cap now clock s e (congrArg Prod.fst h)

/-- The memory store, while other requests keep it from issuing a challenge. -/
def contended (op : StoreOp) (m : MemoryStore) : op.Answer × MemoryStore :=
  match op with
  | .issueOtp .. => (.error .otpStoreContention, m)
  | op => MemoryStore.exec op m

/-- Neither shows which one it is. -/
theorem pages_alike_of_unknown_and_contended :
    let subscriber : Subscriber :=
      { imsi := "450051234567890", msisdn := "+821012345678", createdAt := 1700000000
        updatedAt := 1700000000 }
    let submit (step : (op : StoreOp) → MemoryStore → op.Answer × MemoryStore) (m : MemoryStore) :=
      ((msisdnSubmit asciiText {} id {} "+821012345678" "c1" (some "c1")
        ⟨"381204", "i1", .sent, ⟨1700000100, by decide⟩⟩).eval step m).1
    submit MemoryStore.exec {} = submit contended (({} : MemoryStore).putSubscriber subscriber) := by
  intro subscriber submit
  have hmemory : OnlyContention fun op m ans m' => MemoryStore.exec op m = (ans, m') :=
    onlyContention_of_step fun _ _ _ _ _ _ _ h => nomatch h
  have hcontended : OnlyContention fun op m ans m' => contended op m = (ans, m') :=
    onlyContention_of_step fun _ _ _ _ _ _ _ h => (Except.error.inj h).symm
  obtain ⟨tr, h⟩ := Exec.of_eval id (R := fun op m ans m' => MemoryStore.exec op m = (ans, m'))
    (fun _ _ => rfl) (msisdnSubmit asciiText {} id {} "+821012345678" "c1" (some "c1")
        ⟨"381204", "i1", .sent, ⟨1700000100, by decide⟩⟩) {}
  obtain ⟨tr', h'⟩ := Exec.of_eval id (R := fun op m ans m' => contended op m = (ans, m'))
    (fun _ _ => rfl) (msisdnSubmit asciiText {} id {} "+821012345678" "c1" (some "c1")
        ⟨"381204", "i1", .sent, ⟨1700000100, by decide⟩⟩)
      (({} : MemoryStore).putSubscriber subscriber)
  exact (pages_alike hmemory hcontended asciiText {} id {} (fun _ => true) "+821012345678" "381204"
    "c1" (some "c1")).1 _ _ _ _ _ _ _ _ _ _ h h'

end Acs.MsisdnUi
