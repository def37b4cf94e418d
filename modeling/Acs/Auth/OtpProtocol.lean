import Acs.Auth.Otp

/-! What one OTP call may do to the store, given what it has seen of it so far. -/

namespace Acs.Otp
open Interleave

inductive Call
  | verify (otp : String) (now : Option Int) (clock : Clock)
  | create (imsi : String) (smsPort now : Option Int) (clock : Clock) (otp challengeId : String)
  | discard (challenge : OtpChallenge)

inductive Result
  | outcome (o : OtpOutcome)
  | created (r : Except CreateError (OtpChallenge × String))
  | discarded (b : Bool)

abbrev StoreEvent := Event StoreOp.Answer

variable (sha256 : String → String) (policy : OtpPolicy) (msisdn : String)

namespace Call

def program : Call → StoreProgram Result
  | verify otp now clock => do
    return .outcome (← verifyChallenge sha256 policy msisdn otp now clock)
  | create imsi smsPort now clock otp challengeId => do
    return .created (← createChallenge sha256 policy msisdn imsi smsPort now clock otp challengeId)
  | discard challenge => do
    return .discarded (← discardChallenge { challenge with msisdn })

def issues : Call → Option OtpChallenge
  | create imsi smsPort now clock otp challengeId =>
    some (newChallenge sha256 policy msisdn imsi smsPort (clock.orNow now) otp challengeId)
  | _ => none

def judges : Call → OtpChallenge → Bool
  | verify _ now clock, e =>
    !e.consumed && !e.expired (some (clock.orNow now)) clock && e.attempts < policy.maxAttempts
  | _, _ => false

def guesses : Call → OtpChallenge → Bool
  | verify otp _ _, e => e.otpHash = hashOtp sha256 msisdn otp
  | _, _ => false

def replacement (call : Call) (e : OtpChallenge) : Option OtpChallenge :=
  match call with
  | verify otp _ _ => if call.judges policy e then (judge sha256 policy msisdn otp e).2 else none
  | _ => none

def lost (call : Call) : StoreEvent → Bool
  | ⟨.replaceOtp e _, swapped⟩ => !swapped && call.judges policy e
  | _ => false

/-- The operations of a call: `create` issues first and only once, the others replace only a
challenge they have read, and `verify` stops when it has lost all its rounds. -/
def guard (call : Call) (h : List StoreEvent) (op : StoreOp) : Prop :=
  h.countP (call.lost policy) < verifyRounds ∧
    match op with
    | .getOtp m => m = msisdn
    | .issueOtp challenge cooldown cap now _ =>
      h = [] ∧ call.issues sha256 policy msisdn = some challenge ∧ now = challenge.createdAt ∧
        cooldown = policy.resendCooldownSeconds ∧ cap = policy.maxSendsPerDay
    | .replaceOtp e r =>
      ⟨.getOtp msisdn, some e⟩ ∈ h ∧ call.issues sha256 policy msisdn = none ∧
        r = call.replacement sha256 policy msisdn e
    | _ => False

def EndedOn (h : List StoreEvent) (e : OtpChallenge) (r : Option OtpChallenge) (swapped : Bool) :
    Prop :=
  h.getLast? = some ⟨.replaceOtp e r, swapped⟩

structure Post (call : Call) (h : List StoreEvent) (result : Result) : Prop where
  lost_all : h.countP (call.lost policy) = verifyRounds → result = .outcome .mismatch
  verified : result = .outcome .verified →
    ∃ e, EndedOn h e none true ∧ call.judges policy e ∧ call.guesses sha256 msisdn e
  exhausted : result = .outcome .exhausted →
    ∃ e r swapped, EndedOn h e r swapped ∧ (swapped → r = none) ∧
      (swapped = false → policy.maxAttempts ≤ e.attempts)

end Call

variable {sha256 policy msisdn}

variable (sha256 policy msisdn) in
theorem judge_cases (otp : String) (e : OtpChallenge) :
    (e.otpHash = hashOtp sha256 msisdn otp ∧
        judge sha256 policy msisdn otp e = (.verified, none)) ∨
      (policy.maxAttempts ≤ e.attempts + 1 ∧
        judge sha256 policy msisdn otp e = (.exhausted, none)) ∨
      (e.attempts + 1 < policy.maxAttempts ∧
        judge sha256 policy msisdn otp e =
          (.mismatch, some { e with attempts := e.attempts + 1 })) := by
  unfold judge
  dsimp only
  split_ifs with hhash hattempts
  · exact Or.inl ⟨hhash, rfl⟩
  · exact Or.inr (Or.inl ⟨hattempts, rfl⟩)
  · exact Or.inr (Or.inr ⟨Int.not_le.mp hattempts, rfl⟩)

namespace Call

@[simp] theorem lost_getOtp (call : Call) (m : String) (o : Option OtpChallenge) :
    call.lost policy (⟨.getOtp m, o⟩ : StoreEvent) = false := rfl

@[simp] theorem lost_replaceOtp (call : Call) (e : OtpChallenge) (r : Option OtpChallenge)
    (swapped : Bool) :
    call.lost policy (⟨.replaceOtp e r, swapped⟩ : StoreEvent) =
      (!swapped && call.judges policy e) := rfl

theorem replacement_of_not_judges {call : Call} {e : OtpChallenge}
    (h : call.judges policy e = false) : call.replacement sha256 policy msisdn e = none := by
  cases call with
  | verify otp now clock => simp only [replacement, h, Bool.false_eq_true, if_false]
  | create => rfl
  | discard => rfl

variable (sha256 policy msisdn) in
theorem replacement_cases (call : Call) (e : OtpChallenge) :
    call.replacement sha256 policy msisdn e = none ∨
      call.judges policy e ∧ e.attempts + 1 < policy.maxAttempts ∧
        call.replacement sha256 policy msisdn e = some { e with attempts := e.attempts + 1 } := by
  cases hj : call.judges policy e with
  | false => exact Or.inl (replacement_of_not_judges hj)
  | true =>
    cases call with
    | verify otp now clock =>
      simp only [replacement, hj, if_true]
      rcases judge_cases sha256 policy msisdn otp e with
        ⟨-, h⟩ | ⟨-, h⟩ | ⟨hlt, h⟩ <;> simp [h]
      exact hlt
    | create => cases hj
    | discard => cases hj

end Call

theorem verifyFrom_obeys (otp : String) (now : Option Int) (clock : Clock) {rounds : Nat}
    {h : List StoreEvent}
    (hrounds : h.countP ((Call.verify otp now clock).lost policy) + rounds = verifyRounds) :
    (verifyFrom sha256 policy msisdn otp (clock.orNow now) clock rounds).Obeys
      ((Call.verify otp now clock).guard sha256 policy msisdn)
      (fun h o => (Call.verify otp now clock).Post sha256 policy msisdn h (.outcome o)) h := by
  generalize hcall : Call.verify otp now clock = call at hrounds ⊢
  induction rounds generalizing h with
  | zero => exact ⟨fun _ => rfl, nofun, nofun⟩
  | succ rounds ih =>
    refine ⟨⟨by omega, rfl⟩, fun ans => ?_⟩
    cases ans with
    | none => exact ⟨fun hlost => by simp at hlost; omega, nofun, nofun⟩
    | some e =>
      have hguard : ∀ r, r = call.replacement sha256 policy msisdn e →
          call.guard sha256 policy msisdn (h ++ [⟨.getOtp msisdn, some e⟩]) (.replaceOtp e r) := by
        intro r hr
        exact ⟨by simp; omega, by simp, by rw [← hcall]; rfl, hr⟩
      dsimp only [Program.bind]
      -- the challenge is consumed, expired, out of attempts, or to be judged
      split_ifs with hconsumed hexpired hattempts
      · exact ⟨fun hlost => by simp at hlost; omega, nofun, nofun⟩
      · have hj : call.judges policy e = false := by simp [← hcall, Call.judges, hexpired]
        refine ⟨hguard _ (Call.replacement_of_not_judges hj).symm, fun swapped => ?_⟩
        exact ⟨fun hlost => by simp [hj] at hlost; omega, nofun, nofun⟩
      · have hj : call.judges policy e = false := by
          simp [← hcall, Call.judges, hattempts]
        refine ⟨hguard _ (Call.replacement_of_not_judges hj).symm, fun swapped => ?_⟩
        exact ⟨fun hlost => by simp [hj] at hlost; omega, nofun,
          fun _ => ⟨e, none, swapped, by simp [Call.EndedOn], fun _ => rfl, fun _ => hattempts⟩⟩
      · have hj : call.judges policy e = true := by
          simp [← hcall, Call.judges, hconsumed, hexpired, Int.not_le.mp hattempts]
        have hr : (judge sha256 policy msisdn otp e).2 = call.replacement sha256 policy msisdn e := by
          rw [← hcall] at hj ⊢
          simp only [Call.replacement, hj, if_true]
        refine ⟨hguard _ hr, fun swapped => ?_⟩
        cases swapped with
        | false => exact ih (by simp [hj]; omega)
        | true =>
          rcases judge_cases sha256 policy msisdn otp e with
            ⟨hhash, hjudge⟩ | ⟨-, hjudge⟩ | ⟨-, hjudge⟩ <;> rw [hjudge]
          · refine ⟨fun hlost => by simp at hlost; omega, fun _ => ⟨e, ?_, hj, ?_⟩, nofun⟩
            · simp [Call.EndedOn]
            · simpa [← hcall, Call.guesses] using hhash
          · exact ⟨fun hlost => by simp at hlost; omega, nofun,
              fun _ => ⟨e, none, true, by simp [Call.EndedOn], fun _ => rfl, nofun⟩⟩
          · exact ⟨fun _ => rfl, nofun, nofun⟩

theorem countP_lost_of_not_judges {call : Call} (hj : ∀ e, call.judges policy e = false)
    (h : List StoreEvent) : h.countP (call.lost policy) = 0 := by
  refine List.countP_eq_zero.mpr fun e _ => ?_
  unfold Call.lost
  split
  · simp [hj]
  · simp

theorem discardFrom_obeys (challenge : OtpChallenge) {rounds : Nat} {h : List StoreEvent} :
    (discardFrom { challenge with msisdn } rounds).Obeys
      ((Call.discard challenge).guard sha256 policy msisdn)
      (fun h b => (Call.discard challenge).Post sha256 policy msisdn h (.discarded b)) h := by
  have hlost : ∀ h : List StoreEvent, h.countP ((Call.discard challenge).lost policy) = 0 :=
    countP_lost_of_not_judges fun _ => rfl
  have hlt : ∀ h : List StoreEvent, h.countP ((Call.discard challenge).lost policy) < verifyRounds :=
    fun h => by rw [hlost, verifyRounds]; omega
  have hpost : ∀ h b, (Call.discard challenge).Post sha256 policy msisdn h (.discarded b) :=
    fun h b => ⟨fun hall => absurd hall (Nat.ne_of_lt (hlt h)), nofun, nofun⟩
  induction rounds generalizing h with
  | zero => exact hpost _ _
  | succ rounds ih =>
    refine ⟨⟨hlt _, rfl⟩, fun ans => ?_⟩
    cases ans with
    | none => exact hpost _ _
    | some e =>
      dsimp only [Program.bind]
      split_ifs
      · refine ⟨⟨hlt _, by simp, rfl, rfl⟩, fun swapped => ?_⟩
        cases swapped with
        | false => exact ih
        | true => exact hpost _ _
      · exact hpost _ _

theorem createChallenge_obeys (imsi : String) (smsPort now : Option Int) (clock : Clock)
    (otp challengeId : String) :
    (createChallenge sha256 policy msisdn imsi smsPort now clock otp challengeId).Obeys
      ((Call.create imsi smsPort now clock otp challengeId).guard sha256 policy msisdn)
      (fun h r => (Call.create imsi smsPort now clock otp challengeId).Post sha256 policy msisdn h
        (.created r)) [] := by
  refine ⟨⟨by simp [verifyRounds], rfl, rfl, rfl, rfl, rfl⟩, fun ans => ?_⟩
  have hpost : ∀ h r, (Call.create imsi smsPort now clock otp challengeId).Post sha256 policy msisdn h
      (.created r) := by
    intro h r
    refine ⟨fun hall => ?_, nofun, nofun⟩
    rw [countP_lost_of_not_judges fun _ => rfl] at hall
    cases hall
  match ans with
  | .error e => exact hpost _ _
  | .ok (some refused) => exact hpost _ _
  | .ok none => exact hpost _ _

variable (sha256 policy msisdn) in
theorem program_obeys (call : Call) :
    (call.program sha256 policy msisdn).Obeys (call.guard sha256 policy msisdn)
      (call.Post sha256 policy msisdn) [] := by
  cases call with
  | verify otp now clock => exact (verifyFrom_obeys otp now clock rfl).bind
  | create imsi smsPort now clock otp challengeId => exact (createChallenge_obeys ..).bind
  | discard challenge => exact (discardFrom_obeys challenge).bind

end Acs.Otp
