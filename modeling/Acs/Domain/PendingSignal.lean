import Mathlib
import Acs.Domain.OnDynamo
import Acs.Auth.OtpDiscard

/-! The pending signal of `_issue_otp`: on whose SMS a request that is answered 200 with an empty
body waits, when any number of bootstrap requests for one MSISDN run at once. -/

namespace Acs.PendingSignal
open Interleave Function ProvisioningService

abbrev Answered := Except ServiceError ProvisioningOutcome

/-- A request that resolved to a challenge for the number of its subscriber. -/
structure Bootstrap where
  subscriber : Subscriber
  query : ConfigQuery
  draws : Draws

namespace Bootstrap
variable (service : ProvisioningService) (r : Bootstrap)

def program : StoreProgram Answered :=
  service.issueOtp r.subscriber r.subscriber.msisdn r.query r.draws

def smsPort : Option Int := if r.query.smsPort = some 0 then none else r.query.smsPort

def issuedAt : Int := r.draws.challengedAt.orNow none

def challenge : OtpChallenge :=
  Otp.newChallenge service.sha256 service.policy r.subscriber.msisdn r.subscriber.imsi r.smsPort
    r.issuedAt r.draws.otp r.draws.challengeId

def Delivers : Prop := r.draws.sms = .sent

def afterIssue : Except StoreError (Option OtpIssueRefused) → StoreProgram Answered
  | .ok (some ⟨.cooldown, _⟩) => .result (.ok (service.pending "OtpPendingReuse" "cooldown"))
  | .ok (some ⟨.dailyQuota, retryAfter⟩) =>
    .result (.ok (retryLater 429 retryAfter "OtpRateLimited" "daily_quota"))
  | .error .otpStoreContention =>
    .result (.ok (retryLater 503 5 "OtpStoreContention" "otp_store_contention"))
  | .error e => .result (.error (.store e))
  | .ok none =>
    match r.draws.sms with
    | .sent => .result (.ok (service.pending "OtpSent" "otp_sent"))
    | .deliveryFailed => Otp.discardChallenge (r.challenge service) >>= fun _ =>
      .result (.ok (retryLater 503 60 "OtpDeliveryFailed" "otp_delivery_failed"))
    | .unsupportedDelivery => Otp.discardChallenge (r.challenge service) >>= fun _ =>
      .result (.ok (retryLater 503 3600 "OtpDeliveryUnsupported" "port_addressed_sms_unsupported"))

theorem program_eq : r.program service =
    .call (.issueOtp (r.challenge service) service.policy.resendCooldownSeconds
      service.policy.maxSendsPerDay r.issuedAt r.draws.challengedAt) (r.afterIssue service) := by
  have hmsisdn : (if r.subscriber.msisdn = "" then r.subscriber.msisdn else r.subscriber.msisdn) =
      r.subscriber.msisdn := ite_self _
  rw [program, issueOtp, hmsisdn]
  refine congrArg (Program.call (StoreOp.issueOtp ..)) (funext fun answer => ?_)
  match answer with
  | .ok (some ⟨.cooldown, _⟩) => rfl
  | .ok (some ⟨.dailyQuota, _⟩) => rfl
  | .error .otpStoreContention => rfl
  | .error .clientError => rfl
  | .error .typeError => rfl
  | .error .inexactNumber => rfl
  | .ok none => rfl

end Bootstrap

def Pending : Answered → Prop
  | .ok outcome => outcome.statusCode = 200 ∧ outcome.body = none
  | .error _ => False

theorem not_pending_retryLater {statusCode : Nat} (hcode : statusCode ≠ 200) (retryAfter : Int)
    (metric detail : String) : ¬ Pending (.ok (retryLater statusCode retryAfter metric detail)) :=
  fun h => hcode h.1

variable {ι : Type} [DecidableEq ι] (service : ProvisioningService) (msisdn : String)
  (requests : ι → Bootstrap)

/-- The requests are for one number, and the ids they draw differ. -/
structure OneNumber : Prop where
  number : ∀ i, (requests i).subscriber.msisdn = msisdn
  ids : ∀ i j, (requests i).draws.challengeId = (requests j).draws.challengeId → i = j
  named : ∀ i, (requests i).draws.challengeId ≠ ""

def runOf (m₀ : MemoryStore) (schedule : List ι) :
    Config ι StoreOp StoreOp.Answer MemoryStore Answered :=
  (start m₀ fun i => (requests i).program service).run MemoryStore.exec schedule

/-- The `issue_otp` of the request stored its challenge `a`, or met the challenge `a` in its
cooldown. -/
def ReliesOn (m₀ : MemoryStore) (tr : List (ι × Otp.StoreEvent)) (i : ι) (a : OtpChallenge) :
    Prop :=
  ∃ pre challenge cooldown cap now clock answer post,
    tr = pre ++ (i, ⟨.issueOtp challenge cooldown cap now clock, answer⟩) :: post ∧
      (answer = .ok none ∧ a = challenge ∨
        (∃ retryAfter, answer = .ok (some ⟨.cooldown, retryAfter⟩)) ∧
          (replay MemoryStore.exec m₀ pre).otp challenge.msisdn = some a)

def Undelivered (tr : List (ι × Otp.StoreEvent)) (a : OtpChallenge) : Prop :=
  ∃ j e, (requests j).draws.challengeId = a.challengeId ∧ ¬ (requests j).Delivers ∧
    e.challengeId = a.challengeId ∧ (j, (⟨.replaceOtp e none, true⟩ : Otp.StoreEvent)) ∈ tr

def Truthful (m₀ : MemoryStore) (c : Config ι StoreOp StoreOp.Answer MemoryStore Answered) : Prop :=
  ∀ i answered a, c.threads i = .result answered → Pending answered →
    ReliesOn m₀ c.trace i a → ¬ Undelivered requests c.trace a

/-- A request that comes while the challenge of another holds the resend cooldown. -/
def WithinCooldown (r other : Bootstrap) : Prop :=
  r.issuedAt - other.issuedAt < service.policy.resendCooldownSeconds ∧
    r.issuedAt < other.issuedAt + service.policy.ttlSeconds

namespace Bootstrap

def guard (r : Bootstrap) (h : List Otp.StoreEvent) : StoreOp → Prop
  | .issueOtp challenge cooldown cap now clock =>
    h = [] ∧ challenge = r.challenge service ∧ cooldown = service.policy.resendCooldownSeconds ∧
      cap = service.policy.maxSendsPerDay ∧ now = r.issuedAt ∧ clock = r.draws.challengedAt
  | .getOtp _ => True
  | .replaceOtp _ replacement => replacement = none
  | _ => False

def Post (r : Bootstrap) (h : List Otp.StoreEvent) (answered : Answered) : Prop :=
  Pending answered → ∀ challenge cooldown cap now clock,
    (⟨.issueOtp challenge cooldown cap now clock, .ok none⟩ : Otp.StoreEvent) ∈ h → r.Delivers

variable {service}

theorem guard_of_discard (r : Bootstrap) (challenge : OtpChallenge) (answered : Answered)
    (hpending : ¬ Pending answered) (rounds : Nat) (h : List Otp.StoreEvent) :
    (Otp.discardFrom challenge rounds >>= fun _ => .result answered).Obeys (r.guard service)
      r.Post h := by
  induction rounds generalizing h with
  | zero => exact fun hp => absurd hp hpending
  | succ rounds ih =>
    rw [Otp.discardFrom_succ_bind]
    refine ⟨trivial, fun stored => ?_⟩
    cases stored with
    | none => exact fun hp => absurd hp hpending
    | some current =>
      dsimp only
      split_ifs
      · refine ⟨rfl, fun swapped => ?_⟩
        cases swapped with
        | true => exact fun hp => absurd hp hpending
        | false => exact ih _
      · exact fun hp => absurd hp hpending

theorem program_obeys (r : Bootstrap) :
    (r.program service).Obeys (r.guard service) r.Post [] := by
  rw [program_eq]
  refine ⟨⟨rfl, rfl, rfl, rfl, rfl, rfl⟩, fun answer => ?_⟩
  match answer with
  | .ok (some ⟨.cooldown, _⟩) =>
    rintro - challenge cooldown cap now clock hmem
    cases List.mem_singleton.mp hmem
  | .ok (some ⟨.dailyQuota, _⟩) =>
    exact fun hp => absurd hp (not_pending_retryLater (by decide) _ _ _)
  | .error .otpStoreContention =>
    exact fun hp => absurd hp (not_pending_retryLater (by decide) _ _ _)
  | .error .clientError => exact fun hp => hp.elim
  | .error .typeError => exact fun hp => hp.elim
  | .error .inexactNumber => exact fun hp => hp.elim
  | .ok none =>
    rw [afterIssue]
    cases hsms : r.draws.sms with
    | sent => exact fun _ _ _ _ _ _ _ => hsms
    | deliveryFailed =>
      exact guard_of_discard r _ _ (not_pending_retryLater (by decide) _ _ _) _ _
    | unsupportedDelivery =>
      exact guard_of_discard r _ _ (not_pending_retryLater (by decide) _ _ _) _ _

end Bootstrap

variable {service msisdn requests} {m₀ m : MemoryStore} {tr : List (ι × Otp.StoreEvent)}

abbrev RequestHistory (service : ProvisioningService) (requests : ι → Bootstrap)
    (m₀ : MemoryStore) (tr : List (ι × Otp.StoreEvent)) (m : MemoryStore) : Prop :=
  History MemoryStore.exec (fun i => (requests i).guard service) m₀ tr m

def Attributed (service : ProvisioningService) (requests : ι → Bootstrap)
    (tr : List (ι × Otp.StoreEvent)) (stored : Option OtpChallenge) : Prop :=
  ∀ c ∈ stored, ∀ j, (requests j).draws.challengeId = c.challengeId →
    c = (requests j).challenge service ∧ Otp.Issued c j tr

theorem attributed_of_history (hone : OneNumber msisdn requests)
    (hfirst : ∀ c, m₀.otp msisdn = some c →
      ∀ j, (requests j).draws.challengeId ≠ c.challengeId)
    (h : RequestHistory service requests m₀ tr m) :
    Attributed service requests tr (m.otp msisdn) := by
  refine h.invariant (P := fun tr m => Attributed service requests tr (m.otp msisdn)) ?_ ?_
  · exact fun c hc j hid => absurd hid (hfirst c hc j)
  · intro tr s i op _ hg hs
    have hkept : ∀ ev, Attributed service requests (tr ++ [(i, ev)]) (s.otp msisdn) :=
      fun ev c hc j hid => (hs c hc j hid).imp_right Otp.Issued.snoc
    cases op with
    | getOtp n => exact hkept _
    | issueOtp challenge cooldown cap now clock =>
      obtain ⟨-, rfl, -⟩ := hg
      rcases Otp.exec_issueOtp ((requests i).challenge service) cooldown cap now clock s with
        ⟨sends, hexec⟩ | ⟨why, hexec⟩ <;> rw [hexec]
      · intro c hc j hid
        have hkey : ((requests i).challenge service).msisdn = msisdn := hone.number i
        simp only [hkey, update_self] at hc
        obtain rfl := Option.some.inj hc
        obtain rfl := hone.ids j i hid
        exact ⟨rfl, _, _, _, _, List.mem_append_right _ (List.mem_singleton.mpr rfl)⟩
      · exact hkept _
    | replaceOtp e r =>
      obtain rfl : r = none := hg
      rcases Otp.exec_replaceOtp e none s with ⟨c, -, -, hexec⟩ | hexec <;> rw [hexec]
      · intro c hc
        by_cases hn : msisdn = e.msisdn
        · simp only [hn, update_self] at hc
          cases hc
        · simp only [update_of_ne hn] at hc
          exact hkept _ c hc
      · exact hkept _
    | _ => exact hg.elim

theorem exec_issueOtp_refusal {challenge : OtpChallenge} {cooldown cap now : Int} {clock : Clock}
    {why : OtpIssueRefused}
    (h : (MemoryStore.exec (.issueOtp challenge cooldown cap now clock) m).1 = .ok (some why)) :
    MemoryStore.issueRefusal (m.otp challenge.msisdn)
      (MemoryStore.recentSends (m.otpSends challenge.msisdn) now) cooldown cap now clock =
        some why := by
  simp only [MemoryStore.exec, MemoryStore.issueOtp] at h
  split at h
  next hrefused => rw [hrefused]; exact Except.ok.inj h
  next => cases h

theorem exec_issueOtp_accepted {challenge : OtpChallenge} {cooldown cap now : Int} {clock : Clock}
    (h : (MemoryStore.exec (.issueOtp challenge cooldown cap now clock) m).1 = .ok none) :
    MemoryStore.issueRefusal (m.otp challenge.msisdn)
      (MemoryStore.recentSends (m.otpSends challenge.msisdn) now) cooldown cap now clock =
        none := by
  simp only [MemoryStore.exec, MemoryStore.issueOtp] at h
  split at h
  next hrefused => cases h
  next hrefused => exact hrefused

theorem meets_of_reliesOn (hone : OneNumber msisdn requests)
    (hfirst : ∀ c, m₀.otp msisdn = some c →
      ∀ j, (requests j).draws.challengeId ≠ c.challengeId)
    (h : RequestHistory service requests m₀ tr m) {i j : ι} {a : OtpChallenge}
    (hrelies : ReliesOn m₀ tr i a) (hid : (requests j).draws.challengeId = a.challengeId) :
    (i = j ∧ ∃ challenge cooldown cap now clock,
        (i, (⟨.issueOtp challenge cooldown cap now clock, .ok none⟩ : Otp.StoreEvent)) ∈ tr) ∨
      i ≠ j ∧ 0 < service.policy.maxSendsPerDay ∧
        WithinCooldown service (requests i) (requests j) := by
  obtain ⟨pre, challenge, cooldown, cap, now, clock, answer, post, rfl, hanswer⟩ := hrelies
  obtain ⟨hpre, ⟨hidle, rfl, rfl, rfl, rfl, rfl⟩, hexec⟩ := h.at
  rcases hanswer with ⟨rfl, rfl⟩ | ⟨⟨retryAfter, rfl⟩, hstored⟩
  · exact Or.inl ⟨(hone.ids j i hid).symm, _, _, _, _, _, List.mem_append_right _ List.mem_cons_self⟩
  · have hkey : ((requests i).challenge service).msisdn = msisdn := hone.number i
    have hrefused := exec_issueOtp_refusal hexec.symm
    rw [hkey] at hstored hrefused
    obtain ⟨c, hc, hexpired, hcooldown⟩ := MemoryStore.met_of_cooldown hrefused
    obtain rfl : a = c := Option.some.inj (hstored.symm.trans hc)
    obtain ⟨ha, hissued⟩ := attributed_of_history hone hfirst hpre a hstored j hid
    have hne : i ≠ j := by
      rintro rfl
      exact Otp.not_issued_of_idle hidle hissued
    refine Or.inr ⟨hne, ?_, ?_, ?_⟩
    · obtain ⟨cooldown, cap, now, clock, hmem⟩ := hissued
      obtain ⟨before, after, rfl⟩ := List.append_of_mem hmem
      obtain ⟨-, ⟨-, -, -, rfl, -⟩, haccepted⟩ := hpre.at
      have hlen := MemoryStore.length_lt_of_issueRefusal (exec_issueOtp_accepted haccepted.symm)
      exact lt_of_le_of_lt (Int.natCast_nonneg _) hlen
    · rw [ha] at hcooldown
      exact hcooldown
    · rw [ha, OtpChallenge.expired, Clock.orNow_some] at hexpired
      · exact Int.not_le.mp (of_decide_eq_false hexpired)
      · exact Clock.orNow_ne_zero _ _

theorem truthful_run (hone : OneNumber msisdn requests)
    (hfirst : ∀ c, m₀.otp msisdn = some c →
      ∀ j, (requests j).draws.challengeId ≠ c.challengeId)
    (hapart : 0 < service.policy.maxSendsPerDay → ∀ i j, i ≠ j → ¬ (requests j).Delivers →
      ¬ WithinCooldown service (requests i) (requests j)) (schedule : List ι) :
    Truthful requests m₀ (runOf service requests m₀ schedule) := by
  obtain ⟨hist, hobeys⟩ := run_history MemoryStore.exec m₀
    (fun i => @Bootstrap.program_obeys service (requests i)) schedule
  rintro i answered a hanswered hpending hrelies ⟨j, e, hid, hfailed, -⟩
  rcases meets_of_reliesOn hone hfirst hist hrelies hid with
    ⟨rfl, challenge, cooldown, cap, now, clock, hmem⟩ | ⟨hne, hsends, hwithin⟩
  · have hpost := hobeys i
    have hresult : ((start m₀ fun i => (requests i).program service).run MemoryStore.exec
      schedule).threads i = .result answered := hanswered
    rw [hresult] at hpost
    exact hfailed (hpost hpending _ _ _ _ _ (mem_ofThread.mpr hmem))
  · exact hapart hsends i j hne hfailed hwithin

theorem exec_issueOtp_of_none {challenge : OtpChallenge} {cooldown cap now : Int} {clock : Clock}
    (h : MemoryStore.issueRefusal (m.otp challenge.msisdn)
      (MemoryStore.recentSends (m.otpSends challenge.msisdn) now) cooldown cap now clock = none) :
    (MemoryStore.exec (.issueOtp challenge cooldown cap now clock) m).1 = .ok none ∧
      (MemoryStore.exec (.issueOtp challenge cooldown cap now clock) m).2.otp =
        update m.otp challenge.msisdn (some challenge) := by
  simp only [MemoryStore.exec, MemoryStore.issueOtp, h, and_self]

theorem exec_issueOtp_of_some {challenge : OtpChallenge} {cooldown cap now : Int} {clock : Clock}
    {why : OtpIssueRefused}
    (h : MemoryStore.issueRefusal (m.otp challenge.msisdn)
      (MemoryStore.recentSends (m.otpSends challenge.msisdn) now) cooldown cap now clock =
        some why) :
    MemoryStore.exec (.issueOtp challenge cooldown cap now clock) m = (.ok (some why), m) := by
  simp only [MemoryStore.exec, MemoryStore.issueOtp, h]

theorem exec_replaceOtp_stored {e : OtpChallenge} (hm : m.otp e.msisdn = some e)
    (hid : e.challengeId ≠ "") (r : Option OtpChallenge) :
    (MemoryStore.exec (.replaceOtp e r) m).1 = true := by
  have hu : unchanged e e = true := (Otp.unchanged_iff hid).mpr ⟨rfl, rfl⟩
  simp only [MemoryStore.exec, MemoryStore.replaceOtp, hm, hu, if_true]

theorem refusal_of_within {r other : Bootstrap} (sends : List Int)
    (hwithin : WithinCooldown service r other) :
    ∃ retryAfter, MemoryStore.issueRefusal (some (other.challenge service)) sends
      service.policy.resendCooldownSeconds service.policy.maxSendsPerDay r.issuedAt
      r.draws.challengedAt = some ⟨.cooldown, retryAfter⟩ := by
  have hexpired : (other.challenge service).expired (some r.issuedAt) r.draws.challengedAt =
      false := by
    have hnow : r.issuedAt ≠ 0 := Clock.orNow_ne_zero _ _
    rw [OtpChallenge.expired, Clock.orNow_some hnow]
    exact decide_eq_false (Int.not_le.mpr hwithin.2)
  have hyoung : (r.issuedAt - (other.challenge service).createdAt <
      service.policy.resendCooldownSeconds : Bool) = true := decide_eq_true hwithin.1
  have hconsumed : (other.challenge service).consumed = false := rfl
  rw [MemoryStore.issueRefusal, hconsumed, hexpired, hyoung]
  exact ⟨_, rfl⟩

theorem afterIssue_of_failed {r : Bootstrap} (hfailed : ¬ r.Delivers) :
    ∃ f, r.afterIssue service (.ok none) = Otp.discardChallenge (r.challenge service) >>= f := by
  rw [Bootstrap.afterIssue]
  cases hsms : r.draws.sms with
  | sent => exact absurd hsms hfailed
  | deliveryFailed => exact ⟨_, rfl⟩
  | unsupportedDelivery => exact ⟨_, rfl⟩

/-- A request that comes in the cooldown of another, whose SMS then fails, is told to wait for an
SMS that was never sent. -/
theorem not_truthful_run (hone : OneNumber msisdn requests) {i j : ι} (hne : i ≠ j)
    (hsends : 0 < service.policy.maxSendsPerDay) (hfailed : ¬ (requests j).Delivers)
    (hwithin : WithinCooldown service (requests i) (requests j)) :
    ¬ Truthful requests {} (runOf service requests {} [j, i, j, j]) := by
  have hnumber : ∀ k, ((requests k).challenge service).msisdn = msisdn := hone.number
  have hid : ((requests j).challenge service).challengeId ≠ "" := hone.named j
  let c₀ : Config ι StoreOp StoreOp.Answer MemoryStore Answered :=
    start {} fun k => (requests k).program service
  have hstart : c₀.threads j = (requests j).program service := rfl
  have hwaits : c₀.threads i = (requests i).program service := rfl
  have hnothing : c₀.trace = [] := rfl
  rw [Bootstrap.program_eq] at hstart hwaits
  -- `j` stores its challenge,
  have hnone : MemoryStore.issueRefusal none [] service.policy.resendCooldownSeconds
      service.policy.maxSendsPerDay (requests j).issuedAt (requests j).draws.challengedAt =
        none := if_neg (Int.not_le.mpr hsends)
  obtain ⟨hok, hotp⟩ := @exec_issueOtp_of_none c₀.shared ((requests j).challenge service) _ _ _ _
    hnone
  have hthread₁ : (c₀.step MemoryStore.exec j).threads j = _ := Config.threads_step_self hstart
  have htrace₁ : (c₀.step MemoryStore.exec j).trace = _ := Config.trace_step hstart
  have hwaits₁ : (c₀.step MemoryStore.exec j).threads i = _ :=
    (Config.threads_step_of_ne hne).trans hwaits
  have hstored₁ : (c₀.step MemoryStore.exec j).shared.otp msisdn =
      some ((requests j).challenge service) := by
    rw [Config.shared_step hstart, hotp, hnumber, update_self]
  obtain ⟨f, hdiscard⟩ := @afterIssue_of_failed service _ hfailed
  rw [hok, hdiscard, Otp.discardChallenge, Otp.verifyRounds, Otp.discardFrom_succ_bind,
    hnumber] at hthread₁
  rw [hok, hnothing, List.nil_append] at htrace₁
  -- `i` meets it in its cooldown and is told to wait,
  obtain ⟨retryAfter, hrefused⟩ := @refusal_of_within service _ _
    (MemoryStore.recentSends ((c₀.step MemoryStore.exec j).shared.otpSends msisdn)
      (requests i).issuedAt) hwithin
  have hexec₂ : MemoryStore.exec (.issueOtp ((requests i).challenge service)
      service.policy.resendCooldownSeconds service.policy.maxSendsPerDay (requests i).issuedAt
      (requests i).draws.challengedAt) (c₀.step MemoryStore.exec j).shared =
      (.ok (some ⟨.cooldown, retryAfter⟩), (c₀.step MemoryStore.exec j).shared) := by
    apply exec_issueOtp_of_some
    rw [hnumber, hstored₁]
    exact hrefused
  have hthread₂ : ((c₀.step MemoryStore.exec j).step MemoryStore.exec i).threads i = _ :=
    Config.threads_step_self hwaits₁
  have hshared₂ : ((c₀.step MemoryStore.exec j).step MemoryStore.exec i).shared = _ :=
    Config.shared_step hwaits₁
  have htrace₂ : ((c₀.step MemoryStore.exec j).step MemoryStore.exec i).trace = _ :=
    Config.trace_step hwaits₁
  rw [hexec₂] at hthread₂ hshared₂ htrace₂
  rw [htrace₁] at htrace₂
  -- and `j`, whose SMS has failed, discards it
  have hread : ((c₀.step MemoryStore.exec j).step MemoryStore.exec i).threads j = _ :=
    (Config.threads_step_of_ne hne.symm).trans hthread₁
  have hstored₂ := (congrArg (fun m => m.otp msisdn) hshared₂).trans hstored₁
  have hthread₃ : (((c₀.step MemoryStore.exec j).step MemoryStore.exec i).step MemoryStore.exec
      j).threads j = _ := Config.threads_step_self hread
  have hshared₃ : (((c₀.step MemoryStore.exec j).step MemoryStore.exec i).step MemoryStore.exec
      j).shared = _ := Config.shared_step hread
  have htrace₃ : (((c₀.step MemoryStore.exec j).step MemoryStore.exec i).step MemoryStore.exec
      j).trace = _ := Config.trace_step hread
  have hsame : ((requests j).challenge service).sameIssue ((requests j).challenge service) :=
    (Otp.sameIssue_iff hid hid).mpr rfl
  rw [Otp.exec_getOtp_of_stored hstored₂] at hthread₃ hshared₃ htrace₃
  simp only [hsame, if_true] at hthread₃
  have htrace₄ : ((((c₀.step MemoryStore.exec j).step MemoryStore.exec i).step MemoryStore.exec
      j).step MemoryStore.exec j).trace = _ := Config.trace_step hthread₃
  have hstored₃ := (congrArg (fun m => m.otp msisdn) hshared₃).trans hstored₂
  rw [exec_replaceOtp_stored ((congrArg _ (hnumber j)).trans hstored₃) hid, htrace₃, htrace₂]
    at htrace₄
  intro htruthful
  have hanswered : ((((c₀.step MemoryStore.exec j).step MemoryStore.exec i).step MemoryStore.exec
      j).step MemoryStore.exec j).threads i = _ :=
    (Config.threads_step_of_ne hne).trans ((Config.threads_step_of_ne hne).trans hthread₂)
  refine htruthful i _ ((requests j).challenge service) hanswered ⟨rfl, rfl⟩ ?_ ?_
  · refine ⟨[_], _, _, _, _, _, _, [_, _], htrace₄, Or.inr ⟨⟨retryAfter, rfl⟩, ?_⟩⟩
    change (MemoryStore.exec (.issueOtp ((requests j).challenge service) _ _ _ _) {}).2.otp
      ((requests i).challenge service).msisdn = _
    rw [hnumber]
    exact (congrFun hotp msisdn).trans (by rw [hnumber, update_self])
  · refine ⟨j, (requests j).challenge service, rfl, hfailed, rfl, ?_⟩
    exact htrace₄ ▸ List.mem_append_right _ (List.mem_singleton.mpr rfl)

/-- The pending signal is truthful in every run of the requests, from any store, if and only if no
request falls within the cooldown of another whose SMS fails. -/
theorem pending_truthful_iff (service : ProvisioningService) (msisdn : String)
    (requests : ι → Bootstrap) (hone : OneNumber msisdn requests) :
    (∀ m₀ : MemoryStore, (∀ c, m₀.otp msisdn = some c →
        ∀ j, (requests j).draws.challengeId ≠ c.challengeId) →
      ∀ schedule, Truthful requests m₀ (runOf service requests m₀ schedule)) ↔
    (0 < service.policy.maxSendsPerDay → ∀ i j, i ≠ j → ¬ (requests j).Delivers →
      ¬ WithinCooldown service (requests i) (requests j)) := by
  constructor
  · intro htruthful hsends i j hne hfailed hwithin
    have hfirst : ∀ c, ({} : MemoryStore).otp msisdn = some c →
        ∀ j, (requests j).draws.challengeId ≠ c.challengeId := by
      rintro c ⟨⟩
    exact not_truthful_run hone hne hsends hfailed hwithin (htruthful {} hfirst [j, i, j, j])
  · exact fun hapart m₀ hfirst schedule => truthful_run hone hfirst hapart schedule

namespace Lab
open OnDynamo

def draws (challengeId : String) (sms : SmsResult) (clock : Clock) : Draws :=
  { (labRequest "pw" (by decide)).draws with challengeId, sms, challengedAt := clock }

def retried (first : SmsResult) : Fin 2 → Bootstrap
  | 0 => ⟨labSubscriber, {}, draws "c1" first ⟨1700000000, Clock.pos_start⟩⟩
  | 1 => ⟨labSubscriber, {}, draws "c2" .sent ⟨1700000001, Clock.pos_second⟩⟩

theorem oneNumber (first : SmsResult) : OneNumber labSubscriber.msisdn (retried first) where
  number i := match i with
    | 0 => rfl
    | 1 => rfl
  ids i j h := match i, j with
    | 0, 0 => rfl
    | 1, 1 => rfl
    | 0, 1 => absurd h (by simp [retried, draws])
    | 1, 0 => absurd h (by simp [retried, draws])
  named i := match i with
    | 0 => by simp [retried, draws]
    | 1 => by simp [retried, draws]

theorem pending_truthful_of_sent :
    Truthful (retried .sent) {} (runOf labService (retried .sent) {} [0, 1, 0, 0]) := by
  have hdelivers : ∀ j, (retried .sent j).Delivers := fun j => match j with
    | 0 => rfl
    | 1 => rfl
  refine (pending_truthful_iff labService labSubscriber.msisdn (retried .sent)
    (oneNumber .sent)).mpr ?_ {} ?_ [0, 1, 0, 0]
  · exact fun _ _ j _ hfailed => absurd (hdelivers j) hfailed
  · rintro c ⟨⟩

/-- The retry is told to wait for the SMS of the first request, which then fails. -/
theorem pending_untruthful : ¬ Truthful (retried .deliveryFailed) {}
    (runOf labService (retried .deliveryFailed) {} [0, 1, 0, 0]) :=
  not_truthful_run (oneNumber .deliveryFailed) (by decide) (by decide) nofun
    ⟨by decide, by decide⟩

end Lab

end Acs.PendingSignal
