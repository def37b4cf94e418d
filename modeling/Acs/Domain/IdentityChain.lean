import Mathlib
import Acs.Domain.Request

/-! What the identity chain and the answering part of a request come to, run alone on a store. -/

namespace Acs
open Interleave

namespace Token

structure Accepts (sha256 : String → String) (token : String) (imei : Option String)
    (bindImei : Bool) (clock : Clock) (record : TokenRecord) : Prop where
  tokenHash : record.tokenHash = hashToken sha256 token
  unrevoked : record.revoked = false
  unexpired : record.expired none clock = false
  bound : bindImei = true → record.imei.getD "" ≠ "" → record.imei = imei

end Token

namespace ProvisioningService
variable {σ : Type} (step : (op : StoreOp) → σ → op.Answer × σ) (service : ProvisioningService)
  (query : ConfigQuery) (evidence : Evidence) (draws : Draws)

structure TokenFor (s₀ : σ) (s : Subscriber) (record : TokenRecord) (s₁ : σ) : Prop where
  found : step (.getToken (Token.hashToken service.sha256 (orElseText query.token ""))) s₀ =
    (.ok (some record), s₁)
  accepts : Token.Accepts service.sha256 (orElseText query.token "") query.imei
    service.settings.tokenBindImei draws.verifiedAt record
  holder : (step (.getSubscriber record.imsi) s₁).1 = some s

/-- A credential other than a one-time code names the subscriber, who was read from the store. -/
inductive Named (s₀ : σ) (s : Subscriber) : IdentityMethod → Prop
  | token (record : TokenRecord) (s₁ : σ) (htoken : orElseText query.token "" ≠ "")
    (hfor : TokenFor step service query draws s₀ s record s₁) : Named s₀ s .token
  | enrichment (htoken : orElseText query.token "" = "")
    (hmsisdn : orElseText evidence.enrichedMsisdn "" ≠ "")
    (hread : (step (.getSubscriberByMsisdn (orElseText evidence.enrichedMsisdn "")) s₀).1 =
      some s) : Named s₀ s .enrichment
  | gba (imsi : String) (htoken : orElseText query.token "" = "")
    (hmsisdn : orElseText evidence.enrichedMsisdn "" = "")
    (hgba : evidence.gba = some (.verified imsi))
    (hread : (step (.getSubscriber imsi) s₀).1 = some s) : Named s₀ s .gba

structure Claims (s₀ : σ) (s : Subscriber) : Prop where
  token : orElseText query.token "" = ""
  enriched : orElseText evidence.enrichedMsisdn "" = ""
  gba : evidence.gba = none
  candidate : ((lookupCandidate query).eval step s₀).1 = some s
  imeiAllowed : s.imeiAllowed query.imei = true
  otp : orElseText query.otp "" ≠ ""

/-- The chain authenticates an entitled subscriber, by a credential or by the code. -/
inductive Authenticated (s₀ : σ) (s : Subscriber) : IdentityMethod → Prop
  | named {method : IdentityMethod} (h : Named step service query evidence draws s₀ s method)
    (hentitled : s.entitled = true) : Authenticated s₀ s method
  | otp (h : Claims step query evidence s₀ s) (hentitled : s.entitled = true)
    (hverified : ((Otp.verifyChallenge service.sha256 service.policy s.msisdn
      (orElseText query.otp "") none draws.verifiedAt).eval step
        ((lookupCandidate query).eval step s₀).2).1 = .verified) : Authenticated s₀ s .otp

variable {step service query evidence draws} {s₀ : σ} {s : Subscriber} {method : IdentityMethod}

section Chain

theorem entitledOr_eq_authenticated {s' : Subscriber} {detail : String} {m : IdentityMethod} :
    entitledOr s' detail m = .authenticated s method ↔
      s' = s ∧ m = method ∧ s.entitled = true := by
  unfold entitledOr
  split_ifs with h
  · simp only [Identity.authenticated.injEq]
    exact ⟨fun ⟨hs, hm⟩ => ⟨hs, hm, hs ▸ h⟩, fun ⟨hs, hm, _⟩ => ⟨hs, hm⟩⟩
  · constructor
    · intro hne
      cases hne
    · rintro ⟨rfl, -, hs⟩
      exact absurd hs h

theorem eval_verifyToken {token : String} {imei : Option String} {bindImei : Bool} {clock : Clock}
    (htoken : token ≠ "") {sha256 : String → String} {record : TokenRecord} {s₁ : σ} :
    (Token.verifyToken sha256 token imei bindImei clock).eval step s₀ = (.ok (some record), s₁) ↔
      step (.getToken (Token.hashToken sha256 token)) s₀ = (.ok (some record), s₁) ∧
        Token.Accepts sha256 token imei bindImei clock record := by
  unfold Token.verifyToken
  rw [if_neg htoken]
  change Program.eval step (Program.perform _ >>= _) s₀ = _ ↔ _
  rw [Program.perform_bind, Program.eval_call]
  generalize hstep : step (.getToken (Token.hashToken sha256 token)) s₀ = found
  obtain ⟨found, s'⟩ := found
  match found with
  | .error e => simp
  | .ok none => simp
  | .ok (some r) =>
    dsimp only
    split_ifs with hhash hdead himei
    · simp only [Program.pure_eq, Program.eval_result, Prod.mk.injEq, reduceCtorEq, Except.ok.injEq,
        false_and, Option.some.injEq, false_iff, not_and]
      rintro ⟨rfl, -⟩ ⟨htokenHash, -⟩
      exact hhash htokenHash
    · simp only [Program.pure_eq, Program.eval_result, Prod.mk.injEq, reduceCtorEq, Except.ok.injEq,
        false_and, Option.some.injEq, false_iff, not_and]
      rintro ⟨rfl, -⟩ ⟨-, hrevoked, hexpired, -⟩
      simp [hrevoked, hexpired] at hdead
    · simp only [Program.pure_eq, Program.eval_result, Prod.mk.injEq, reduceCtorEq, Except.ok.injEq,
        false_and, Option.some.injEq, false_iff, not_and]
      rintro ⟨rfl, -⟩ ⟨-, -, -, hbound⟩
      simp only [Bool.and_eq_true, decide_eq_true_eq] at himei
      exact himei.2 (hbound himei.1.1 himei.1.2)
    · simp only [Program.pure_eq, Program.eval_result, Prod.mk.injEq, Except.ok.injEq,
        Option.some.injEq, iff_self_and]
      rintro ⟨rfl, -⟩
      simp only [Bool.or_eq_true, not_or, Bool.not_eq_true] at hdead
      refine ⟨not_not.mp hhash, hdead.1, hdead.2, fun hbind hne => ?_⟩
      by_contra hdiff
      exact himei (by simp [hbind, hne, hdiff])

theorem eval_resolveByToken (htoken : orElseText query.token "" ≠ "") :
    ((service.resolveByToken (orElseText query.token "") query draws).eval step s₀).1 =
        .ok (.authenticated s method) ↔
      (∃ record s₁, TokenFor step service query draws s₀ s record s₁) ∧ method = .token ∧
        s.entitled = true := by
  unfold resolveByToken
  rw [Program.eval_bind]
  generalize hverify : (Token.verifyToken _ _ _ _ _).eval step s₀ = verified
  obtain ⟨found, s'⟩ := verified
  have hfor : ∀ record s₁, TokenFor step service query draws s₀ s record s₁ ↔
      (found, s') = (.ok (some record), s₁) ∧
        (step (.getSubscriber record.imsi) s₁).1 = some s := by
    intro record s₁
    rw [← hverify, eval_verifyToken htoken]
    exact ⟨fun h => ⟨⟨h.found, h.accepts⟩, h.holder⟩, fun h => ⟨h.1.1, h.1.2, h.2⟩⟩
  simp only [hfor]
  match found with
  | .error e => simp
  | .ok none => simp
  | .ok (some record) =>
    simp only [Store.getSubscriber, Program.perform_bind, Program.eval_call]
    cases hholder : (step (.getSubscriber record.imsi) s').1 with
    | none =>
      simp only [Program.pure_eq, Program.eval_result, Except.ok.injEq, reduceCtorEq, false_iff]
      rintro ⟨⟨record', s₁, heq, hread⟩, -⟩
      cases heq
      cases hholder.symm.trans hread
    | some holder =>
      simp only [Program.pure_eq, Program.eval_result, Except.ok.injEq,
        entitledOr_eq_authenticated]
      constructor
      · rintro ⟨rfl, rfl, hentitled⟩
        exact ⟨⟨record, s', rfl, hholder⟩, rfl, hentitled⟩
      · rintro ⟨⟨record', s₁, heq, hread⟩, rfl, hentitled⟩
        cases heq
        exact ⟨Option.some.inj (hholder.symm.trans hread), rfl, hentitled⟩

theorem eval_resolveByEnrichment {msisdn : String} :
    ((resolveByEnrichment msisdn).eval step s₀).1 = .ok (.authenticated s method) ↔
      (step (.getSubscriberByMsisdn msisdn) s₀).1 = some s ∧ method = .enrichment ∧
        s.entitled = true := by
  simp only [resolveByEnrichment, Store.getSubscriberByMsisdn, Program.perform_bind,
    Program.eval_call]
  cases hread : (step (.getSubscriberByMsisdn msisdn) s₀).1 with
  | none => simp
  | some s' =>
    simp only [Program.pure_eq, Program.eval_result, Except.ok.injEq, entitledOr_eq_authenticated,
      Option.some.injEq, @eq_comm _ method]

theorem eval_resolveGba {check : GbaCheck} :
    ((resolveGba check).eval step s₀).1 = .ok (.authenticated s method) ↔
      ∃ imsi, check = .verified imsi ∧ (step (.getSubscriber imsi) s₀).1 = some s ∧
        method = .gba ∧ s.entitled = true := by
  cases check with
  | rejected detail => simp [resolveGba]
  | verified imsi =>
    simp only [resolveGba, Store.getSubscriber, Program.perform_bind, Program.eval_call,
      GbaCheck.verified.injEq, exists_eq_left']
    cases hread : (step (.getSubscriber imsi) s₀).1 with
    | none => simp
    | some s' =>
      simp only [Program.pure_eq, Program.eval_result, Except.ok.injEq,
        entitledOr_eq_authenticated, Option.some.injEq, @eq_comm _ method]

theorem eval_resolveClaim (htoken : orElseText query.token "" = "")
    (hmsisdn : orElseText evidence.enrichedMsisdn "" = "") (hgba : evidence.gba = none) :
    ((service.resolveClaim query draws).eval step s₀).1 = .ok (.authenticated s method) ↔
      Claims step query evidence s₀ s ∧ method = .otp ∧ s.entitled = true ∧
        ((Otp.verifyChallenge service.sha256 service.policy s.msisdn
          (orElseText query.otp "") none draws.verifiedAt).eval step
            ((lookupCandidate query).eval step s₀).2).1 = .verified := by
  have hclaims : Claims step query evidence s₀ s ↔
      ((lookupCandidate query).eval step s₀).1 = some s ∧ s.imeiAllowed query.imei = true ∧
        orElseText query.otp "" ≠ "" :=
    ⟨fun h => ⟨h.candidate, h.imeiAllowed, h.otp⟩,
      fun h => ⟨htoken, hmsisdn, hgba, h.1, h.2.1, h.2.2⟩⟩
  unfold resolveClaim
  rw [hclaims, Program.eval_bind]
  generalize (lookupCandidate query).eval step s₀ = looked
  obtain ⟨found, s'⟩ := looked
  cases found with
  | none => simp
  | some s'' =>
    dsimp only
    constructor
    · intro h
      split_ifs at h with hentitled himei
      · simp at h
      · simp at h
      · simp only [Bool.not_eq_true', Bool.not_eq_false] at hentitled himei
        split at h
        · simp at h
        · next hne =>
          rw [Program.eval_bind] at h
          generalize hverdict : (Otp.verifyChallenge _ _ _ _ _ _).eval step s' = verdict at h
          obtain ⟨outcome, s₁⟩ := verdict
          cases outcome with
          | verified =>
            simp only [Program.pure_eq, Program.eval_result, Except.ok.injEq,
              Identity.authenticated.injEq] at h
            obtain ⟨rfl, rfl⟩ := h
            exact ⟨⟨rfl, himei, hne⟩, rfl, hentitled, congrArg Prod.fst hverdict⟩
          | _ => simp at h
    · rintro ⟨⟨hs, himei, hne⟩, rfl, hentitled, hverified⟩
      obtain rfl := Option.some.inj hs
      rw [hentitled, himei]
      simp only [Bool.not_true, Bool.false_eq_true, if_false]
      rw [Program.eval_bind, hverified]
      rfl

theorem eval_resolveIdentity :
    ((service.resolveIdentity query evidence draws).eval step s₀).1 = .ok (.authenticated s method) ↔
      Authenticated step service query evidence draws s₀ s method := by
  unfold resolveIdentity
  constructor
  · intro h
    split at h
    · next htoken =>
      split at h
      · next hmsisdn =>
        split at h
        · next check hgba =>
          obtain ⟨imsi, rfl, hread, rfl, hentitled⟩ := eval_resolveGba.mp h
          exact .named (.gba imsi htoken hmsisdn hgba hread) hentitled
        · next hgba =>
          obtain ⟨hclaims, rfl, hentitled, hverified⟩ :=
            (eval_resolveClaim htoken hmsisdn hgba).mp h
          exact .otp hclaims hentitled hverified
      · next hmsisdn =>
        obtain ⟨hread, rfl, hentitled⟩ := eval_resolveByEnrichment.mp h
        exact .named (.enrichment htoken hmsisdn hread) hentitled
    · next htoken =>
      obtain ⟨⟨record, s₁, hfor⟩, rfl, hentitled⟩ := (eval_resolveByToken htoken).mp h
      exact .named (.token record s₁ htoken hfor) hentitled
  · rintro (⟨hnamed, hentitled⟩ | ⟨hclaims, hentitled, hverified⟩)
    · cases hnamed with
      | token record s₁ htoken hfor =>
        split
        · next hempty => exact absurd hempty htoken
        · exact (eval_resolveByToken htoken).mpr ⟨⟨record, s₁, hfor⟩, rfl, hentitled⟩
      | enrichment htoken hmsisdn hread =>
        split
        · split
          · next hempty => exact absurd hempty hmsisdn
          · exact eval_resolveByEnrichment.mpr ⟨hread, rfl, hentitled⟩
        · next hne => exact absurd htoken hne
      | gba imsi htoken hmsisdn hgba hread =>
        rw [htoken, hmsisdn, hgba]
        exact eval_resolveGba.mpr ⟨imsi, rfl, hread, rfl, hentitled⟩
    · rw [hclaims.token, hclaims.enriched, hclaims.gba]
      exact (eval_resolveClaim hclaims.token hclaims.enriched hclaims.gba).mpr
        ⟨hclaims, rfl, hentitled, hverified⟩

end Chain
end ProvisioningService
end Acs
