import Acs.Domain.IdentityChain
import Acs.Domain.ServiceSteps

/-! What a request hands out once its subscriber is authenticated: a document, a token, or
neither. -/

namespace Acs.ProvisioningService
open Interleave
variable (service : ProvisioningService)

def bodyOf : Except ServiceError ProvisioningOutcome → Option ProvisioningDoc
  | .ok outcome => outcome.body
  | .error _ => none

def versionFor (s : Subscriber) : Int :=
  if s.provisioningVersion ≤ 0 then Vers.nextVersion s.provisioningVersion
  else s.provisioningVersion

def wholeDocument (s : Subscriber) (query : ConfigQuery) (token dmPassword : String) :
    Except PyError ProvisioningDoc :=
  Builder.buildDocument service.env service.settings query s.imsi s.msisdn s.provisioningVersion
    service.settings.provisioningValiditySeconds
    (if s.rcsProfile ≠ "" then s.rcsProfile
      else orElseText query.rcsProfile service.settings.defaultRcsProfile)
    token s.overrides dmPassword

def dmPasswordFor (s : Subscriber) (draws : Draws) : String :=
  if service.settings.dmEnabled && service.settings.dmBootstrapInCp && (s.dmPassword = "" : Bool)
  then draws.dmPassword else s.dmPassword

def documentFor (s : Subscriber) (query : ConfigQuery) (draws : Draws) :
    Except PyError ProvisioningDoc :=
  let validity := service.settings.provisioningValiditySeconds
  match s.forcedVers with
  | some forced =>
    (Vers.actionFor forced).map fun _ => Builder.buildVersOnlyDocument forced validity
  | none =>
    if Vers.clientHoldsCurrent query.vers (versionFor s) then
      .ok (Builder.buildVersOnlyDocument (versionFor s) validity)
    else
      service.wholeDocument { s with provisioningVersion := versionFor s } query draws.token
        (service.dmPasswordFor s draws)

variable {service} {σ : Type} {step : (op : StoreOp) → σ → op.Answer × σ} {s₀ : σ} {s : Subscriber}
  {query : ConfigQuery} {method : IdentityMethod} {draws : Draws}

theorem bodyOf_deliver (x : Subscriber) (token : String) :
    bodyOf ((service.deliver x query method token draws).eval step s₀).1 =
      (service.wholeDocument x query token x.dmPassword).toOption := by
  unfold deliver wholeDocument
  dsimp only
  cases Builder.buildDocument service.env service.settings query x.imsi x.msisdn
    x.provisioningVersion _ _ token x.overrides x.dmPassword with
  | error e => rfl
  | ok doc => rfl

theorem bodyOf_serveDocument (x : Subscriber) :
    bodyOf ((service.serveDocument x query method draws).eval step s₀).1 =
      (service.wholeDocument x query draws.token (service.dmPasswordFor x draws)).toOption := by
  unfold serveDocument dmPasswordFor
  change bodyOf (Program.eval step (if _ then _ else _) _).1 = _
  by_cases hdraw : (service.settings.dmEnabled && service.settings.dmBootstrapInCp &&
      (x.dmPassword = "" : Bool)) = true
  · rw [if_pos hdraw, if_pos hdraw]
    exact bodyOf_deliver { x with dmPassword := draws.dmPassword } draws.token
  · rw [if_neg hdraw, if_neg hdraw]
    exact bodyOf_deliver x draws.token

theorem bodyOf_serveConfiguration :
    bodyOf ((service.serveConfiguration s query method draws).eval step s₀).1 =
      (service.documentFor s query draws).toOption := by
  unfold serveConfiguration documentFor
  cases hforced : s.forcedVers with
  | some forced =>
    dsimp only
    cases Vers.actionFor forced with
    | error e => rfl
    | ok action => rfl
  | none =>
    have hserve : ∀ s₁, bodyOf ((service.serveVersion { s with
        provisioningVersion := versionFor s } query method draws).eval step s₁).1 =
          (if Vers.clientHoldsCurrent query.vers (versionFor s) then
            .ok (Builder.buildVersOnlyDocument (versionFor s)
              service.settings.provisioningValiditySeconds)
          else
            service.wholeDocument { s with provisioningVersion := versionFor s } query draws.token
              (service.dmPasswordFor s draws)).toOption := by
      intro s₁
      unfold serveVersion
      dsimp only
      by_cases hholds : Vers.clientHoldsCurrent query.vers (versionFor s) = true
      · rw [if_pos hholds, if_pos hholds]
        rfl
      · rw [if_neg hholds, if_neg hholds]
        exact bodyOf_serveDocument _
    dsimp only
    by_cases hversion : s.provisioningVersion ≤ 0
    · have hnext : versionFor s = Vers.nextVersion s.provisioningVersion := if_pos hversion
      rw [if_pos hversion, ← hnext]
      rw [hforced] at hserve
      exact hserve _
    · have hkept : versionFor s = s.provisioningVersion := if_neg hversion
      rw [if_neg hversion]
      rw [hkept] at hserve ⊢
      exact hserve _

/-- A token goes to a client that does not hold the version it would get. -/
def TokenDue (s : Subscriber) (query : ConfigQuery) : Prop :=
  s.forcedVers = none ∧ Vers.clientHoldsCurrent query.vers (versionFor s) = false

variable (service query method draws step s₀) in
theorem putToken_mem_serveDocument (x : Subscriber) :
    ∃ record, ⟨.putToken record, ()⟩ ∈
      (service.serveDocument x query method draws).events step s₀ :=
  ⟨_, List.mem_cons_self⟩

theorem serveVersion_of_stale {x : Subscriber}
    (hx : Vers.clientHoldsCurrent query.vers x.provisioningVersion = false) :
    service.serveVersion x query method draws = service.serveDocument x query method draws := by
  unfold serveVersion
  simp only [hx, Bool.false_eq_true, if_false]

theorem putToken_mem_serveConfiguration (hdue : TokenDue s query) :
    ∃ record, ⟨.putToken record, ()⟩ ∈
      (service.serveConfiguration s query method draws).events step s₀ := by
  obtain ⟨hforced, hholds⟩ := hdue
  unfold serveConfiguration
  rw [hforced]
  dsimp only
  by_cases hversion : s.provisioningVersion ≤ 0
  · have hnext : versionFor s = Vers.nextVersion s.provisioningVersion := if_pos hversion
    rw [if_pos hversion, ← hnext, serveVersion_of_stale hholds]
    obtain ⟨record, hmem⟩ := putToken_mem_serveDocument service step _ query method draws _
    exact ⟨record, List.mem_cons_of_mem _ (List.mem_cons_of_mem _ hmem)⟩
  · have hkept : versionFor s = s.provisioningVersion := if_neg hversion
    rw [if_neg hversion, serveVersion_of_stale (hkept ▸ hholds)]
    exact putToken_mem_serveDocument service step s₀ query method draws _

section Whole
variable {evidence : Evidence}

def Tokenless (op : StoreOp) : Prop := ∀ record, op ≠ .putToken record

def Resolving : StoreOp → Prop
  | .getSubscriber _ => True
  | .getSubscriberByMsisdn _ => True
  | .getToken _ => True
  | .getOtp _ => True
  | .replaceOtp .. => True
  | _ => False

theorem tokenless_resolving {op : StoreOp} (hop : Resolving op) : Tokenless op := by
  rintro record rfl
  exact hop.elim

theorem lookupCandidate_uses {Q : StoreOp → Prop} (hget : ∀ imsi, Q (.getSubscriber imsi))
    (hfind : ∀ msisdn, Q (.getSubscriberByMsisdn msisdn)) : (lookupCandidate query).Uses Q := by
  unfold lookupCandidate
  dsimp only
  split
  · split
    · trivial
    · exact ⟨hfind _, fun _ => trivial⟩
  · refine ⟨hget _, fun found => ?_⟩
    cases found with
    | some s => trivial
    | none =>
      dsimp only
      split
      · trivial
      · exact ⟨hfind _, fun _ => trivial⟩

theorem resolveByToken_uses {Q : StoreOp → Prop} (hget : ∀ imsi, Q (.getSubscriber imsi))
    (htoken : ∀ tokenHash, Q (.getToken tokenHash)) (token : String) :
    (service.resolveByToken token query draws).Uses Q := by
  refine (verifyToken_uses htoken ..).bind fun found => ?_
  match found with
  | .error e => trivial
  | .ok none => trivial
  | .ok (some record) =>
    refine ⟨hget _, fun holder => ?_⟩
    cases holder <;> trivial

theorem resolveGba_uses {Q : StoreOp → Prop} (hget : ∀ imsi, Q (.getSubscriber imsi))
    (check : GbaCheck) : (resolveGba check).Uses Q := by
  cases check with
  | rejected detail => trivial
  | verified imsi =>
    refine ⟨hget _, fun found => ?_⟩
    cases found <;> trivial

theorem resolveByEnrichment_uses {Q : StoreOp → Prop}
    (hfind : ∀ msisdn, Q (.getSubscriberByMsisdn msisdn)) (msisdn : String) :
    (resolveByEnrichment msisdn).Uses Q := by
  refine ⟨hfind _, fun found => ?_⟩
  cases found <;> trivial

theorem resolveIdentity_resolving :
    (service.resolveIdentity query evidence draws).Uses Resolving := by
  unfold resolveIdentity
  split
  · split
    · split
      · exact resolveGba_uses (fun _ => trivial) _
      · refine (lookupCandidate_uses (fun _ => trivial) fun _ => trivial).bind fun found => ?_
        cases found with
        | none => trivial
        | some s =>
          dsimp only
          split_ifs
          · trivial
          · trivial
          · split
            · trivial
            · refine (verifyFrom_uses (fun _ => trivial) (fun _ _ => trivial) ..).bind
                fun outcome => ?_
              cases outcome <;> trivial
    · exact resolveByEnrichment_uses (fun _ => trivial) _
  · exact resolveByToken_uses (fun _ => trivial) (fun _ => trivial) _

theorem resolveIdentity_tokenless :
    (service.resolveIdentity query evidence draws).Uses Tokenless :=
  resolveIdentity_resolving.mono fun _ => tokenless_resolving

theorem issueOtp_tokenless {candidateMsisdn : String} :
    (service.issueOtp s candidateMsisdn query draws).Uses Tokenless := by
  unfold issueOtp
  refine (createChallenge_uses (fun _ _ _ _ _ _ h => nomatch h) ..).bind fun created => ?_
  have hdiscard : ∀ challenge, (Otp.discardChallenge challenge).Uses Tokenless :=
    fun challenge => discardFrom_uses (fun _ _ h => nomatch h) (fun _ _ _ h => nomatch h) challenge _
  match created with
  | .error (.sendBlocked .cooldown _) => trivial
  | .error (.sendBlocked .dailyQuota _) => trivial
  | .error (.store .otpStoreContention) => trivial
  | .error (.store .clientError) => trivial
  | .error (.store .typeError) => trivial
  | .error (.store .inexactNumber) => trivial
  | .ok (challenge, _) =>
    dsimp only
    cases draws.sms with
    | sent => trivial
    | deliveryFailed => exact (hdiscard _).bind fun _ => trivial
    | unsupportedDelivery => exact (hdiscard _).bind fun _ => trivial

theorem bodyOf_issueOtp {candidateMsisdn : String} :
    bodyOf ((service.issueOtp s candidateMsisdn query draws).eval step s₀).1 = none := by
  unfold issueOtp
  rw [Program.eval_bind]
  generalize (Otp.createChallenge _ _ _ _ _ _ _ _ _).eval step s₀ = created
  match created with
  | (.error (.sendBlocked .cooldown _), s₁) => rfl
  | (.error (.sendBlocked .dailyQuota _), s₁) => rfl
  | (.error (.store .otpStoreContention), s₁) => rfl
  | (.error (.store .clientError), s₁) => rfl
  | (.error (.store .typeError), s₁) => rfl
  | (.error (.store .inexactNumber), s₁) => rfl
  | (.ok (challenge, _), s₁) =>
    dsimp only
    cases draws.sms with
    | sent => rfl
    | deliveryFailed =>
      rw [Program.eval_bind]
      rfl
    | unsupportedDelivery =>
      rw [Program.eval_bind]
      rfl

variable (service query evidence draws step s₀) in
/-- A request either authenticates its subscriber and serves it, or hands out nothing. -/
theorem handle_cases :
    (∃ s method, ((service.resolveIdentity query evidence draws).eval step s₀).1 =
        .ok (.authenticated s method) ∧
      (service.handle query evidence draws).eval step s₀ =
        (service.serveConfiguration s query method draws).eval step
          ((service.resolveIdentity query evidence draws).eval step s₀).2 ∧
      (service.handle query evidence draws).events step s₀ =
        (service.resolveIdentity query evidence draws).events step s₀ ++
          (service.serveConfiguration s query method draws).events step
            ((service.resolveIdentity query evidence draws).eval step s₀).2) ∨
    (∀ s method, ((service.resolveIdentity query evidence draws).eval step s₀).1 ≠
        .ok (.authenticated s method)) ∧
      bodyOf ((service.handle query evidence draws).eval step s₀).1 = none ∧
      ∀ e ∈ (service.handle query evidence draws).events step s₀, Tokenless e.1 := by
  have hchain : ∀ e ∈ (service.resolveIdentity query evidence draws).events step s₀,
      Tokenless e.1 := resolveIdentity_tokenless.events s₀
  unfold handle
  rw [Program.eval_bind, Program.events_bind]
  generalize ((service.resolveIdentity query evidence draws).eval step s₀).2 = s₁
  cases ((service.resolveIdentity query evidence draws).eval step s₀).1 with
  | error e => exact Or.inr ⟨nofun, rfl, by simpa using hchain⟩
  | ok identity =>
    cases identity with
    | authenticated s method => exact Or.inl ⟨s, method, rfl, rfl, rfl⟩
    | notEntitled s detail => exact Or.inr ⟨nofun, rfl, by simpa using hchain⟩
    | unresolved detail =>
      refine Or.inr ⟨nofun, ?_, by simpa using hchain⟩
      dsimp only [Program.pure_eq, Program.eval_result, bodyOf, unresolvedOutcome]
      split_ifs <;> rfl
    | challenge s msisdn detail =>
      refine Or.inr ⟨nofun, ?_, fun e he => ?_⟩
      · exact bodyOf_issueOtp
      · rcases List.mem_append.mp he with he | he
        · exact hchain e he
        · exact issueOtp_tokenless.events s₁ e he

theorem identityRead_of_authenticated
    (h : ((service.resolveIdentity query evidence draws).eval step s₀).1 =
      .ok (.authenticated s method)) :
    identityRead ((service.resolveIdentity query evidence draws).events step s₀) = some s := by
  have hresolves : Resolves
      ([] ++ (service.resolveIdentity query evidence draws).events step s₀)
      ((service.resolveIdentity query evidence draws).eval step s₀).1 :=
    (service.resolveIdentity_obeys query evidence).eval s₀
  rw [h, List.nil_append] at hresolves
  exact hresolves

end Whole
end Acs.ProvisioningService
