import Acs.Domain.OnDynamo
import Acs.Domain.Serving

/-! The IMEI allowlist of a subscriber, against everything that can identify the subscriber. -/

namespace Acs.ProvisioningService
open Interleave
variable {σ : Type} (step : (op : StoreOp) → σ → op.Answer × σ) (service : ProvisioningService)
  (query : ConfigQuery) (evidence : Evidence) (draws : Draws)

/-- The subscriber a request works on gets neither a document nor a token while its list, if there
is one, lacks the IMEI of the request. -/
def AllowlistEnforced (s₀ : σ) : Prop :=
  ∀ s, identityRead ((service.handle query evidence draws).events step s₀) = some s →
    s.imeiAllowlist ≠ [] → (∀ imei, query.imei = some imei → imei ∉ s.imeiAllowlist) →
      bodyOf ((service.handle query evidence draws).eval step s₀).1 = none ∧
        ∀ e ∈ (service.handle query evidence draws).events step s₀, Tokenless e.1

/-- A token, an asserted number or GBA names an entitled subscriber whose list lacks the IMEI, and
whose forced version, if it has one, is a version there is. -/
structure Bypasses (s₀ : σ) (s : Subscriber) (method : IdentityMethod) : Prop where
  named : Named step service query evidence draws s₀ s method
  entitled : s.entitled = true
  excluded : s.imeiAllowed query.imei = false
  servable : ∀ forced, s.forcedVers = some forced → ∃ action, Vers.actionFor forced = .ok action

variable {step service query evidence draws} {s₀ : σ} {s : Subscriber} {method : IdentityMethod}

theorem imeiAllowed_eq_false {imei : Option String} :
    s.imeiAllowed imei = false ↔
      s.imeiAllowlist ≠ [] ∧ ∀ i, imei = some i → i ∉ s.imeiAllowlist := by
  unfold Subscriber.imeiAllowed
  cases imei with
  | none => simp
  | some i => simp

theorem serves_of_servable
    (hservable : ∀ forced, s.forcedVers = some forced → ∃ action, Vers.actionFor forced = .ok action)
    (hbody : bodyOf ((service.serveConfiguration s query method draws).eval step s₀).1 = none) :
    ∃ record, ⟨.putToken record, ()⟩ ∈
      (service.serveConfiguration s query method draws).events step s₀ := by
  apply putToken_mem_serveConfiguration
  rw [bodyOf_serveConfiguration] at hbody
  unfold documentFor at hbody
  cases hforced : s.forcedVers with
  | some forced =>
    obtain ⟨action, haction⟩ := hservable forced hforced
    simp [hforced, haction, Except.map, Except.toOption] at hbody
  | none =>
    refine ⟨hforced, ?_⟩
    by_contra hholds
    rw [Bool.not_eq_false] at hholds
    simp [hforced, hholds, Except.toOption] at hbody

variable (service query draws method) in
theorem nothing_of_unservable {forced : Int} {e : PyError} (hforced : s.forcedVers = some forced)
    (hversion : Vers.actionFor forced = .error e) :
    service.serveConfiguration s query method draws = .result (.error (.build e)) := by
  unfold serveConfiguration
  rw [hforced]
  dsimp only
  rw [hversion]
  rfl

/-- The list is enforced on a request exactly if no credential other than a one-time code takes the
request past it. -/
theorem allowlist_enforced_iff (step : (op : StoreOp) → σ → op.Answer × σ)
    (service : ProvisioningService) (query : ConfigQuery) (evidence : Evidence) (draws : Draws)
    (s₀ : σ) :
    AllowlistEnforced step service query evidence draws s₀ ↔
      ¬ ∃ s method, Bypasses step service query evidence draws s₀ s method := by
  constructor
  · rintro henforced ⟨s, method, hnamed, hentitled, hexcluded, hservable⟩
    have hresolved := eval_resolveIdentity.mpr (.named hnamed hentitled)
    obtain ⟨hlist, himei⟩ := imeiAllowed_eq_false.mp hexcluded
    rcases handle_cases service step s₀ query draws evidence with
      ⟨s', method', hresolved', heval, hevents⟩ | ⟨hnone, -, -⟩
    · obtain ⟨rfl, rfl⟩ : s = s' ∧ method = method' := by
        simpa using hresolved.symm.trans hresolved'
      have hread : identityRead ((service.handle query evidence draws).events step s₀) = some s := by
        rw [hevents]
        exact identityRead_kept _ (identityRead_of_authenticated hresolved)
      obtain ⟨hbody, htokenless⟩ := henforced s hread hlist himei
      rw [heval] at hbody
      obtain ⟨record, hmem⟩ := serves_of_servable hservable hbody
      exact htokenless _ (hevents ▸ List.mem_append_right _ hmem) record rfl
    · exact hnone s method hresolved
  · intro hnone s hread hlist himei
    have hexcluded := imeiAllowed_eq_false.mpr ⟨hlist, himei⟩
    rcases handle_cases service step s₀ query draws evidence with
      ⟨s', method, hresolved, heval, hevents⟩ | ⟨-, hbody, htokenless⟩
    · have hread' := identityRead_kept ((service.serveConfiguration s' query method draws).events step
        ((service.resolveIdentity query evidence draws).eval step s₀).2)
        (identityRead_of_authenticated hresolved)
      rw [← hevents, hread] at hread'
      obtain rfl := Option.some.inj hread'
      cases eval_resolveIdentity.mp hresolved with
      | otp hclaims _ _ =>
        -- the one path that looks at the list
        rw [hclaims.imeiAllowed] at hexcluded
        cases hexcluded
      | named hnamed hentitled =>
        have hunservable : ∃ forced e, s.forcedVers = some forced ∧
            Vers.actionFor forced = .error e := by
          by_contra hall
          refine hnone ⟨s, method, hnamed, hentitled, hexcluded, fun forced hforced => ?_⟩
          cases haction : Vers.actionFor forced with
          | ok action => exact ⟨action, rfl⟩
          | error e => exact absurd ⟨forced, e, hforced, haction⟩ hall
        obtain ⟨forced, e, hforced, hversion⟩ := hunservable
        have hnothing := nothing_of_unservable service query draws method hforced hversion
        rw [heval, hevents, hnothing]
        refine ⟨rfl, fun e he => ?_⟩
        exact resolveIdentity_tokenless.events s₀ e (by simpa using he)
    · exact ⟨hbody, htokenless⟩

/-- A token issued before the list was set, a number the gateway asserts and GBA each get a
handset past a list that it is not on. -/
theorem allowlist_not_enforced :
    let handset : String := "356938035643809"
    let listed : Subscriber := { OnDynamo.labSubscriber with imeiAllowlist := ["350000000000006"] }
    let clock : Clock := ⟨1700000100, by decide⟩
    let store : MemoryStore := { (({} : MemoryStore).putSubscriber listed) with
      tokens := [Token.newRecord OnDynamo.labService.sha256 "k1xDq0" listed.imsi handset 2592000 true
        clock] }
    let query : ConfigQuery := { vers := 1, imei := handset }
    let draws := (OnDynamo.labRequest "s3cret" (by decide)).draws
    ¬ AllowlistEnforced MemoryStore.exec OnDynamo.labService { query with token := "k1xDq0" } {}
      draws store ∧
    ¬ AllowlistEnforced MemoryStore.exec OnDynamo.labService query
      { enrichedMsisdn := listed.msisdn } draws store ∧
    ¬ AllowlistEnforced MemoryStore.exec OnDynamo.labService query
      { gba := some (.verified listed.imsi) } draws store := by
  intro handset listed clock store query draws
  have hlist : listed.imeiAllowlist ≠ [] := by decide
  have himei : ∀ imei, query.imei = some imei → imei ∉ listed.imeiAllowlist := by
    rintro imei ⟨rfl⟩
    decide
  refine ⟨fun h => ?_, fun h => ?_, fun h => ?_⟩
  · cases (h listed rfl hlist himei).1
  · cases (h listed rfl hlist himei).1
  · cases (h listed rfl hlist himei).1

end Acs.ProvisioningService
