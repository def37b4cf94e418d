import Acs.Api.MsisdnIndex
import Acs.Domain.OnDynamo
import Acs.Domain.Serving

/-! No configuration without proof: what stands behind a document that a request is given. -/

namespace Acs.Frontend
open Interleave Function ProvisioningService

def bodyOf : Except RequestError ProvisioningOutcome → Option ProvisioningDoc
  | .ok outcome => outcome.body
  | .error _ => none

section Proof
variable {σ : Type} (step : (op : StoreOp) → σ → op.Answer × σ) (frontend : Frontend)
  (request : HttpRequest) (checkedAt : Clock) (draws : Draws)

structure TokenVerifies (s₀ : σ) (record : TokenRecord) : Prop where
  read : (step (.getToken (Token.hashToken frontend.service.sha256
    (orElseText request.query.token ""))) s₀).1 = .ok (some record)
  accepts : Token.Accepts frontend.service.sha256 (orElseText request.query.token "")
    request.query.imei frontend.service.settings.tokenBindImei draws.verifiedAt record

/-- `verify_authorization` accepts the header, for a B-TID whose `impi` has `user` before the `@`. -/
structure GbaVerifies (user : String) : Prop where
  enabled : frontend.service.gbaEnabled = true
  accepted : ∃ authorization check keys,
    request.headers.lookup "authorization" = some authorization ∧
    frontend.authorizationCheck request authorization checkedAt = .ok check ∧ check.ok = true ∧
    frontend.bsf 1 check.btid frontend.service.gbaRealm = .ok (some keys) ∧
    userPart keys.impi = user

/-- The ways in which a request proves to be the subscriber's. -/
inductive Proof (s₀ : σ) (s : Subscriber) : Prop
  | token (record : TokenRecord) (htoken : orElseText request.query.token "" ≠ "")
    (hverifies : TokenVerifies step frontend request draws s₀ record)
    (himsi : record.imsi = s.imsi)
  | enrichment (htoken : orElseText request.query.token "" = "")
    (hasserted : Enrichment.Asserted frontend.py frontend.lower frontend.service.settings
      request.headers request.peer (request.headers.lookup "x-forwarded-for")
      frontend.enrichmentHeaderName frontend.trustedProxyList s.msisdn)
  | gba (htoken : orElseText request.query.token "" = "")
    (hmsisdn : orElseText (frontend.enriched request) "" = "")
    (hverifies : GbaVerifies frontend request checkedAt s.imsi)
  | otp (htoken : orElseText request.query.token "" = "")
    (hmsisdn : orElseText (frontend.enriched request) "" = "")
    (hverified : ((Otp.verifyChallenge frontend.service.sha256 frontend.service.policy s.msisdn
      (orElseText request.query.otp "") none draws.verifiedAt).eval step
        ((lookupCandidate request.query).eval step s₀).2).1 = .verified)

structure OnlyClaims : Prop where
  token : orElseText request.query.token "" = ""
  otp : orElseText request.query.otp "" = ""
  enrichment : Enrichment.headerValue frontend.lower request.headers
    frontend.enrichmentHeaderName = none
  authorization : request.headers.lookup "authorization" = none

/-- A document goes only to an entitled subscriber, as its record calls for, and with proof; a token
that does not verify and bare claims get none. -/
structure ConfigurationProven (s₀ : σ) : Prop where
  served : ∀ doc, bodyOf ((frontend.handle request checkedAt draws).eval step s₀).1 = some doc →
    ∃ s, identityRead ((frontend.handle request checkedAt draws).events step s₀) = some s ∧
      s.entitled = true ∧ frontend.service.documentFor s request.query draws = .ok doc ∧
      Proof step frontend request checkedAt draws s₀ s
  token : orElseText request.query.token "" ≠ "" →
    (¬ ∃ record, TokenVerifies step frontend request draws s₀ record) →
      bodyOf ((frontend.handle request checkedAt draws).eval step s₀).1 = none
  claims : OnlyClaims frontend request →
    bodyOf ((frontend.handle request checkedAt draws).eval step s₀).1 = none

/-- The number a gateway asserts still leads to an entitled subscriber that has another number by
now, and a document can be built for it. -/
structure ServedByStaleNumber (s₀ : σ) (s : Subscriber) : Prop where
  token : orElseText request.query.token "" = ""
  asserted : orElseText (frontend.enriched request) "" ≠ ""
  read : (step (.getSubscriberByMsisdn (orElseText (frontend.enriched request) "")) s₀).1 = some s
  stale : s.msisdn ≠ orElseText (frontend.enriched request) ""
  entitled : s.entitled = true
  buildable : ∃ doc, frontend.service.documentFor s request.query draws = .ok doc

end Proof

section Lemmas
variable {σ : Type} {step : (op : StoreOp) → σ → op.Answer × σ} {frontend : Frontend}
  {request : HttpRequest} {checkedAt : Clock} {draws : Draws} {s₀ : σ} {s : Subscriber}
  {evidence : Evidence} {doc : ProvisioningDoc}

variable (draws step s₀) in
theorem eval_handle (hevidence : frontend.evidence request checkedAt = .ok evidence) :
    bodyOf ((frontend.handle request checkedAt draws).eval step s₀).1 =
        ProvisioningService.bodyOf
          ((frontend.service.handle request.query evidence draws).eval step s₀).1 ∧
      (frontend.handle request checkedAt draws).events step s₀ =
        (frontend.service.handle request.query evidence draws).events step s₀ := by
  unfold handle
  rw [hevidence]
  dsimp only
  rw [Program.eval_bind, Program.events_bind]
  generalize (frontend.service.handle request.query evidence draws).eval step s₀ = answered
  obtain ⟨result, s₁⟩ := answered
  cases result with
  | error e => exact ⟨rfl, List.append_nil _⟩
  | ok outcome => exact ⟨rfl, List.append_nil _⟩

variable (checkedAt) in
theorem evidence_of_enriched (htoken : orElseText request.query.token "" = "")
    (hmsisdn : orElseText (frontend.enriched request) "" ≠ "") :
    frontend.evidence request checkedAt =
      .ok { enrichedMsisdn := some (orElseText (frontend.enriched request) "") } := by
  unfold evidence
  rw [if_neg (not_not.mpr htoken)]
  split
  · next hempty => exact absurd hempty hmsisdn
  · rfl

theorem gbaVerifies_of_checkGba (henabled : frontend.service.gbaEnabled = true) {user : String}
    (h : frontend.checkGba request checkedAt = .ok (some (.verified user))) :
    GbaVerifies frontend request checkedAt user := by
  unfold checkGba at h
  split at h
  · cases h
  · next hne =>
    obtain ⟨check, hcheck, h⟩ := Except.bind_eq_ok.mp h
    split_ifs at h with hok
    · cases h
    · obtain ⟨found, hfound, h⟩ := Except.bind_eq_ok.mp h
      cases found with
      | none => cases h
      | some keys =>
        refine ⟨henabled, _, check, keys, ?_, hcheck, by simpa using hok, hfound, by cases h; rfl⟩
        cases hheader : request.headers.lookup "authorization" with
        | none => simp [hheader] at hne
        | some authorization => rfl

theorem evidence_cases (h : frontend.evidence request checkedAt = .ok evidence) :
    orElseText request.query.token "" ≠ "" ∨
    (orElseText request.query.token "" = "" ∧ orElseText (frontend.enriched request) "" ≠ "" ∧
      evidence = { enrichedMsisdn := some (orElseText (frontend.enriched request) "") }) ∨
    (orElseText request.query.token "" = "" ∧ orElseText (frontend.enriched request) "" = "" ∧
      evidence.enrichedMsisdn = none ∧
      ∀ user, evidence.gba = some (.verified user) →
        GbaVerifies frontend request checkedAt user) := by
  by_cases htoken : orElseText request.query.token "" = ""
  · by_cases hmsisdn : orElseText (frontend.enriched request) "" = ""
    · refine Or.inr (Or.inr ⟨htoken, hmsisdn, ?_⟩)
      unfold Frontend.evidence at h
      rw [if_neg (not_not.mpr htoken), hmsisdn] at h
      split_ifs at h with henabled
      · obtain ⟨gba, hgba, rfl⟩ := Except.map_eq_ok.mp h
        exact ⟨rfl, fun user huser => gbaVerifies_of_checkGba henabled (huser ▸ hgba)⟩
      · cases h
        exact ⟨rfl, nofun⟩
    · rw [evidence_of_enriched _ htoken hmsisdn] at h
      exact Or.inr (Or.inl ⟨htoken, hmsisdn, (Except.ok.inj h).symm⟩)
  · exact Or.inl htoken

theorem proof_of_authenticated (hevidence : frontend.evidence request checkedAt = .ok evidence)
    {method : IdentityMethod}
    (h : Authenticated step frontend.service request.query evidence draws s₀ s method)
    (hkeyed : ∀ imsi x, (step (.getSubscriber imsi) s₀).1 = some x → x.imsi = imsi)
    (hpure : ∀ tokenHash, (step (.getToken tokenHash) s₀).2 = s₀) :
    Proof step frontend request checkedAt draws s₀ s ∨
      orElseText request.query.token "" = "" ∧ orElseText (frontend.enriched request) "" ≠ "" ∧
        (step (.getSubscriberByMsisdn (orElseText (frontend.enriched request) "")) s₀).1 = some s ∧
        s.msisdn ≠ orElseText (frontend.enriched request) "" := by
  cases h with
  | named hnamed hentitled =>
    cases hnamed with
    | token record s₁ htoken hfor =>
      have hs₁ : s₁ = s₀ := by
        rw [← hpure (Token.hashToken frontend.service.sha256 (orElseText request.query.token "")),
          hfor.found]
      have hholder := hfor.holder
      rw [hs₁] at hholder
      exact Or.inl (.token record htoken ⟨congrArg Prod.fst hfor.found, hfor.accepts⟩
        (hkeyed _ _ hholder).symm)
    | enrichment htoken hmsisdn hread =>
      rcases evidence_cases hevidence with hne | ⟨-, hasserted, rfl⟩ | ⟨-, -, hnone, -⟩
      · exact absurd htoken hne
      · have hnumber : orElseText (some (orElseText (frontend.enriched request) "")) "" =
            orElseText (frontend.enriched request) "" := if_neg hasserted
        dsimp only at hread
        rw [hnumber] at hread
        -- the index may name a record that has another number by now
        by_cases hstale : s.msisdn = orElseText (frontend.enriched request) ""
        · refine Or.inl (.enrichment htoken (Enrichment.asserted_of_resolve ?_))
          rw [hstale]
          exact Enrichment.orElseText_ne hasserted
        · exact Or.inr ⟨htoken, hasserted, hread, hstale⟩
      · rw [hnone] at hmsisdn
        exact absurd rfl hmsisdn
    | gba user htoken hmsisdn hgba hread =>
      rcases evidence_cases hevidence with hne | ⟨-, hasserted, rfl⟩ | ⟨-, hempty, -, hverifies⟩
      · exact absurd htoken hne
      · cases hgba
      · have huser := hkeyed _ _ hread
        exact Or.inl (.gba htoken hempty (huser ▸ hverifies user hgba))
  | otp hclaims hentitled hverified =>
    rcases evidence_cases hevidence with hne | ⟨-, hasserted, rfl⟩ | ⟨-, hempty, -, -⟩
    · exact absurd hclaims.token hne
    · have hnumber : orElseText (some (orElseText (frontend.enriched request) "")) "" =
          orElseText (frontend.enriched request) "" := if_neg hasserted
      exact absurd (hnumber.symm.trans hclaims.enriched) hasserted
    · exact Or.inl (.otp hclaims.token hempty hverified)

theorem authenticated_of_body
    (h : ProvisioningService.bodyOf
      ((frontend.service.handle request.query evidence draws).eval step s₀).1 = some doc) :
    ∃ s method, Authenticated step frontend.service request.query evidence draws s₀ s method ∧
      s.entitled = true ∧
      identityRead ((frontend.service.handle request.query evidence draws).events step s₀) =
        some s ∧
      frontend.service.documentFor s request.query draws = .ok doc := by
  rcases handle_cases frontend.service step s₀ request.query draws evidence with
    ⟨s, method, hresolved, heval, hevents⟩ | ⟨-, hbody, -⟩
  · have hauthenticated := eval_resolveIdentity.mp hresolved
    rw [heval, bodyOf_serveConfiguration] at h
    refine ⟨s, method, hauthenticated, ?_, ?_, ?_⟩
    · cases hauthenticated <;> assumption
    · rw [hevents]
      exact identityRead_kept _ (identityRead_of_authenticated hresolved)
    · cases hdoc : frontend.service.documentFor s request.query draws with
      | error e => simp [hdoc, Except.toOption] at h
      | ok doc' => simpa [hdoc, Except.toOption] using h
  · rw [hbody] at h
    cases h

theorem served_cases (h : bodyOf ((frontend.handle request checkedAt draws).eval step s₀).1 =
    some doc) :
    ∃ evidence s method, frontend.evidence request checkedAt = .ok evidence ∧
      Authenticated step frontend.service request.query evidence draws s₀ s method ∧
      s.entitled = true ∧
      identityRead ((frontend.handle request checkedAt draws).events step s₀) = some s ∧
      frontend.service.documentFor s request.query draws = .ok doc := by
  cases hevidence : frontend.evidence request checkedAt with
  | error e =>
    unfold handle at h
    rw [hevidence] at h
    cases h
  | ok evidence =>
    obtain ⟨hbody, hevents⟩ := eval_handle step draws s₀ hevidence
    obtain ⟨s, method, hauth, hentitled, hread, hdoc⟩ := authenticated_of_body (hbody ▸ h)
    exact ⟨evidence, s, method, rfl, hauth, hentitled, hevents ▸ hread, hdoc⟩

variable (checkedAt) in
theorem served_of_stale (h : ServedByStaleNumber step frontend request draws s₀ s) :
    ∃ doc, bodyOf ((frontend.handle request checkedAt draws).eval step s₀).1 = some doc ∧
      identityRead ((frontend.handle request checkedAt draws).events step s₀) = some s := by
  have hevidence := evidence_of_enriched checkedAt h.token h.asserted
  obtain ⟨hbody, hevents⟩ := eval_handle step draws s₀ hevidence
  have hnumber : orElseText (some (orElseText (frontend.enriched request) "")) "" =
      orElseText (frontend.enriched request) "" := if_neg h.asserted
  have hnamed : Named step frontend.service request.query
      { enrichedMsisdn := some (orElseText (frontend.enriched request) "") } draws s₀ s
        .enrichment :=
    .enrichment h.token (by rw [hnumber]; exact h.asserted) (by rw [hnumber]; exact h.read)
  have hresolved := eval_resolveIdentity.mpr (.named hnamed h.entitled)
  rcases handle_cases frontend.service step s₀ request.query draws _ with
    ⟨s', method, hresolved', heval, hserved⟩ | ⟨hnone, -, -⟩
  · obtain ⟨rfl, rfl⟩ : s = s' ∧ _ = method := by simpa using hresolved.symm.trans hresolved'
    obtain ⟨doc, hdoc⟩ := h.buildable
    refine ⟨doc, ?_, ?_⟩
    · rw [hbody, heval, bodyOf_serveConfiguration, hdoc]
      rfl
    · rw [hevents, hserved]
      exact identityRead_kept _ (identityRead_of_authenticated hresolved)
  · exact absurd hresolved (hnone s .enrichment)

/-- On a store that keeps subscribers under their IMSI: what a request is given is proven, exactly
if no stale number serves it. -/
theorem configurationProven_iff
    (hkeyed : ∀ imsi x, (step (.getSubscriber imsi) s₀).1 = some x → x.imsi = imsi)
    (hpure : ∀ tokenHash, (step (.getToken tokenHash) s₀).2 = s₀) :
    ConfigurationProven step frontend request checkedAt draws s₀ ↔
      ¬ ∃ s, ServedByStaleNumber step frontend request draws s₀ s := by
  constructor
  · rintro hproven ⟨s, hstale⟩
    obtain ⟨doc, hbody, hread⟩ := served_of_stale checkedAt hstale
    obtain ⟨s', hread', -, -, hproof⟩ := hproven.served doc hbody
    obtain rfl := Option.some.inj (hread.symm.trans hread')
    cases hproof with
    | token record htoken _ _ => exact htoken hstale.token
    | enrichment _ hasserted =>
      -- the header names one number only, and it is not this one
      obtain ⟨raw, hraw, hnumber⟩ := hasserted.named
      obtain ⟨⟨raw', hraw', hnumber'⟩, -⟩ :=
        Enrichment.asserted_of_resolve (Enrichment.orElseText_ne hstale.asserted)
      obtain rfl := Option.some.inj (hraw.symm.trans hraw')
      exact hstale.stale (Option.some.inj (hnumber.symm.trans hnumber'))
    | gba _ hempty _ => exact hstale.asserted hempty
    | otp _ hempty _ => exact hstale.asserted hempty
  · intro hnone
    refine ⟨fun doc hdoc => ?_, fun htoken hunverified => ?_, fun hclaims => ?_⟩
    · obtain ⟨evidence, s, method, hevidence, hauth, hentitled, hread, hdoc'⟩ := served_cases hdoc
      refine ⟨s, hread, hentitled, hdoc', ?_⟩
      refine (proof_of_authenticated hevidence hauth hkeyed hpure).resolve_right ?_
      rintro ⟨htoken, hasserted, hread', hstale⟩
      exact hnone ⟨s, htoken, hasserted, hread', hstale, hentitled, doc, hdoc'⟩
    · refine Option.eq_none_iff_forall_ne_some.mpr fun doc hdoc => hunverified ?_
      obtain ⟨evidence, s, method, -, hauth, -⟩ := served_cases hdoc
      cases hauth with
      | named hnamed _ =>
        cases hnamed with
        | token record s₁ _ hfor => exact ⟨record, congrArg Prod.fst hfor.found, hfor.accepts⟩
        | enrichment hempty _ _ => exact absurd hempty htoken
        | gba _ hempty _ _ _ => exact absurd hempty htoken
      | otp hclaims _ _ => exact absurd hclaims.token htoken
    · refine Option.eq_none_iff_forall_ne_some.mpr fun doc hdoc => ?_
      obtain ⟨evidence, s, method, hevidence, hauth, -⟩ := served_cases hdoc
      have hnumber : orElseText (frontend.enriched request) "" = "" := by
        by_contra hasserted
        obtain ⟨⟨raw, hraw, -⟩, -⟩ :=
          Enrichment.asserted_of_resolve (Enrichment.orElseText_ne hasserted)
        cases hraw.symm.trans hclaims.enrichment
      rcases evidence_cases hevidence with hne | ⟨-, hasserted, -⟩ | ⟨-, -, hnone, hverifies⟩
      · exact hne hclaims.token
      · exact hasserted hnumber
      · cases hauth with
        | named hnamed _ =>
          cases hnamed with
          | token _ _ htoken _ => exact htoken hclaims.token
          | enrichment _ hmsisdn _ =>
            rw [hnone] at hmsisdn
            exact hmsisdn rfl
          | gba user _ _ hgba _ =>
            obtain ⟨-, authorization, -, -, hheader, -⟩ := hverifies user hgba
            cases hheader.symm.trans hclaims.authorization
        | otp hcode _ _ => exact hcode.otp hclaims.otp

end Lemmas

def reached {Op σ : Type} {Answer : Op → Type} (exec : (op : Op) → σ → Answer op × σ) (empty : σ)
    (ops : List Op) : σ := ops.foldl (fun s op => (exec op s).2) empty

theorem reached_invariant {Op σ : Type} {Answer : Op → Type}
    {exec : (op : Op) → σ → Answer op × σ} {P : σ → Prop} (hexec : ∀ op s, P s → P (exec op s).2)
    {empty : σ} (hempty : P empty) (ops : List Op) : P (reached exec empty ops) := by
  unfold reached
  induction ops using List.reverseRecOn with
  | nil => exact hempty
  | append_singleton ops op ih =>
    rw [List.foldl_concat]
    exact hexec op _ ih

def MemoryKeyed (m : MemoryStore) : Prop := ∀ imsi x, m.subscribers imsi = some x → x.imsi = imsi

theorem memoryKeyed_exec (op : StoreOp) (m : MemoryStore) (h : MemoryKeyed m) :
    MemoryKeyed (MemoryStore.exec op m).2 := by
  cases op with
  | putSubscriber x clock => exact OnDynamo.keyed_update h fun y hy => Option.some.inj hy ▸ rfl
  | deleteSubscriber imsi =>
    simp only [MemoryStore.exec, MemoryStore.deleteSubscriber]
    cases m.subscribers imsi with
    | none => exact h
    | some x => exact OnDynamo.keyed_update h fun _ hy => (by cases hy)
  | editSubscriber x =>
    simp only [MemoryStore.exec, MemoryStore.editSubscriber]
    cases m.subscribers x.imsi with
    | none => exact h
    | some _ => exact OnDynamo.keyed_update h fun y hy => Option.some.inj hy ▸ rfl
  | issueOtp c cooldown cap now clock =>
    simp only [MemoryStore.exec, MemoryStore.issueOtp]
    split <;> exact h
  | replaceOtp expected replacement =>
    simp only [MemoryStore.exec, MemoryStore.replaceOtp]
    cases m.otp expected.msisdn with
    | none => exact h
    | some c =>
      dsimp only
      split_ifs <;> exact h
  | _ => exact h

/-- In every state that any requests can lead to, on each store: what a request is given is proven
exactly if no stale number serves it. -/
theorem configuration_proven_iff (frontend : Frontend) (request : HttpRequest) (checkedAt : Clock)
    (draws : Draws) (gsi : Gsi) (faults : Nat → Option ClientError) :
    (∀ ops : List StoreOp,
      ConfigurationProven MemoryStore.exec frontend request checkedAt draws
          (reached MemoryStore.exec {} ops) ↔
        ¬ ∃ s, ServedByStaleNumber MemoryStore.exec frontend request draws
          (reached MemoryStore.exec {} ops) s) ∧
    (∀ items : List ItemOp,
      ConfigurationProven (DynamoDb.run gsi faults) frontend request checkedAt draws
          (reached (DynamoTable.exec gsi) {} items) ↔
        ¬ ∃ s, ServedByStaleNumber (DynamoDb.run gsi faults) frontend request draws
          (reached (DynamoTable.exec gsi) {} items) s) := by
  constructor
  · intro ops
    have hempty : MemoryKeyed {} := by
      intro imsi x h
      cases h
    have hkeyed := reached_invariant memoryKeyed_exec hempty ops
    exact configurationProven_iff hkeyed fun _ => rfl
  · intro items
    have hempty : OnDynamo.Keyed {} := by
      intro imsi x h
      cases h
    have hkeyed : OnDynamo.Keyed (reached (DynamoTable.exec gsi) {} items) :=
      reached_invariant (P := OnDynamo.Keyed) (fun op _ h => h.exec op) hempty items
    refine configurationProven_iff hkeyed fun tokenHash => ?_
    change ((DynamoDb.getToken tokenHash).eval (DynamoTable.exec gsi) _).2 = _
    unfold DynamoDb.getToken
    rw [Program.perform_bind, Program.eval_call]
    cases (DynamoTable.exec gsi (.getToken tokenHash) (reached (DynamoTable.exec gsi) {} items)).1
      <;> rfl

def asciiLower (s : String) : String := String.ofList (s.toList.map Char.toLower)

/-- A subscriber whose number was changed from the console is still served by the old one, which
its gateway now asserts for somebody else. -/
theorem configuration_not_proven :
    let edits : List MsisdnIndex.Request :=
      [.adminPut "450051234567890" { msisdn := "+821012345678" } ⟨1700000000, by decide⟩,
       .consoleUpdate "450051234567890" "+821087654321" "" "" "" "on" "on" ⟨1700000050, by decide⟩]
    let store := edits.foldl (MsisdnIndex.memoryDirectory.handle asciiText {} id) {}
    let frontend : Frontend :=
      { service := OnDynamo.labService, lower := asciiLower, trustedProxyCidrs := "10.0.0.0/8"
        crypto := ⟨fun _ => none, id, fun _ _ => "", fun _ => ""⟩ }
    let request : HttpRequest :=
      { query := { vers := 1, imei := some "356938035643809" }, peer := some "10.0.0.7"
        headers := [("x-3gpp-intended-identity", "tel:+821012345678")] }
    ¬ ConfigurationProven MemoryStore.exec frontend request ⟨1700000100, by decide⟩
      (OnDynamo.labRequest "s3cret" (by decide)).draws store := by
  intro edits store frontend request h
  have hbody : (bodyOf ((frontend.handle request ⟨1700000100, by decide⟩
      (OnDynamo.labRequest "s3cret" (by decide)).draws).eval MemoryStore.exec store).1).isSome := by
    decide
  obtain ⟨doc, hdoc⟩ := Option.isSome_iff_exists.mp hbody
  obtain ⟨s, hread, -, -, hproof⟩ := h.served doc hdoc
  have hnow : (identityRead ((frontend.handle request ⟨1700000100, by decide⟩
      (OnDynamo.labRequest "s3cret" (by decide)).draws).events MemoryStore.exec store)).map
        Subscriber.msisdn = some "+821087654321" := by
    decide
  rw [hread, Option.map_some, Option.some.injEq] at hnow
  cases hproof with
  | token _ htoken _ _ => exact htoken rfl
  | enrichment _ hasserted =>
    obtain ⟨raw, hraw, hnumber⟩ := hasserted.named
    have hheader : Enrichment.headerValue frontend.lower request.headers
        frontend.enrichmentHeaderName = some "tel:+821012345678" := by decide
    obtain rfl := Option.some.inj (hheader.symm.trans hraw)
    rw [hnow] at hnumber
    revert hnumber
    decide
  | gba _ hmsisdn _ =>
    revert hmsisdn
    decide
  | otp _ hmsisdn _ =>
    revert hmsisdn
    decide

end Acs.Frontend
