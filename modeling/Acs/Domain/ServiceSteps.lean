import Mathlib
import Acs.Domain.Service

/-! What one configuration request may do to the store, given what it has read of it so far. -/

namespace Acs.ProvisioningService
open Interleave

abbrev StoreEvents := List (Event StoreOp.Answer)

def readOf : Event StoreOp.Answer → Option Subscriber
  | ⟨.getSubscriber _, found⟩ => found
  | ⟨.getSubscriberByMsisdn _, found⟩ => found
  | _ => none

def identityRead (h : StoreEvents) : Option Subscriber := h.findSome? readOf

def Quiet : StoreOp → Prop
  | .editSubscriber _ => True
  | .getOtp _ => True
  | .issueOtp .. => True
  | .replaceOtp .. => True
  | .getToken _ => True
  | .getDevice _ => True
  | .putDevice _ => True
  | _ => False

/-- A record as the request may write it back: a new version, and a DM password where there was
none. -/
structure Derived (draws : Draws) (s x : Subscriber) : Prop where
  imsi : x.imsi = s.imsi
  forcedVers : x.forcedVers = none
  dmPassword : x.dmPassword = s.dmPassword ∨ s.dmPassword = "" ∧ x.dmPassword = draws.dmPassword

/-- The operations of a request after the events `h`: only for a subscriber that it read without a
forced version does it write anything. -/
def Allowed (draws : Draws) (h : StoreEvents) : StoreOp → Prop
  | .putSubscriber x _ => ∃ s, identityRead h = some s ∧ s.forcedVers = none ∧ Derived draws s x
  | .putToken r =>
    ∃ s, identityRead h = some s ∧ s.forcedVers = none ∧ r.imsi = s.imsi ∧ r.revoked = false
  | .deleteSubscriber _ => False
  | .revokeToken _ => False
  | .revokeTokensForImsi _ => False
  | _ => True

/-- The DM account an answer carries is that of the subscriber read, under the password read or
one that the request put first. -/
structure Accounted (settings : Settings) (h : StoreEvents) (c : Characteristic) (s : Subscriber)
    (secret : String) : Prop where
  read : identityRead h = some s
  built : ∃ values, c = Builder.dmAccountCharacteristic settings ⟨s.imsi, values⟩ secret
  ne : secret ≠ ""
  stored : secret = s.dmPassword ∨
    ∃ x clock, ⟨.putSubscriber x clock, ()⟩ ∈ h ∧ x.imsi = s.imsi ∧ x.dmPassword = secret

def Delivers (settings : Settings) (h : StoreEvents) :
    Except ServiceError ProvisioningOutcome → Prop
  | .ok outcome => ∀ doc, outcome.body = some doc → ∀ c ∈ doc.characteristics,
    c.isApplication appIdDmAccount = true → ∃ s secret, Accounted settings h c s secret
  | .error _ => True

theorem readOf_quiet {e : Event StoreOp.Answer} (h : Quiet e.1) : readOf e = none := by
  obtain ⟨op, ans⟩ := e
  cases op <;> first | rfl | exact h.elim

theorem allowed_quiet (draws : Draws) (h : StoreEvents) (op : StoreOp) (hop : Quiet op) :
    Allowed draws h op := by
  cases op <;> first | exact trivial | exact hop.elim

theorem identityRead_append (h es : StoreEvents) :
    identityRead (h ++ es) = (identityRead h).or (identityRead es) := List.findSome?_append ..

theorem identityRead_quiet {h es : StoreEvents} (hes : ∀ e ∈ es, Quiet e.1) :
    identityRead (h ++ es) = identityRead h := by
  have hnone : identityRead es = none :=
    List.findSome?_eq_none_iff.mpr fun e he => readOf_quiet (hes e he)
  rw [identityRead_append, hnone, Option.or_none]

theorem identityRead_snoc {h : StoreEvents} {e : Event StoreOp.Answer} (hnone : identityRead h = none) :
    identityRead (h ++ [e]) = readOf e := by
  rw [identityRead_append, hnone, Option.none_or, identityRead]
  cases hread : readOf e <;> simp [hread]

theorem identityRead_kept {h : StoreEvents} {s : Subscriber} (es : StoreEvents)
    (hs : identityRead h = some s) : identityRead (h ++ es) = some s := by
  rw [identityRead_append, hs, Option.some_or]

/-! ### The identity chain -/

section Resolve
variable (service : ProvisioningService) {draws : Draws} {h : StoreEvents}

def Resolves (h : StoreEvents) : Except ServiceError Identity → Prop
  | .ok (.authenticated s _) => identityRead h = some s
  | _ => True

theorem resolves_entitledOr {s : Subscriber} (detail : String) (method : IdentityMethod)
    (hs : identityRead h = some s) : Resolves h (.ok (entitledOr s detail method)) := by
  unfold entitledOr
  split_ifs
  · exact hs
  · trivial

theorem verifyToken_uses {Q : StoreOp → Prop} (hget : ∀ tokenHash, Q (.getToken tokenHash))
    (sha256 : String → String) (token : String) (imei : Option String) (bindImei : Bool)
    (clock : Clock) : (Token.verifyToken sha256 token imei bindImei clock).Uses Q := by
  unfold Token.verifyToken
  split_ifs
  · trivial
  · refine Program.Uses.bind ⟨hget _, fun _ => trivial⟩ fun found => ?_
    match found with
    | .error e => trivial
    | .ok none => trivial
    | .ok (some r) =>
      dsimp only
      split_ifs <;> trivial

theorem verifyFrom_uses {Q : StoreOp → Prop} (hget : ∀ msisdn, Q (.getOtp msisdn))
    (hreplace : ∀ e r, Q (.replaceOtp e r)) (sha256 : String → String) (policy : OtpPolicy)
    (msisdn otp : String) (current : Int) (clock : Clock) (rounds : Nat) :
    (Otp.verifyFrom sha256 policy msisdn otp current clock rounds).Uses Q := by
  induction rounds with
  | zero => trivial
  | succ rounds ih =>
    refine Program.Uses.bind ⟨hget _, fun _ => trivial⟩ fun found => ?_
    match found with
    | none => trivial
    | some challenge =>
      dsimp only
      split_ifs
      · trivial
      · exact ⟨hreplace _ _, fun _ => trivial⟩
      · exact ⟨hreplace _ _, fun _ => trivial⟩
      · refine Program.Uses.bind ⟨hreplace _ _, fun _ => trivial⟩ fun swapped => ?_
        cases swapped
        · exact ih
        · trivial

theorem discardFrom_uses {Q : StoreOp → Prop} (hget : ∀ msisdn, Q (.getOtp msisdn))
    (hreplace : ∀ e r, Q (.replaceOtp e r)) (challenge : OtpChallenge) (rounds : Nat) :
    (Otp.discardFrom challenge rounds).Uses Q := by
  induction rounds with
  | zero => trivial
  | succ rounds ih =>
    refine Program.Uses.bind ⟨hget _, fun _ => trivial⟩ fun found => ?_
    match found with
    | none => trivial
    | some current =>
      dsimp only
      split_ifs
      · refine Program.Uses.bind ⟨hreplace _ _, fun _ => trivial⟩ fun swapped => ?_
        cases swapped
        · exact ih
        · trivial
      · trivial

theorem resolveByToken_obeys (token : String) (query : ConfigQuery) (hnone : identityRead h = none) :
    (service.resolveByToken token query draws).Obeys (Allowed draws) Resolves h := by
  apply (verifyToken_uses (Q := Quiet) (fun _ => trivial) ..).obeys_bind (allowed_quiet draws)
  intro es found hes
  match found with
  | .error e => trivial
  | .ok none => trivial
  | .ok (some record) =>
    refine ⟨trivial, fun stored => ?_⟩
    cases stored with
    | none => trivial
    | some s =>
      apply resolves_entitledOr
      exact identityRead_snoc ((identityRead_quiet hes).trans hnone)

theorem lookupCandidate_obeys {β : Type} {post : StoreEvents → β → Prop}
    {k : Option Subscriber → StoreProgram β} (query : ConfigQuery) (hnone : identityRead h = none)
    (hk : ∀ h' found, (∀ s, found = some s → identityRead h' = some s) →
      (k found).Obeys (Allowed draws) post h') :
    (lookupCandidate query >>= k).Obeys (Allowed draws) post h := by
  have hnobody : ∀ h', Program.Obeys (Allowed draws) post (k none) h' :=
    fun h' => hk h' none fun s hs => (by cases hs)
  have hmsisdn : ∀ h' msisdn, identityRead h' = none →
      Program.Obeys (Allowed draws) post (Store.getSubscriberByMsisdn msisdn >>= k) h' :=
    fun h' msisdn hnone' =>
      ⟨trivial, fun found => hk _ found fun s hs => hs ▸ identityRead_snoc hnone'⟩
  unfold lookupCandidate
  dsimp only
  split
  · split
    · exact hnobody h
    · exact hmsisdn h _ hnone
  · refine ⟨trivial, fun found => ?_⟩
    cases found with
    | some s => exact hk _ (some s) fun s' hs' => hs' ▸ identityRead_snoc hnone
    | none =>
      dsimp only
      split
      · exact hnobody _
      · exact hmsisdn _ _ (identityRead_snoc hnone)

theorem resolveClaim_obeys (query : ConfigQuery) (hnone : identityRead h = none) :
    (service.resolveClaim query draws).Obeys (Allowed draws) Resolves h := by
  apply lookupCandidate_obeys query hnone
  intro h' found hfound
  cases found with
  | none => trivial
  | some s =>
    dsimp only
    split_ifs
    · trivial
    · trivial
    · split
      · trivial
      · apply (verifyFrom_uses (Q := Quiet) (fun _ => trivial) (fun _ _ => trivial) ..).obeys_bind
          (allowed_quiet draws)
        intro es outcome hes
        cases outcome with
        | verified => exact (identityRead_quiet hes).trans (hfound s rfl)
        | _ => trivial

theorem resolveGba_obeys (check : GbaCheck) (hnone : identityRead h = none) :
    (resolveGba check).Obeys (Allowed draws) Resolves h := by
  cases check with
  | rejected detail => trivial
  | verified imsi =>
    refine ⟨trivial, fun stored => ?_⟩
    cases stored with
    | none => trivial
    | some s => exact resolves_entitledOr _ _ (identityRead_snoc hnone)

theorem resolveIdentity_obeys (query : ConfigQuery) (evidence : Evidence) :
    (service.resolveIdentity query evidence draws).Obeys (Allowed draws) Resolves [] := by
  have hread : ∀ {op : StoreOp} {s : Subscriber} {ans : op.Answer}, readOf ⟨op, ans⟩ = some s →
      identityRead ([] ++ [⟨op, ans⟩]) = some s := fun hs => (identityRead_snoc rfl).trans hs
  unfold resolveIdentity
  split
  · split
    · split
      · next check _ => exact resolveGba_obeys check rfl
      · exact service.resolveClaim_obeys query rfl
    · refine ⟨trivial, fun stored => ?_⟩
      cases stored with
      | none => trivial
      | some s => exact resolves_entitledOr _ _ (hread rfl)
  · exact service.resolveByToken_obeys _ query rfl

end Resolve

/-! ### The answers -/

section Answer
variable (service : ProvisioningService) {draws : Draws} {h : StoreEvents} {settings : Settings}

theorem delivers_bodyless {outcome : ProvisioningOutcome} (hbody : outcome.body = none) :
    Delivers settings h (.ok outcome) := by
  intro doc hdoc
  rw [hbody] at hdoc
  cases hdoc

theorem delivers_versOnly {outcome : ProvisioningOutcome} {version validity : Int}
    (hbody : outcome.body = some (Builder.buildVersOnlyDocument version validity)) :
    Delivers settings h (.ok outcome) := by
  intro doc hdoc c hc haccount
  rw [hbody] at hdoc
  obtain rfl := Option.some.inj hdoc
  have hvers : c = Builder.versCharacteristic version validity := by
    simpa [Builder.buildVersOnlyDocument, ProvisioningDoc.add] using hc
  subst hvers
  simp [Characteristic.isApplication, Builder.versCharacteristic, Characteristic.addParm]
    at haccount

theorem createChallenge_uses {Q : StoreOp → Prop}
    (hissue : ∀ c cooldown cap now clock, Q (.issueOtp c cooldown cap now clock))
    (sha256 : String → String) (policy : OtpPolicy) (msisdn imsi : String)
    (smsPort now : Option Int) (clock : Clock) (otp challengeId : String) :
    (Otp.createChallenge sha256 policy msisdn imsi smsPort now clock otp challengeId).Uses Q := by
  unfold Otp.createChallenge
  refine Program.Uses.bind ⟨hissue _ _ _ _ _, fun _ => trivial⟩ fun refused => ?_
  match refused with
  | .error e => trivial
  | .ok (some r) => trivial
  | .ok none => trivial

theorem issueOtp_obeys (subscriber : Subscriber) (candidateMsisdn : String) (query : ConfigQuery) :
    (service.issueOtp subscriber candidateMsisdn query draws).Obeys (Allowed draws)
      (Delivers settings) h := by
  have hdiscard : ∀ challenge, (Otp.discardChallenge challenge).Uses Quiet := fun challenge =>
    discardFrom_uses (fun _ => trivial) (fun _ _ => trivial) challenge _
  unfold issueOtp
  apply (createChallenge_uses (Q := Quiet) (fun _ _ _ _ _ => trivial) ..).obeys_bind
    (allowed_quiet draws)
  intro es created hes
  match created with
  | .error (.sendBlocked .cooldown _) => exact delivers_bodyless rfl
  | .error (.sendBlocked .dailyQuota _) => exact delivers_bodyless rfl
  | .error (.store .otpStoreContention) => exact delivers_bodyless rfl
  | .error (.store .clientError) => trivial
  | .error (.store .typeError) => trivial
  | .error (.store .inexactNumber) => trivial
  | .ok (challenge, _) =>
    dsimp only
    cases draws.sms with
    | sent => exact delivers_bodyless rfl
    | deliveryFailed =>
      exact (hdiscard challenge).obeys_bind (allowed_quiet draws)
        fun _ _ _ => delivers_bodyless rfl
    | unsupportedDelivery =>
      exact (hdiscard challenge).obeys_bind (allowed_quiet draws)
        fun _ _ _ => delivers_bodyless rfl

theorem recordDevice_uses (subscriber : Subscriber) (query : ConfigQuery) (clock : Clock) :
    (recordDevice subscriber query clock).Uses Quiet :=
  ⟨trivial, fun _ => ⟨trivial, fun _ => trivial⟩⟩

/-- Where the password of the record `x` comes from: the identity, or a put of the request. -/
def Backed (h : StoreEvents) (s x : Subscriber) : Prop :=
  x.dmPassword = s.dmPassword ∨
    ∃ y clock, ⟨.putSubscriber y clock, ()⟩ ∈ h ∧ y.imsi = s.imsi ∧ y.dmPassword = x.dmPassword

theorem deliver_obeys {s : Subscriber} (x : Subscriber) (query : ConfigQuery) (method : IdentityMethod)
    (token : String) (hs : identityRead h = some s) (himsi : x.imsi = s.imsi)
    (hbacked : Backed h s x) :
    (service.deliver x query method token draws).Obeys (Allowed draws)
      (Delivers service.settings) h := by
  unfold deliver
  dsimp only
  split
  · trivial
  · next doc hdoc =>
    apply (recordDevice_uses ..).obeys_bind (allowed_quiet draws)
    intro es _ hes doc' hdoc' c hc haccount
    obtain rfl := Option.some.inj hdoc'
    obtain ⟨hne, values, hbuilt⟩ := Builder.account_of_buildDocument hdoc c hc haccount
    refine ⟨s, x.dmPassword, identityRead_kept es hs, ⟨values, himsi ▸ hbuilt⟩, hne, ?_⟩
    rcases hbacked with hread | ⟨y, clock, hput, hyimsi, hy⟩
    · exact Or.inl hread
    · exact Or.inr ⟨y, clock, List.mem_append_left _ hput, hyimsi, hy⟩

structure Serves (h : StoreEvents) (s x : Subscriber) : Prop where
  read : identityRead h = some s
  unforced : s.forcedVers = none
  imsi : x.imsi = s.imsi
  forcedVers : x.forcedVers = none
  dmPassword : x.dmPassword = s.dmPassword

theorem Serves.append {s x : Subscriber} (hserves : Serves h s x) (es : StoreEvents) :
    Serves (h ++ es) s x :=
  { hserves with read := identityRead_kept es hserves.read }

theorem serveDocument_obeys {s x : Subscriber} (query : ConfigQuery) (method : IdentityMethod)
    (hserves : Serves h s x) :
    (service.serveDocument x query method draws).Obeys (Allowed draws)
      (Delivers service.settings) h := by
  unfold serveDocument
  refine ⟨⟨s, hserves.read, hserves.unforced, hserves.imsi, rfl⟩, fun _ => ?_⟩
  have hserves' := hserves.append [⟨.putToken (Token.newRecord service.sha256 draws.token x.imsi
    query.imei service.settings.tokenTtlSeconds service.settings.tokenBindImei draws.issuedAt), ()⟩]
  change Program.Obeys _ _ (if _ then _ else _) _
  split_ifs with hdraw
  · have hempty : x.dmPassword = "" := of_decide_eq_true (Bool.and_eq_true_iff.mp hdraw).2
    refine ⟨trivial, fun _ => ⟨⟨s, (hserves'.append _).read, hserves.unforced, hserves.imsi,
      hserves.forcedVers, Or.inr ⟨hserves.dmPassword ▸ hempty, rfl⟩⟩, fun _ => ?_⟩⟩
    exact service.deliver_obeys { x with dmPassword := draws.dmPassword } query method _
      ((hserves'.append _).append _).read hserves.imsi (Or.inr ⟨_, draws.passwordAt,
        List.mem_append_right _ (List.mem_singleton_self _), hserves.imsi, rfl⟩)
  · exact service.deliver_obeys x query method _ hserves'.read hserves.imsi
      (Or.inl hserves.dmPassword)

theorem serveVersion_obeys {s : Subscriber} (x : Subscriber) (query : ConfigQuery)
    (method : IdentityMethod) (hserves : Serves h s x) :
    (service.serveVersion x query method draws).Obeys (Allowed draws)
      (Delivers service.settings) h := by
  unfold serveVersion
  dsimp only
  split_ifs
  · exact delivers_versOnly rfl
  · exact service.serveDocument_obeys query method hserves

theorem serveConfiguration_obeys {s : Subscriber} (query : ConfigQuery) (method : IdentityMethod)
    (hs : identityRead h = some s) :
    (service.serveConfiguration s query method draws).Obeys (Allowed draws)
      (Delivers service.settings) h := by
  unfold serveConfiguration
  cases hforced : s.forcedVers with
  | some forced =>
    dsimp only
    split
    · trivial
    · exact delivers_versOnly rfl
  | none =>
    dsimp only
    have hserves : Serves h s s := ⟨hs, hforced, rfl, hforced, rfl⟩
    split_ifs
    · refine ⟨trivial, fun _ => ⟨⟨s, (hserves.append _).read, hforced, rfl, rfl, Or.inl rfl⟩,
        fun _ => ?_⟩⟩
      exact service.serveVersion_obeys { s with
          provisioningVersion := Vers.nextVersion s.provisioningVersion, forcedVers := none }
        query method ⟨((hserves.append _).append _).read, hforced, rfl, rfl, rfl⟩
    · exact service.serveVersion_obeys s query method hserves

end Answer

theorem handle_obeys (service : ProvisioningService) (query : ConfigQuery) (evidence : Evidence)
    (draws : Draws) :
    (service.handle query evidence draws).Obeys (Allowed draws) (Delivers service.settings) [] := by
  apply Program.Obeys.bind
  apply (service.resolveIdentity_obeys query evidence).mono (fun _ _ hg => hg)
  intro h identity hidentity
  match identity with
  | .error e => trivial
  | .ok (.notEntitled _ _) => exact delivers_bodyless rfl
  | .ok (.unresolved detail) =>
    refine delivers_bodyless ?_
    unfold unresolvedOutcome
    split_ifs <;> rfl
  | .ok (.challenge s msisdn _) => exact service.issueOtp_obeys s msisdn query
  | .ok (.authenticated s method) => exact service.serveConfiguration_obeys query method hidentity

end Acs.ProvisioningService
