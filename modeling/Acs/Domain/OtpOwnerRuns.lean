import Acs.Domain.OnDynamo
import Acs.Domain.OtpOwner

/-! Runs of subscriber edits, configuration requests and web submissions: a code proves only the
subscriber it was issued for. -/

namespace Acs.OtpOwner
open Interleave Function SecondaryIndex MsisdnIndex

inductive Request
  | edit (r : MsisdnIndex.Request)
  | invalidate (imsi : String) (clock : Clock)
  | disable (imsi : String) (vers : Int) (clock : Clock)
  | enable (imsi : String) (clock : Clock)
  | action (imsi : String) (action : Console.Action) (clock : Clock) (token : String)
  | configuration (query : ConfigQuery) (evidence : Evidence) (draws : Draws)
  | submit (msisdn csrf : String) (cookie : Option String) (draws : MsisdnUi.WebDraws)
  | verify (msisdn otp csrf : String) (cookie : Option String) (clock : Clock)

structure Server where
  service : ProvisioningService
  isAlnum : String → Bool

namespace Server
variable (server : Server)

def program : Request → StoreProgram Unit
  | .edit r => r.program server.service.env.py server.service.settings server.service.sha256
  | .invalidate imsi clock => do
    let _ ← Admin.invalidateConfiguration imsi clock
    return ()
  | .disable imsi vers clock => do
    let _ ← Admin.disableSubscriber imsi vers clock
    return ()
  | .enable imsi clock => do
    let _ ← Admin.enableSubscriber imsi clock
    return ()
  | .action imsi action clock token => do
    let _ ← Console.subscriberAction server.service.settings server.service.sha256 imsi action clock
      token
    return ()
  | .configuration query evidence draws => do
    let _ ← server.service.handle query evidence draws
    return ()
  | .submit msisdn csrf cookie draws => do
    let _ ← MsisdnUi.msisdnSubmit server.service.env.py server.service.settings
      server.service.sha256 server.service.policy msisdn csrf cookie draws
    return ()
  | .verify msisdn otp csrf cookie clock => do
    let _ ← MsisdnUi.msisdnVerify server.service.env.py server.service.settings
      server.service.sha256 server.service.policy server.isAlnum msisdn otp csrf cookie clock
    return ()

def numberGiven (py : PyText) (settings : Settings) (existing : Option Subscriber) :
    MsisdnIndex.Request → Option String
  | .adminPut imsi payload _ =>
    if !py.digits imsi || imsi.length < 5 || 15 < imsi.length then none else some payload.msisdn
  | .consoleCreate imsi msisdn .. =>
    if !py.digits (py.strip imsi) || (py.strip imsi).length < 5 || 15 < (py.strip imsi).length ||
      existing.isSome then none
    else normaliseMsisdn py settings msisdn
  | .consoleUpdate _ msisdn _ forcedVers imeiAllowlist _ _ _ =>
    match existing, normaliseMsisdn py settings msisdn, Console.forcedOf py forcedVers with
    | some _, some normalised, .ok _ =>
      if ((Console.allowlistOf py imeiAllowlist).filter fun item =>
        !py.digits item || item.length < 14 || 16 < item.length) ≠ [] then none
      else some normalised
    | _, _, _ => none
  | .adminDelete _ => none
  | .consoleDelete .. => none

structure Asks {σ : Type} (step : (op : StoreOp) → σ → op.Answer × σ) (query : ConfigQuery)
    (evidence : Evidence) (s : σ) (x : Subscriber) : Prop where
  token : orElseText query.token "" = ""
  enriched : orElseText evidence.enrichedMsisdn "" = ""
  gba : evidence.gba = none
  candidate : ((ProvisioningService.lookupCandidate query).eval step s).1 = some x
  entitled : x.entitled = true
  imeiAllowed : x.imeiAllowed query.imei = true
  otp : orElseText query.otp "" = ""

section Runs
variable {σ : Type} (S : ChallengeStore σ)

def handle (s : σ) (r : Request) : σ := ((server.program r).eval S.step s).2

/-- No request puts a number with a pending challenge on the record of another IMSI, and none asks
for a code under a number that the record of another IMSI has too. -/
def Unshared (s : σ) : Request → Prop
  | .edit r => ∀ msisdn,
    numberGiven server.service.env.py server.service.settings
        ((S.directory s).table (r.imsi server.service.env.py)) r = some msisdn →
      ∀ c, S.challenges s msisdn = some c → r.imsi server.service.env.py = c.imsi
  | .configuration query evidence _ => ∀ x, Asks S.step query evidence s x →
    (S.directory s).Alone Subscriber.msisdn x.imsi x.msisdn
  | .submit msisdn .. => ∀ normalised x,
    normaliseMsisdn server.service.env.py server.service.settings msisdn = some normalised →
      (S.step (.getSubscriberByMsisdn normalised) s).1 = some x →
        (S.directory s).Alone Subscriber.msisdn x.imsi normalised
  | _ => True

/-- A request authenticated by a code took out challenges of its own subscriber only. -/
def OwnCode (s : σ) : Request → Prop
  | .configuration query evidence draws =>
    ∀ x, ((server.service.resolveIdentity query evidence draws).eval S.step s).1 =
        .ok (.authenticated x .otp) →
      (∃ c, ⟨.replaceOtp c none, true⟩ ∈
        (server.service.handle query evidence draws).events S.step s) ∧
      ∀ c, ⟨.replaceOtp c none, true⟩ ∈
        (server.service.handle query evidence draws).events S.step s → c.imsi = x.imsi
  | _ => True

end Runs
end Server

section Requests
variable {σ : Type} {S : ChallengeStore σ} {s : σ} {x : Subscriber}

def Rewrites (x : Subscriber) : StoreOp → Prop
  | .putSubscriber y _ => y.imsi = x.imsi ∧ y.msisdn = x.msisdn
  | .editSubscriber y => y.imsi = x.imsi ∧ y.msisdn = x.msisdn
  | .issueOtp .. => False
  | .replaceOtp .. => False
  | _ => True

theorem along_rewrites {α : Type} {p : StoreProgram α} (hp : p.Uses (Rewrites x))
    (h : ∀ c, S.challenges s x.msisdn = some c → x.imsi = c.imsi) :
    p.Along S.step (Admits S) s := by
  refine hp.along (P := fun s => ∀ c, S.challenges s x.msisdn = some c → x.imsi = c.imsi)
    (fun op s hop h => ?_) (fun op s hop h => ?_) h
  · cases op with
    | putSubscriber y clock => exact fun c hc => hop.1.trans (h c (hop.2 ▸ hc))
    | editSubscriber y => exact fun c hc => hop.1.trans (h c (hop.2 ▸ hc))
    | issueOtp => exact hop.elim
    | replaceOtp => exact hop.elim
    | _ => trivial
  · have hkept : ¬ WritesChallenges op := by
      intro hwrites
      cases op <;> first | exact hop.elim | exact hwrites.elim
    rw [S.challenges_kept op s hkept]
    exact h

theorem Owned.of_stored (h : Owned S s) {imsi : String}
    (hx : (S.directory s).table imsi = some x) :
    ∀ c, S.challenges s x.msisdn = some c → x.imsi = c.imsi := by
  intro c hc
  rw [h.keyed imsi x hx]
  exact h.alone x.msisdn c hc imsi (Indexed.has_iff.mpr ⟨x, hx, rfl⟩)

theorem along_load {α : Type} {imsi : String} {k : Subscriber → StoreProgram (Admin.Response α)}
    (hk : ∀ x, (S.directory s).table imsi = some x → (k x).Along S.step (Admits S) s) :
    (Admin.load imsi k).Along S.step (Admits S) s := by
  refine ⟨trivial, ?_⟩
  rw [S.get]
  cases hx : (S.directory s).table imsi with
  | none => trivial
  | some x => exact hk x hx

theorem rewrites_rewrite {y : Subscriber} (clock : Clock) (himsi : y.imsi = x.imsi)
    (hmsisdn : y.msisdn = x.msisdn) : (Admin.rewrite y clock).Uses (Rewrites x) :=
  ⟨⟨himsi, hmsisdn⟩, fun _ => ⟨⟨himsi, hmsisdn⟩, fun _ => trivial⟩⟩

end Requests

section Edits
variable {σ : Type} {S : ChallengeStore σ} {s : σ} {py : PyText} {settings : Settings}
  {sha256 : String → String}

theorem along_edit (r : MsisdnIndex.Request)
    (hgiven : ∀ msisdn, Server.numberGiven py settings ((S.directory s).table (r.imsi py)) r =
      some msisdn → ∀ c, S.challenges s msisdn = some c → r.imsi py = c.imsi)
    (h : Owned S s) : (r.program py settings sha256).Along S.step (Admits S) s := by
  cases r with
  | adminPut imsi payload clock =>
    refine (Program.along_bind _ _ s).mpr ⟨?_, trivial⟩
    unfold Admin.putSubscriber
    split_ifs with hbad
    · trivial
    -- the number that the record is to hold is one that may be given
    · have hnumber := hgiven payload.msisdn (if_neg hbad)
      refine ⟨trivial, ?_⟩
      rw [S.get]
      exact ⟨hnumber, trivial⟩
  | adminDelete imsi =>
    refine (Program.along_bind _ _ s).mpr ⟨along_load fun x hx => ?_, trivial⟩
    exact ⟨trivial, trivial, trivial⟩
  | consoleCreate imsi msisdn rcsProfile entitled volteEnabled clock =>
    refine (Program.along_bind _ _ s).mpr ⟨?_, trivial⟩
    unfold Console.subscriberCreate
    dsimp only
    split_ifs with hbad
    · trivial
    · cases hnormal : normaliseMsisdn py settings msisdn with
      | none => trivial
      | some normalised =>
        refine ⟨trivial, ?_⟩
        rw [S.get]
        cases hexisting : (S.directory s).table (py.strip imsi) with
        | some x => trivial
        | none =>
          refine ⟨hgiven normalised ?_, trivial⟩
          have hnew : (S.directory s).table
              ((MsisdnIndex.Request.consoleCreate imsi msisdn rcsProfile entitled volteEnabled
                clock).imsi py) = none := hexisting
          simpa [Server.numberGiven, hnew, hnormal] using hbad
  | consoleUpdate imsi msisdn rcsProfile forcedVers imeiAllowlist entitled volteEnabled clock =>
    refine (Program.along_bind _ _ s).mpr ⟨along_load fun x hx => ?_, trivial⟩
    have himsi := h.keyed imsi x hx
    cases hnormal : normaliseMsisdn py settings msisdn with
    | none => trivial
    | some normalised =>
      cases hforced : Console.forcedOf py forcedVers with
      | error message => trivial
      | ok forced =>
        dsimp only
        split_ifs with hbad
        · trivial
        -- the rewritten record is the one stored under the IMSI of the request
        · have hstored : (S.directory s).table
              ((MsisdnIndex.Request.consoleUpdate imsi msisdn rcsProfile forcedVers imeiAllowlist
                entitled volteEnabled clock).imsi py) = some x := hx
          have hnumber := hgiven normalised (by
            simpa [Server.numberGiven, hstored, hnormal, hforced] using hbad)
          have hnew : ∀ c, S.challenges s normalised = some c → x.imsi = c.imsi :=
            fun c hc => himsi.trans (hnumber c hc)
          refine (Program.along_bind _ _ s).mpr ⟨along_rewrites (x := { x with
            msisdn := normalised }) (rewrites_rewrite clock rfl rfl) hnew, trivial⟩
  | consoleDelete imsi clock =>
    refine (Program.along_bind _ _ s).mpr ⟨along_load fun x hx => ?_, trivial⟩
    exact ⟨trivial, trivial, trivial⟩

end Edits

/-! ### Configuration requests -/

section Configuration
variable {σ : Type} {S : ChallengeStore σ} {s : σ} {x : Subscriber}
  {service : ProvisioningService} {query : ConfigQuery} {evidence : Evidence} {draws : Draws}
  {method : IdentityMethod}
open ProvisioningService

def Reads : StoreOp → Prop
  | .getSubscriber _ => True
  | .getSubscriberByMsisdn _ => True
  | .getToken _ => True
  | _ => False

theorem reads_admitted {α : Type} {p : StoreProgram α} (hp : p.Uses Reads) :
    p.Along S.step (Admits S) s := by
  refine hp.along (P := fun _ => True) (fun op s hop _ => ?_) (fun _ _ _ _ => trivial) trivial
  cases op <;> first | exact trivial | exact hop.elim

variable (query) in
theorem lookupCandidate_reads : (lookupCandidate query).Uses Reads :=
  lookupCandidate_uses (fun _ => trivial) fun _ => trivial

theorem kept_of_reads {α : Type} {p : StoreProgram α} (hp : p.Uses Reads) (s : σ) :
    S.directory (p.eval S.step s).2 = S.directory s ∧
      S.challenges (p.eval S.step s).2 = S.challenges s := by
  refine hp.invariant (P := fun s' => S.directory s' = S.directory s ∧
    S.challenges s' = S.challenges s) (fun op s' hop h => ?_) ⟨rfl, rfl⟩
  have hdirectory : ¬ WritesDirectory op := by
    intro hwrites
    cases op <;> first | exact hop.elim | exact hwrites.elim
  have hchallenges : ¬ WritesChallenges op := by
    intro hwrites
    cases op <;> first | exact hop.elim | exact hwrites.elim
  exact ⟨(S.directory_kept op s' hdirectory).trans h.1,
    (S.challenges_kept op s' hchallenges).trans h.2⟩

theorem Owned.of_reads {α : Type} {p : StoreProgram α} (hp : p.Uses Reads) (h : Owned S s) :
    Owned S (p.eval S.step s).2 :=
  h.of_kept (kept_of_reads hp s).1 (kept_of_reads hp s).2

theorem stored_of_candidate (h : ((lookupCandidate query).eval S.step s).1 = some x) :
    ∃ imsi, (S.directory s).table imsi = some x := by
  unfold lookupCandidate at h
  dsimp only at h
  split at h
  · split at h
    · cases h
    · exact S.found _ s x h
  · simp only [Store.getSubscriber, Program.perform_bind, Program.eval_call, S.get] at h
    split at h
    · next y hy =>
      obtain rfl : y = x := Option.some.inj h
      exact ⟨_, hy⟩
    · split at h
      · cases h
      · exact S.found _ s x h

theorem stored_of_authenticated (h : Authenticated S.step service query evidence draws s x method) :
    ∃ imsi, (S.directory s).table imsi = some x := by
  cases h with
  | named hnamed _ =>
    cases hnamed with
    | token record s₁ _ hfor =>
      have hholder := hfor.holder
      have hkept := S.directory_kept
        (.getToken (Token.hashToken service.sha256 (orElseText query.token ""))) s id
      rw [hfor.found] at hkept
      rw [S.get] at hholder
      exact ⟨record.imsi, by rw [← hkept]; exact hholder⟩
    | enrichment _ _ hread => exact S.found _ s x hread
    | gba imsi _ _ _ hread =>
      rw [S.get] at hread
      exact ⟨imsi, hread⟩
  | otp hclaims _ _ => exact stored_of_candidate hclaims.candidate

variable (service query evidence draws) in
theorem along_resolveIdentity (h : Owned S s) :
    (service.resolveIdentity query evidence draws).Along S.step (Admits S) s := by
  unfold resolveIdentity
  split
  · split
    · split
      · exact reads_admitted (resolveGba_uses (fun _ => trivial) _)
      · refine (Program.along_bind _ _ s).mpr ⟨reads_admitted (lookupCandidate_reads _), ?_⟩
        have howned := h.of_reads (lookupCandidate_reads query)
        split
        · trivial
        · split_ifs
          · trivial
          · trivial
          · split
            · trivial
            · refine (Program.along_bind _ _ _).mpr ⟨?_, ?_⟩
              · exact (along_verifyFrom howned _).mono admits_of_guesses
              · split <;> trivial
    · exact reads_admitted (resolveByEnrichment_uses (fun _ => trivial) _)
  · exact reads_admitted (resolveByToken_uses (fun _ => trivial) (fun _ => trivial) _)

variable (service query evidence draws) in
theorem directory_resolveIdentity :
    S.directory ((service.resolveIdentity query evidence draws).eval S.step s).2 =
      S.directory s := by
  refine resolveIdentity_resolving.invariant (P := fun s' => S.directory s' = S.directory s)
    (fun op s' hop h => ?_) rfl
  have hkept : ¬ WritesDirectory op := by
    intro hwrites
    cases op <;> first | exact hop.elim | exact hwrites.elim
  exact (S.directory_kept op s' hkept).trans h

theorem asks_of_challenge {msisdn detail : String}
    (h : ((service.resolveIdentity query evidence draws).eval S.step s).1 =
      .ok (.challenge x msisdn detail)) :
    Server.Asks S.step query evidence s x ∧ msisdn = x.msisdn := by
  -- a subscriber who was identified is not challenged
  have hentitledOr : ∀ {y : Subscriber} {detail' : String} {m : IdentityMethod},
      entitledOr y detail' m ≠ .challenge x msisdn detail := by
    intro y detail' m
    unfold entitledOr
    split_ifs <;> exact nofun
  unfold resolveIdentity at h
  split at h
  · next htoken =>
    split at h
    · next hmsisdn =>
      split at h
      · next check _ =>
        cases check with
        | rejected detail' => cases h
        | verified imsi =>
          simp only [resolveGba, Store.getSubscriber, Program.perform_bind, Program.eval_call] at h
          split at h
          · cases h
          · exact absurd (Except.ok.inj h) hentitledOr
      · next hgba =>
        unfold resolveClaim at h
        rw [Program.eval_bind] at h
        split at h
        · cases h
        · next y hy =>
          split_ifs at h with hentitled himei
          · cases h
          · cases h
          · simp only [Bool.not_eq_true', Bool.not_eq_false] at hentitled himei
            split at h
            -- only a claim without a code ends in a challenge
            · next hotp =>
              obtain ⟨rfl, hnumber, -⟩ := Identity.challenge.inj (Except.ok.inj h)
              exact ⟨⟨htoken, hmsisdn, hgba, hy, hentitled, himei, hotp⟩, hnumber.symm⟩
            · rw [Program.eval_bind] at h
              split at h <;> cases h
    · simp only [resolveByEnrichment, Store.getSubscriberByMsisdn, Program.perform_bind,
        Program.eval_call] at h
      split at h
      · exact absurd (Except.ok.inj h) hentitledOr
      · cases h
  · unfold resolveByToken at h
    rw [Program.eval_bind] at h
    split at h
    · cases h
    · cases h
    · simp only [Store.getSubscriber, Program.perform_bind, Program.eval_call] at h
      split at h
      · cases h
      · exact absurd (Except.ok.inj h) hentitledOr

theorem rewrites_deliver {y : Subscriber} (token : String) :
    (service.deliver y query method token draws).Uses (Rewrites x) := by
  unfold deliver
  dsimp only
  split
  · trivial
  · exact ⟨trivial, fun _ => ⟨trivial, fun _ => trivial⟩⟩

theorem rewrites_serveVersion {y : Subscriber} (himsi : y.imsi = x.imsi)
    (hmsisdn : y.msisdn = x.msisdn) :
    (service.serveVersion y query method draws).Uses (Rewrites x) := by
  unfold serveVersion
  dsimp only
  split_ifs
  · trivial
  · refine ⟨trivial, fun _ => ?_⟩
    change Program.Uses _ (if _ then _ else _)
    split_ifs
    · exact ⟨⟨himsi, hmsisdn⟩, fun _ => ⟨⟨himsi, hmsisdn⟩, fun _ => rewrites_deliver _⟩⟩
    · exact rewrites_deliver _

theorem rewrites_serveConfiguration :
    (service.serveConfiguration x query method draws).Uses (Rewrites x) := by
  unfold serveConfiguration
  split
  · split <;> trivial
  · split_ifs
    · exact ⟨⟨rfl, rfl⟩, fun _ => ⟨⟨rfl, rfl⟩, fun _ => rewrites_serveVersion rfl rfl⟩⟩
    · exact rewrites_serveVersion rfl rfl

theorem along_issueOtp {msisdn : String} (h : Owned S s) (hmsisdn : msisdn = x.msisdn)
    (halone : (S.directory s).Alone Subscriber.msisdn x.imsi x.msisdn) :
    (service.issueOtp x msisdn query draws).Along S.step (Admits S) s := by
  unfold issueOtp
  have hnumber : (if msisdn = "" then x.msisdn else msisdn) = x.msisdn := by
    rw [hmsisdn]
    exact ite_self _
  have hcreate : (Otp.createChallenge service.sha256 service.policy
      (if msisdn = "" then x.msisdn else msisdn) x.imsi
      (if query.smsPort = some 0 then none else query.smsPort) none draws.challengedAt draws.otp
      draws.challengeId).Along S.step (Admits S) s :=
    along_createChallenge (by rw [hnumber]; exact halone)
  refine (Program.along_bind _ _ s).mpr ⟨hcreate, ?_⟩
  have howned := hcreate.invariant owned_step h
  split
  · trivial
  · trivial
  · trivial
  · trivial
  · split
    · trivial
    · exact (Program.along_bind _ _ _).mpr ⟨along_discardFrom _ howned _, trivial⟩
    · exact (Program.along_bind _ _ _).mpr ⟨along_discardFrom _ howned _, trivial⟩

theorem along_handle (h : Owned S s)
    (hunshared : ∀ x, Server.Asks S.step query evidence s x →
      (S.directory s).Alone Subscriber.msisdn x.imsi x.msisdn) :
    (service.handle query evidence draws).Along S.step (Admits S) s := by
  have hchain := along_resolveIdentity service query evidence draws h
  have howned := hchain.invariant owned_step h
  have hdirectory := directory_resolveIdentity service query evidence draws (S := S) (s := s)
  refine (Program.along_bind _ _ s).mpr ⟨hchain, ?_⟩
  generalize hresolved : ((service.resolveIdentity query evidence draws).eval S.step s).1 = resolved
  match resolved with
  | .error e => trivial
  | .ok (.notEntitled _ _) => trivial
  | .ok (.unresolved _) => trivial
  | .ok (.challenge x msisdn detail) =>
    obtain ⟨hasks, hmsisdn⟩ := asks_of_challenge hresolved
    exact along_issueOtp howned hmsisdn (hdirectory ▸ hunshared x hasks)
  | .ok (.authenticated x method) =>
    obtain ⟨imsi, hx⟩ := stored_of_authenticated (eval_resolveIdentity.mp hresolved)
    exact along_rewrites rewrites_serveConfiguration (howned.of_stored (hdirectory ▸ hx))

theorem events_resolveIdentity (hclaims : Claims S.step query evidence s x)
    (hentitled : x.entitled = true) :
    (service.resolveIdentity query evidence draws).events S.step s =
      (lookupCandidate query).events S.step s ++
        (Otp.verifyChallenge service.sha256 service.policy x.msisdn (orElseText query.otp "") none
          draws.verifiedAt).events S.step ((lookupCandidate query).eval S.step s).2 := by
  unfold resolveIdentity
  rw [hclaims.token, hclaims.enriched, hclaims.gba]
  change (service.resolveClaim query draws).events S.step s = _
  unfold resolveClaim
  rw [Program.events_bind, hclaims.candidate]
  dsimp only
  rw [hentitled, hclaims.imeiAllowed]
  simp only [Bool.not_true, Bool.false_eq_true, if_false]
  split
  · next hempty => exact absurd hempty hclaims.otp
  · rw [Program.events_bind]
    split <;> rw [Program.pure_eq, Program.events_result, List.append_nil]

/-- What a request that is authenticated by a code does: it looks the candidate up, guesses, and
serves. -/
theorem events_of_otp (h : ((service.resolveIdentity query evidence draws).eval S.step s).1 =
    .ok (.authenticated x .otp)) :
    ∃ s₁ rest, S.directory s₁ = S.directory s ∧ S.challenges s₁ = S.challenges s ∧
      (∃ imsi, (S.directory s).table imsi = some x) ∧
      ((Otp.verifyChallenge service.sha256 service.policy x.msisdn (orElseText query.otp "") none
        draws.verifiedAt).eval S.step s₁).1 = .verified ∧
      (service.handle query evidence draws).events S.step s =
        (lookupCandidate query).events S.step s ++
          (Otp.verifyChallenge service.sha256 service.policy x.msisdn (orElseText query.otp "") none
            draws.verifiedAt).events S.step s₁ ++ rest ∧
      ∀ c, ⟨.replaceOtp c none, true⟩ ∉ rest := by
  rcases handle_cases service S.step s query draws evidence with
    ⟨y, m, hresolved, -, hevents⟩ | ⟨hnone, -, -⟩
  · obtain ⟨rfl, rfl⟩ : x = y ∧ _ = m := by simpa using h.symm.trans hresolved
    cases eval_resolveIdentity.mp h with
    | named hnamed _ => cases hnamed
    | otp hclaims hentitled hverified =>
      have hkept := kept_of_reads (S := S) (lookupCandidate_reads query) s
      have hrest : ∀ c, ⟨.replaceOtp c none, true⟩ ∉
          (service.serveConfiguration x query .otp draws).events S.step
            ((service.resolveIdentity query evidence draws).eval S.step s).2 :=
        fun c hc => rewrites_serveConfiguration.events _ _ hc
      rw [events_resolveIdentity hclaims hentitled] at hevents
      exact ⟨_, _, hkept.1, hkept.2, stored_of_candidate hclaims.candidate, hverified, hevents,
        hrest⟩
  · exact absurd h (hnone x .otp)

theorem own_code (h : Owned S s) (hresolved : ((service.resolveIdentity query evidence draws).eval
    S.step s).1 = .ok (.authenticated x .otp)) :
    (∃ c, ⟨.replaceOtp c none, true⟩ ∈ (service.handle query evidence draws).events S.step s) ∧
      ∀ c, ⟨.replaceOtp c none, true⟩ ∈ (service.handle query evidence draws).events S.step s →
        c.imsi = x.imsi := by
  obtain ⟨s₁, rest, hdirectory, hchallenges, ⟨imsi, hx⟩, hverified, hevents, hrest⟩ :=
    events_of_otp hresolved
  have howned := h.of_kept hdirectory hchallenges
  rw [hevents]
  constructor
  · obtain ⟨c, hc⟩ := consumed_of_verified _ hverified
    exact ⟨c, List.mem_append_left _ (List.mem_append_right _ hc)⟩
  · intro c hc
    rcases List.mem_append.mp hc with hc | hc
    · rcases List.mem_append.mp hc with hc | hc
      · exact ((lookupCandidate_reads query).events s _ hc).elim
      · -- the challenge was stored under the number of the record, which is nobody else's
        have hkeeps : ∀ op s', Guesses S x.msisdn s' op →
            Owned S s' ∧ S.directory s' = S.directory s →
            Owned S (S.step op s').2 ∧ S.directory (S.step op s').2 = S.directory s := by
          intro op s' hop hs'
          refine ⟨owned_step op s' (admits_of_guesses s' op hop) hs'.1, ?_⟩
          have hkept : ¬ WritesDirectory op := by
            intro hwrites
            cases op <;> first | exact hop.elim | exact hwrites.elim
          exact (S.directory_kept op s' hkept).trans hs'.2
        obtain ⟨s', ⟨howned', hsame⟩, hmsisdn, hstored, -⟩ :=
          (along_verifyFrom howned _).events hkeeps ⟨howned, hdirectory⟩ _ hc
        have halone := howned'.alone _ c hstored
        rw [hsame, hmsisdn] at halone
        rw [h.keyed imsi x hx]
        exact (halone imsi (Indexed.has_iff.mpr ⟨x, hx, rfl⟩)).symm
    · exact absurd hc (hrest c)

end Configuration

section Web
variable {σ : Type} {S : ChallengeStore σ} {s : σ} {x : Subscriber} {py : PyText}
  {settings : Settings} {sha256 : String → String} {policy : OtpPolicy} {msisdn csrf : String}
  {cookie : Option String}

theorem along_sendCode {normalised : String} {draws : MsisdnUi.WebDraws} (h : Owned S s)
    (halone : (S.directory s).Alone Subscriber.msisdn x.imsi normalised) :
    (MsisdnUi.sendCode sha256 policy normalised x draws).Along S.step (Admits S) s := by
  unfold MsisdnUi.sendCode
  have hcreate : (Otp.createChallenge sha256 policy normalised x.imsi none none draws.challengedAt
      draws.otp draws.challengeId).Along S.step (Admits S) s := along_createChallenge halone
  refine (Program.along_bind _ _ s).mpr ⟨hcreate, ?_⟩
  have howned := hcreate.invariant owned_step h
  split
  · trivial
  · trivial
  · trivial
  · split
    · trivial
    · exact (Program.along_bind _ _ _).mpr ⟨along_discardFrom _ howned _, trivial⟩

theorem along_submit {draws : MsisdnUi.WebDraws} (h : Owned S s)
    (hunshared : ∀ normalised x, normaliseMsisdn py settings msisdn = some normalised →
      (S.step (.getSubscriberByMsisdn normalised) s).1 = some x →
        (S.directory s).Alone Subscriber.msisdn x.imsi normalised) :
    (MsisdnUi.msisdnSubmit py settings sha256 policy msisdn csrf cookie draws).Along S.step
      (Admits S) s := by
  unfold MsisdnUi.msisdnSubmit
  split
  · trivial
  · trivial
  · split
    · trivial
    · next normalised hnormal =>
      refine ⟨trivial, ?_⟩
      have hdirectory := S.directory_kept (.getSubscriberByMsisdn normalised) s id
      have howned := h.of_kept hdirectory (S.challenges_kept (.getSubscriberByMsisdn normalised) s id)
      cases hfound : (S.step (.getSubscriberByMsisdn normalised) s).1 with
      | none => trivial
      | some x =>
        have halone := hunshared normalised x hnormal hfound
        rw [← hdirectory] at halone
        dsimp only [Program.bind]
        refine (Program.along_bind _ _ _).mpr ⟨along_sendCode howned halone, ?_⟩
        split <;> trivial

theorem along_verify {isAlnum : String → Bool} {otp : String} {clock : Clock} (h : Owned S s) :
    (MsisdnUi.msisdnVerify py settings sha256 policy isAlnum msisdn otp csrf cookie clock).Along
      S.step (Admits S) s := by
  unfold MsisdnUi.msisdnVerify
  split
  · trivial
  · trivial
  · split
    · trivial
    · split_ifs
      · trivial
      · refine (Program.along_bind _ _ s).mpr ⟨?_, ?_⟩
        · exact (along_verifyFrom h _).mono admits_of_guesses
        · split <;> trivial

end Web

section Runs
variable {σ : Type} {S : ChallengeStore σ} {s : σ} {server : Server}

theorem along_program (r : Request) (h : Owned S s) (hunshared : server.Unshared S s r) :
    (server.program r).Along S.step (Admits S) s := by
  have hload : ∀ {α : Type} {imsi : String} {k : Subscriber → StoreProgram (Admin.Response α)},
      (∀ x, (k x).Uses (Rewrites x)) → (Admin.load imsi k).Along S.step (Admits S) s :=
    fun hk => along_load fun x hx => along_rewrites (hk x) (h.of_stored hx)
  cases r with
  | edit r => exact along_edit r hunshared h
  | invalidate imsi clock =>
    refine (Program.along_bind _ _ s).mpr ⟨hload fun x => ?_, trivial⟩
    exact (rewrites_rewrite clock rfl rfl).bind fun _ => trivial
  | disable imsi vers clock =>
    refine (Program.along_bind _ _ s).mpr ⟨?_, trivial⟩
    unfold Admin.disableSubscriber
    split_ifs
    · refine hload fun x => ?_
      exact (rewrites_rewrite clock rfl rfl).bind fun _ => ⟨trivial, fun _ => trivial⟩
    · trivial
  | enable imsi clock =>
    refine (Program.along_bind _ _ s).mpr ⟨hload fun x => ?_, trivial⟩
    exact (rewrites_rewrite clock rfl rfl).bind fun _ => trivial
  | action imsi action clock token =>
    refine (Program.along_bind _ _ s).mpr ⟨hload fun x => ?_, trivial⟩
    cases action with
    | invalidate => exact (rewrites_rewrite clock rfl rfl).bind fun _ => trivial
    | enable => exact (rewrites_rewrite clock rfl rfl).bind fun _ => trivial
    | revokeTokens => exact ⟨trivial, fun _ => trivial⟩
    | issueToken => exact ⟨trivial, fun _ => trivial⟩
    | delete => exact ⟨trivial, fun _ => ⟨trivial, fun _ => trivial⟩⟩
  | configuration query evidence draws =>
    exact (Program.along_bind _ _ s).mpr ⟨along_handle h hunshared, trivial⟩
  | submit msisdn csrf cookie draws =>
    exact (Program.along_bind _ _ s).mpr ⟨along_submit h hunshared, trivial⟩
  | verify msisdn otp csrf cookie clock =>
    exact (Program.along_bind _ _ s).mpr ⟨along_verify h, trivial⟩

theorem ownCode_step (s : σ) (r : Request) (h : Owned S s) (hunshared : server.Unshared S s r) :
    Owned S (server.handle S s r) ∧ server.OwnCode S s r := by
  refine ⟨(along_program r h hunshared).invariant owned_step h, ?_⟩
  cases r with
  | configuration query evidence draws => exact fun x hx => own_code h hx
  | _ => trivial

end Runs

/-- On each store: in a run from the empty store in which no number with a pending challenge comes
to a second subscriber, every code proves the subscriber it was issued for. -/
theorem otp_proves_owner (server : Server) (gsi : Gsi) (faults : Nat → Option ClientError)
    (requests : List Request) :
    (Runs.EachStep (server.handle memoryChallenges) (server.Unshared memoryChallenges) {} requests →
      Runs.EachStep (server.handle memoryChallenges) (server.OwnCode memoryChallenges) {}
        requests) ∧
    (Runs.EachStep (server.handle (dynamoChallenges gsi faults))
        (server.Unshared (dynamoChallenges gsi faults)) {} requests →
      Runs.EachStep (server.handle (dynamoChallenges gsi faults))
        (server.OwnCode (dynamoChallenges gsi faults)) {} requests) := by
  constructor
  · refine fun h => h.of_invariant (I := Owned memoryChallenges) ownCode_step ?_
    exact ⟨fun _ _ h => (nomatch h), fun _ _ h => (nomatch h), fun _ _ h => (nomatch h)⟩
  · refine fun h => h.of_invariant (I := Owned (dynamoChallenges gsi faults)) ownCode_step ?_
    exact ⟨fun _ _ h => (nomatch h), fun _ _ h => (nomatch h), fun _ _ h => (nomatch h)⟩

def labServer : Server := ⟨OnDynamo.labService, fun s => s.toList.all Char.isAlphanum⟩

def labPut (imsi : String) : Request :=
  .edit (.adminPut imsi { msisdn := "+821012345678" } ⟨1700000000, Clock.pos_start⟩)

def labClaim (imsi : String) (otp : Option String) : Request :=
  .configuration { vers := 1, imsi := some imsi, otp } {}
    (OnDynamo.labRequest "s3cret" OnDynamo.labPassword_ne).draws

/-- A subscriber asks for a code and shows it. -/
theorem otp_proves_owner_in_turn :
    let requests := [labPut "450051234567890", labClaim "450051234567890" none,
      labClaim "450051234567890" (some "381204")]
    Runs.EachStep (labServer.handle memoryChallenges) (labServer.OwnCode memoryChallenges) {}
      requests := by
  refine (otp_proves_owner labServer OnDynamo.labGsi (fun _ => none) _).1 ⟨?_, ?_, ?_, trivial⟩
  · exact fun _ _ c hc => nomatch hc
  · intro x hasks imsi himsi
    have hx : some x.imsi = some "450051234567890" :=
      (congrArg (Option.map Subscriber.imsi) hasks.candidate).symm
    rw [Option.some.inj hx]
    by_contra hne
    have hnone : (memoryChallenges.directory (labServer.handle memoryChallenges {}
        (labPut "450051234567890"))).table imsi = none := update_of_ne hne _ _
    rw [Indexed.Has, hnone] at himsi
    cases himsi
  · exact fun x hasks => nomatch hasks.otp

/-- A code sent to the first subscriber lets a second one in that has been given its number since. -/
theorem otp_proves_another :
    let requests := [labPut "450051234567890", labClaim "450051234567890" none,
      labPut "450051234567891", labClaim "450051234567891" (some "381204")]
    ¬ Runs.EachStep (labServer.handle memoryChallenges) (labServer.OwnCode memoryChallenges) {}
      requests := by
  intro requests h
  obtain ⟨-, -, -, hown, -⟩ := h
  have himsi := (hown _ rfl).2 _ (List.mem_of_getElem? (i := 2) rfl)
  revert himsi
  decide

end Acs.OtpOwner
