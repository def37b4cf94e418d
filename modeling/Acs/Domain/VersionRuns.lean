import Acs.Domain.OtpOwnerRuns

/-! The configuration version of a subscriber while operators edit it and its clients are served,
one request at a time, on either store. -/

namespace Acs.VersionRuns
open Interleave Function SecondaryIndex MsisdnIndex OtpOwner ProvisioningService

/-- A store that changes nothing of a record it is given but the time of its update. -/
structure VersionStore (σ : Type) extends ChallengeStore σ where
  stamped : ∀ x clock, ∃ t, stamp x clock = { x with updatedAt := t }

def memoryVersions : VersionStore MemoryStore where
  toChallengeStore := memoryChallenges
  stamped x _ := ⟨x.updatedAt, rfl⟩

def dynamoVersions (gsi : Gsi) (faults : Nat → Option ClientError) : VersionStore DynamoTable where
  toChallengeStore := dynamoChallenges gsi faults
  stamped _ clock := ⟨clock.now, rfl⟩

inductive Request
  | common (r : OtpOwner.Request)
  | override (imsi key dmKey value : String) (clock : Clock)

structure Server extends OtpOwner.Server where
  tree : Omadm.MoTree

namespace Server
variable (server : Server)

def program : Request → StoreProgram Unit
  | .common r => server.toServer.program r
  | .override imsi key dmKey value clock => do
    let _ ← Console.subscriberOverride server.service.env.py server.service.settings
      server.service.env.getCatalog server.tree imsi key dmKey value clock
    return ()

variable {σ : Type} (S : VersionStore σ) (imsi : String)

def handle (s : σ) (r : Request) : σ := ((server.program r).eval S.step s).2

/-- The positive version in the answer to a request that was authenticated as the subscriber. -/
def deliveredBy (s : σ) : Request → Option Int
  | .common (.configuration query evidence draws) =>
    match ((server.service.resolveIdentity query evidence draws).eval S.step s).1 with
    | .ok (.authenticated x _) =>
      if x.imsi = imsi then
        match ((server.service.handle query evidence draws).eval S.step s).1 with
        | .ok outcome => outcome.version.filter (0 < ·)
        | .error _ => none
      else none
    | _ => none
  | _ => none

def delivered : σ → List Request → List Int
  | _, [] => []
  | s, r :: requests =>
    (server.deliveredBy S imsi s r).toList ++ delivered (server.handle S s r) requests

/-- `put_subscriber` takes the body, and the body carries a version below the stored one. -/
def Lowers (s : σ) : Request → Prop
  | .common (.edit (.adminPut key payload _)) =>
    key = imsi ∧ server.service.env.py.digits key ∧ 5 ≤ key.length ∧ key.length ≤ 15 ∧
      ∃ x, (S.directory s).table imsi = some x ∧
        (payload.provisioningVersion : Int) < x.provisioningVersion
  | _ => False

def Keeps (s : σ) (r : Request) : Prop :=
  ∀ x y, (S.directory s).table imsi = some x →
    (S.directory (server.handle S s r)).table imsi = some y →
      x.provisioningVersion ≤ y.provisioningVersion

/-- The stored version never decreases, and neither do the positive versions delivered. -/
structure Advances (s : σ) (requests : List Request) : Prop where
  stored : Runs.EachStep (server.handle S) (server.Keeps S imsi) s requests
  delivered : (server.delivered S imsi s requests).Pairwise (· ≤ ·)

end Server

structure Sound {σ : Type} (S : VersionStore σ) (s : σ) : Prop where
  keyed : ∀ imsi x, (S.directory s).table imsi = some x → x.imsi = imsi
  forced : ∀ imsi x, (S.directory s).table imsi = some x → ∀ f, x.forcedVers = some f → f ≤ 0

def Writes (C : Subscriber → Prop) : StoreOp → Prop
  | .putSubscriber y _ => C y
  | .editSubscriber y => C y
  | .deleteSubscriber _ => False
  | _ => True

section Writes
variable {σ : Type} {S : VersionStore σ} {s : σ} {C : Subscriber → Prop}

def Timeless (C : Subscriber → Prop) : Prop := ∀ y t, C y → C { y with updatedAt := t }

theorem table_step (hC : Timeless C) (op : StoreOp) (s : σ) (hop : Writes C op) (k : String) :
    (S.directory (S.step op s).2).table k = (S.directory s).table k ∨
      ∃ y, (S.directory (S.step op s).2).table k = some y ∧ C y ∧ y.imsi = k := by
  cases op with
  | putSubscriber x clock =>
    rw [S.put]
    by_cases hk : k = x.imsi
    · subst hk
      obtain ⟨t, ht⟩ := S.stamped x clock
      refine Or.inr ⟨_, update_self .., ?_, S.stamp_imsi x clock⟩
      rw [ht]
      exact hC x t hop
    · exact Or.inl (update_of_ne hk _ _)
  | editSubscriber x =>
    rw [S.edit]
    split_ifs
    · by_cases hk : k = x.imsi
      · subst hk
        exact Or.inr ⟨x, update_self .., hop, rfl⟩
      · exact Or.inl (update_of_ne hk _ _)
    · exact Or.inl rfl
  | deleteSubscriber => exact hop.elim
  | _ => exact Or.inl (by rw [S.directory_kept _ s id])

theorem table_eval {α : Type} (hC : Timeless C) {p : StoreProgram α} (hp : p.Uses (Writes C))
    (s : σ) (k : String) :
    (S.directory (p.eval S.step s).2).table k = (S.directory s).table k ∨
      ∃ y, (S.directory (p.eval S.step s).2).table k = some y ∧ C y ∧ y.imsi = k := by
  refine hp.invariant (P := fun s' => (S.directory s').table k = (S.directory s).table k ∨
    ∃ y, (S.directory s').table k = some y ∧ C y ∧ y.imsi = k) (fun op s' hop h => ?_) (Or.inl rfl)
  rcases table_step (S := S) hC op s' hop k with hkept | hwritten
  · rwa [hkept]
  · exact Or.inr hwritten

end Writes

theorem stored_of_put {σ : Type} {S : VersionStore σ} (x : Subscriber) (clock : Clock) (s : σ) :
    ∃ y, (S.directory (S.step (.putSubscriber x clock) s).2).table x.imsi = some y ∧
      y.provisioningVersion = x.provisioningVersion := by
  obtain ⟨t, ht⟩ := S.stamped x clock
  rw [S.put]
  exact ⟨_, update_self .., by rw [ht]⟩

/-! ### What each request does to a record -/

/-- `y` may take the place of the record `x`: its version is not lower, and what it forces is a
disable value or was forced before. -/
structure Succeeds (x y : Subscriber) : Prop where
  imsi : y.imsi = x.imsi
  version : x.provisioningVersion ≤ y.provisioningVersion
  forced : ∀ f, y.forcedVers = some f → f ≤ 0 ∨ x.forcedVers = some f

theorem timeless_succeeds (x : Subscriber) : Timeless (Succeeds x) :=
  fun _ _ h => ⟨h.imsi, h.version, h.forced⟩

theorem Succeeds.of_fields {x y : Subscriber} (himsi : y.imsi = x.imsi)
    (hversion : y.provisioningVersion = x.provisioningVersion)
    (hforced : y.forcedVers = x.forcedVers) : Succeeds x y :=
  ⟨himsi, hversion.ge, fun _ hf => Or.inr (hforced ▸ hf)⟩

theorem le_nextVersion (v : Int) : v ≤ Vers.nextVersion v := by
  unfold Vers.nextVersion
  split_ifs <;> omega

theorem forceable_le {v : Int} (h : v ∈ Vers.forceableVersions) : v ≤ 0 := by
  simp only [Vers.forceableVersions, List.mem_cons, List.not_mem_nil, or_false] at h
  omega

section Programs
variable {C : Subscriber → Prop} {x y : Subscriber}

theorem writes_rewrite (hy : C y) (clock : Clock) : (Admin.rewrite y clock).Uses (Writes C) :=
  ⟨hy, fun _ => ⟨hy, fun _ => trivial⟩⟩

theorem writes_issueToken (sha256 : String → String) (imsi : String) (imei : Option String)
    (ttl : Int) (bind : Bool) (clock : Clock) (token : String) :
    (Token.issueToken sha256 imsi imei ttl bind clock token).Uses (Writes C) :=
  ⟨trivial, fun _ => trivial⟩

variable {service : ProvisioningService} {query : ConfigQuery} {draws : Draws}
  {method : IdentityMethod}

theorem writes_deliver (token : String) :
    (service.deliver y query method token draws).Uses (Writes C) := by
  unfold deliver
  dsimp only
  split
  · trivial
  · exact ⟨trivial, fun _ => ⟨trivial, fun _ => trivial⟩⟩

theorem writes_serveVersion (hy : C { y with dmPassword := draws.dmPassword }) :
    (service.serveVersion y query method draws).Uses (Writes C) := by
  unfold serveVersion
  dsimp only
  split_ifs
  · trivial
  · refine ⟨trivial, fun _ => ?_⟩
    change Program.Uses _ (if _ then _ else _)
    split_ifs
    · exact ⟨hy, fun _ => ⟨hy, fun _ => writes_deliver _⟩⟩
    · exact writes_deliver _

theorem succeeds_bumped :
    Succeeds x { x with provisioningVersion := Vers.nextVersion x.provisioningVersion } :=
  ⟨rfl, le_nextVersion _, fun _ => Or.inr⟩

theorem writes_serveConfiguration :
    (service.serveConfiguration x query method draws).Uses (Writes (Succeeds x)) := by
  unfold serveConfiguration
  split
  · split <;> trivial
  · split_ifs
    · have hbumped := succeeds_bumped (x := x)
      refine ⟨hbumped, fun _ => ⟨hbumped, fun _ => writes_serveVersion ?_⟩⟩
      exact ⟨hbumped.imsi, hbumped.version, hbumped.forced⟩
    · exact writes_serveVersion (.of_fields rfl rfl rfl)

theorem writes_discard (challenge : OtpChallenge) :
    (Otp.discardChallenge challenge).Uses (Writes C) :=
  discardFrom_uses (fun _ => trivial) (fun _ _ => trivial) challenge _

theorem writes_issueOtp (msisdn : String) :
    (service.issueOtp y msisdn query draws).Uses (Writes C) := by
  unfold issueOtp
  refine (createChallenge_uses (fun _ _ _ _ _ => trivial) ..).bind fun created => ?_
  match created with
  | .error (.sendBlocked .cooldown _) => trivial
  | .error (.sendBlocked .dailyQuota _) => trivial
  | .error (.store .otpStoreContention) => trivial
  | .error (.store .clientError) => trivial
  | .error (.store .typeError) => trivial
  | .error (.store .inexactNumber) => trivial
  | .ok (challenge, _) =>
    dsimp only
    cases draws.sms with
    | sent => trivial
    | deliveryFailed => exact (writes_discard challenge).bind fun _ => trivial
    | unsupportedDelivery => exact (writes_discard challenge).bind fun _ => trivial

variable {py : PyText} {settings : Settings} {sha256 : String → String} {policy : OtpPolicy}

theorem writes_submit (msisdn csrf : String) (cookie : Option String)
    (draws : MsisdnUi.WebDraws) :
    (MsisdnUi.msisdnSubmit py settings sha256 policy msisdn csrf cookie draws).Uses
      (Writes C) := by
  unfold MsisdnUi.msisdnSubmit
  split
  · trivial
  · trivial
  · split
    · trivial
    · refine ⟨trivial, fun found => ?_⟩
      cases found with
      | none => trivial
      | some x =>
        dsimp only [Program.bind]
        refine Program.Uses.bind (p := MsisdnUi.sendCode ..) ?_ fun sent => ?_
        · unfold MsisdnUi.sendCode
          refine (createChallenge_uses (fun _ _ _ _ _ => trivial) ..).bind fun created => ?_
          split
          · trivial
          · trivial
          · trivial
          · split
            · trivial
            · exact (writes_discard _).bind fun _ => trivial
        · cases sent <;> trivial

theorem writes_verify (isAlnum : String → Bool) (msisdn otp csrf : String)
    (cookie : Option String) (clock : Clock) :
    (MsisdnUi.msisdnVerify py settings sha256 policy isAlnum msisdn otp csrf cookie clock).Uses
      (Writes C) := by
  unfold MsisdnUi.msisdnVerify
  split
  · trivial
  · trivial
  · split
    · trivial
    · split_ifs
      · trivial
      · refine (verifyFrom_uses (fun _ => trivial) (fun _ _ => trivial) ..).bind fun outcome => ?_
        cases outcome <;> trivial

theorem writes_override (getCatalog : String → Except PyError Catalog) (tree : Omadm.MoTree)
    (imsi key dmKey value : String) (clock : Clock) : ∃ k,
    Console.subscriberOverride py settings getCatalog tree imsi key dmKey value clock =
      Admin.load imsi k ∧ ∀ x, (k x).Uses (Writes (Succeeds x)) := by
  refine ⟨_, rfl, fun x => ?_⟩
  generalize py.strip (if key ≠ "" then key else dmKey) = chosen
  generalize (if x.rcsProfile ≠ "" then x.rcsProfile else settings.defaultRcsProfile) = profile
  dsimp only
  split
  · trivial
  · split
    · trivial
    · split_ifs
      · trivial
      · exact (writes_rewrite (.of_fields rfl rfl rfl) clock).bind fun _ => trivial
      · exact (writes_rewrite (.of_fields rfl rfl rfl) clock).bind fun _ => trivial
      · trivial

theorem writes_update (imsi msisdn rcsProfile forcedVers imeiAllowlist entitled volteEnabled :
    String) (clock : Clock) : ∃ k,
    Console.subscriberUpdate py settings imsi msisdn rcsProfile forcedVers imeiAllowlist entitled
      volteEnabled clock = Admin.load imsi k ∧ ∀ x, (k x).Uses (Writes (Succeeds x)) := by
  refine ⟨_, rfl, fun x => ?_⟩
  dsimp only
  split
  · trivial
  · trivial
  · next normalised forced hnormal hforced =>
    split_ifs
    · trivial
    · refine (writes_rewrite ⟨rfl, le_rfl, fun f hf => Or.inl ?_⟩ clock).bind fun _ => trivial
      obtain rfl : forced = some f := hf
      unfold Console.forcedOf at hforced
      split_ifs at hforced with hempty
      · cases hforced
      · split at hforced
        · cases hforced
        · split_ifs at hforced with hmem
          · obtain rfl := Option.some.inj (Except.ok.inj hforced)
            exact forceable_le hmem

end Programs

section Requests
variable {σ : Type} {S : VersionStore σ} {s s' : σ} {server : Server} {k : String}

inductive Change (server : Server) (d d' : Directory) (r : Request) (k : String) : Prop
  | kept (h : d'.table k = d.table k)
  | removed (h : d'.table k = none)
  | succeeded (x y : Subscriber) (hx : d.table k = some x) (hy : d'.table k = some y)
    (h : Succeeds x y)
  | created (y : Subscriber) (hx : d.table k = none) (hy : d'.table k = some y)
    (himsi : y.imsi = k) (h : y.forcedVers = none)
  | put (payload : Admin.SubscriberIn) (clock : Clock) (y : Subscriber)
    (hr : r = .common (.edit (.adminPut k payload clock)))
    (hdigits : server.service.env.py.digits k ∧ 5 ≤ k.length ∧ k.length ≤ 15)
    (hy : d'.table k = some y) (himsi : y.imsi = k)
    (hversion : y.provisioningVersion = payload.provisioningVersion)
    (hforced : y.forcedVers = payload.forcedVers.map Subtype.val)

theorem Sound.succeeded (hs : Sound S s) {r : Request} {x : Subscriber} {key : String}
    (hx : (S.directory s).table key = some x)
    (h : (S.directory s').table k = (S.directory s).table k ∨
      ∃ y, (S.directory s').table k = some y ∧ Succeeds x y ∧ y.imsi = k) :
    Change server (S.directory s) (S.directory s') r k := by
  rcases h with hkept | ⟨y, hy, hxy, hk⟩
  · exact .kept hkept
  · have hkey : key = k := (hs.keyed key x hx).symm.trans (hxy.imsi.symm.trans hk)
    exact .succeeded x y (hkey ▸ hx) hy hxy

theorem change_load (hs : Sound S s) {r : Request} {α : Type} {key : String}
    {f : Subscriber → StoreProgram (Admin.Response α)}
    (hf : ∀ x, (f x).Uses (Writes (Succeeds x))) :
    Change server (S.directory s) (S.directory ((Admin.load key f).eval S.step s).2) r k := by
  rw [eval_load]
  cases hx : (S.directory s).table key with
  | none => exact .kept rfl
  | some x => exact hs.succeeded hx (table_eval (timeless_succeeds x) (hf x) s k)

theorem change_idle {r : Request} {α : Type} {p : StoreProgram α}
    (hp : p.Uses (Writes fun _ => False)) :
    Change server (S.directory s) (S.directory (p.eval S.step s).2) r k := by
  rcases table_eval (S := S) (fun _ _ h => h) hp s k with hkept | ⟨y, -, hfalse, -⟩
  · exact .kept hkept
  · exact hfalse.elim

theorem change_delete {r : Request} (key : String) :
    Change server (S.directory s) (S.directory
      (S.step (.deleteSubscriber key) (S.step (.revokeTokensForImsi key) s).2).2) r k := by
  by_cases hk : k = key
  · refine .removed ?_
    rw [S.delete, hk]
    exact update_self ..
  · refine .kept ?_
    rw [S.delete, S.revoke]
    exact update_of_ne hk _ _

theorem change_put (imsi : String) (payload : Admin.SubscriberIn) (clock : Clock) :
    Change server (S.directory s) (S.directory
      ((Admin.putSubscriber server.service.env.py imsi payload clock).eval S.step s).2)
      (.common (.edit (.adminPut imsi payload clock))) k := by
  unfold Admin.putSubscriber
  split_ifs with hbad
  · exact .kept rfl
  · simp only [Bool.or_eq_true, Bool.not_eq_true', decide_eq_true_eq, not_or, Bool.not_eq_false,
      not_lt] at hbad
    simp only [Store.getSubscriber, Program.perform_bind, Program.eval_call, S.get]
    have hput : ∀ dmPassword, Change server (S.directory s) (S.directory (S.step
        (.putSubscriber { imsi, msisdn := payload.msisdn, entitled := payload.entitled
                          provisioningVersion := payload.provisioningVersion
                          forcedVers := payload.forcedVers.map Subtype.val
                          rcsProfile := payload.rcsProfile, imeiAllowlist := payload.imeiAllowlist
                          overrides := payload.overrides, volteEnabled := payload.volteEnabled
                          dmPassword, createdAt := clock.now, updatedAt := clock.now } clock) s).2)
        (.common (.edit (.adminPut imsi payload clock))) k := by
      intro dmPassword
      have hwrites := table_step (S := S) (C := fun y => y.imsi = imsi ∧
        y.provisioningVersion = payload.provisioningVersion ∧
        y.forcedVers = payload.forcedVers.map Subtype.val) (fun _ _ h => h)
        (.putSubscriber { imsi, msisdn := payload.msisdn, entitled := payload.entitled
                          provisioningVersion := payload.provisioningVersion
                          forcedVers := payload.forcedVers.map Subtype.val
                          rcsProfile := payload.rcsProfile, imeiAllowlist := payload.imeiAllowlist
                          overrides := payload.overrides, volteEnabled := payload.volteEnabled
                          dmPassword, createdAt := clock.now, updatedAt := clock.now } clock)
        s ⟨rfl, rfl, rfl⟩ k
      rcases hwrites with hkept | ⟨y, hy, ⟨himsi, hversion, hforced⟩, hk⟩
      · exact .kept hkept
      · obtain rfl : imsi = k := himsi.symm.trans hk
        exact .put payload clock y rfl ⟨hbad.1.1, hbad.1.2, hbad.2⟩ hy himsi hversion hforced
    exact hput _

theorem change_create (imsi msisdn rcsProfile entitled volteEnabled : String) (clock : Clock)
    {r : Request} :
    Change server (S.directory s) (S.directory
      ((Console.subscriberCreate server.service.env.py server.service.settings imsi msisdn
        rcsProfile entitled volteEnabled clock).eval S.step s).2) r k := by
  unfold Console.subscriberCreate
  dsimp only
  split_ifs
  · exact .kept rfl
  · cases normaliseMsisdn server.service.env.py server.service.settings msisdn with
    | none => exact .kept rfl
    | some normalised =>
      simp only [Store.getSubscriber, Program.perform_bind, Program.eval_call, S.get]
      cases hx : (S.directory s).table (server.service.env.py.strip imsi) with
      | some x => exact .kept rfl
      | none =>
        have hwrites := table_step (S := S) (C := fun y =>
          y.imsi = server.service.env.py.strip imsi ∧ y.forcedVers = none) (fun _ _ h => h)
          (.putSubscriber { imsi := server.service.env.py.strip imsi, msisdn := normalised
                            entitled := entitled ≠ "", volteEnabled := volteEnabled ≠ ""
                            rcsProfile, createdAt := clock.now, updatedAt := clock.now } clock)
          s ⟨rfl, rfl⟩ k
        rcases hwrites with hkept | ⟨y, hy, ⟨himsi, hforced⟩, hk⟩
        · exact .kept hkept
        · have hkey := himsi.symm.trans hk
          exact .created y (hkey ▸ hx) hy hk hforced

theorem change_handle (hs : Sound S s) {query : ConfigQuery} {evidence : Evidence} {draws : Draws}
    {r : Request} :
    Change server (S.directory s) (S.directory
      ((server.service.handle query evidence draws).eval S.step s).2) r k := by
  have hdirectory := directory_resolveIdentity server.service query evidence draws
    (S := S.toChallengeStore) (s := s)
  rw [ProvisioningService.handle, Program.eval_bind, ← hdirectory]
  generalize hresolved :
    ((server.service.resolveIdentity query evidence draws).eval S.step s).1 = resolved
  match resolved with
  | .error e => exact .kept rfl
  | .ok (.notEntitled _ _) => exact .kept rfl
  | .ok (.unresolved _) => exact .kept rfl
  | .ok (.challenge x msisdn _) => exact change_idle (writes_issueOtp msisdn)
  | .ok (.authenticated x method) =>
    obtain ⟨key, hx⟩ := stored_of_authenticated (S := S.toChallengeStore)
      (eval_resolveIdentity.mp hresolved)
    have hs₁ : Sound S ((server.service.resolveIdentity query evidence draws).eval S.step s).2 :=
      ⟨hdirectory ▸ hs.keyed, hdirectory ▸ hs.forced⟩
    exact hs₁.succeeded (hdirectory ▸ hx)
      (table_eval (timeless_succeeds x) writes_serveConfiguration _ k)

theorem change_action (hs : Sound S s) (imsi : String) (action : Console.Action) (clock : Clock)
    (token : String) {r : Request} :
    Change server (S.directory s) (S.directory
      ((Console.subscriberAction server.service.settings server.service.sha256 imsi action clock
        token).eval S.step s).2) r k := by
  have hbumped : ∀ x entitled, Succeeds x { x with
      provisioningVersion := Vers.nextVersion x.provisioningVersion, forcedVers := none, entitled } :=
    fun x _ => ⟨rfl, le_nextVersion _, fun _ h => (by cases h)⟩
  cases action with
  | invalidate =>
    exact change_load hs fun x => (writes_rewrite (hbumped x _) clock).bind fun _ => trivial
  | enable =>
    exact change_load hs fun x => (writes_rewrite (hbumped x _) clock).bind fun _ => trivial
  | revokeTokens => exact change_load hs fun x => ⟨trivial, fun _ => trivial⟩
  | issueToken => exact change_load hs fun x => (writes_issueToken ..).bind fun _ => trivial
  | delete =>
    rw [Console.subscriberAction, eval_load]
    cases (S.directory s).table imsi with
    | none => exact .kept rfl
    | some x => exact change_delete imsi

theorem change_request (hs : Sound S s) (r : Request) (k : String) :
    Change server (S.directory s) (S.directory (server.handle S s r)) r k := by
  -- what a request is answered does not matter here
  have hbind : ∀ {α : Type} (p : StoreProgram α), ((do let _ ← p; return ()) :
      StoreProgram Unit).eval S.step s = ((), (p.eval S.step s).2) :=
    fun p => Program.eval_bind p _ s
  cases r with
  | override key parameter dmKey value clock =>
    obtain ⟨f, hload, hf⟩ := @writes_override server.service.env.py
      server.service.settings server.service.env.getCatalog server.tree key parameter
      dmKey value clock
    rw [Server.handle, Server.program, hbind, hload]
    exact change_load hs hf
  | common r =>
    cases r with
    | edit r =>
      cases r with
      | adminPut imsi payload clock =>
        rw [Server.handle, Server.program, OtpOwner.Server.program, MsisdnIndex.Request.program,
          hbind]
        exact change_put imsi payload clock
      | adminDelete imsi =>
        rw [Server.handle, Server.program, OtpOwner.Server.program, MsisdnIndex.Request.program,
          hbind, Admin.deleteSubscriber, eval_load]
        cases (S.directory s).table imsi with
        | none => exact .kept rfl
        | some x => exact change_delete imsi
      | consoleCreate imsi msisdn rcsProfile entitled volteEnabled clock =>
        rw [Server.handle, Server.program, OtpOwner.Server.program, MsisdnIndex.Request.program,
          hbind]
        exact change_create imsi msisdn rcsProfile entitled volteEnabled clock
      | consoleUpdate imsi msisdn rcsProfile forcedVers imeiAllowlist entitled volteEnabled clock =>
        obtain ⟨f, hload, hf⟩ := @writes_update server.service.env.py
          server.service.settings imsi msisdn rcsProfile forcedVers imeiAllowlist
          entitled volteEnabled clock
        rw [Server.handle, Server.program, OtpOwner.Server.program, MsisdnIndex.Request.program,
          hbind, hload]
        exact change_load hs hf
      | consoleDelete imsi clock =>
        rw [Server.handle, Server.program, OtpOwner.Server.program, MsisdnIndex.Request.program,
          hbind]
        exact change_action hs imsi .delete clock ""
    | invalidate imsi clock =>
      rw [Server.handle, Server.program, OtpOwner.Server.program, hbind]
      refine change_load hs fun x => (writes_rewrite ?_ clock).bind fun _ => trivial
      exact ⟨rfl, le_nextVersion _, fun _ h => (by cases h)⟩
    | disable imsi vers clock =>
      rw [Server.handle, Server.program, OtpOwner.Server.program, hbind, Admin.disableSubscriber]
      split_ifs with hvers
      · refine change_load hs fun x =>
          (writes_rewrite ?_ clock).bind fun _ => ⟨trivial, fun _ => trivial⟩
        refine ⟨rfl, le_rfl, fun f hf => Or.inl ?_⟩
        exact Option.some.inj hf ▸ forceable_le hvers
      · exact .kept rfl
    | enable imsi clock =>
      rw [Server.handle, Server.program, OtpOwner.Server.program, hbind]
      refine change_load hs fun x => (writes_rewrite ?_ clock).bind fun _ => trivial
      exact ⟨rfl, le_nextVersion _, fun _ h => (by cases h)⟩
    | action imsi action clock token =>
      rw [Server.handle, Server.program, OtpOwner.Server.program, hbind]
      exact change_action hs imsi action clock token
    | configuration query evidence draws =>
      rw [Server.handle, Server.program, OtpOwner.Server.program, hbind]
      exact change_handle hs
    | submit msisdn csrf cookie draws =>
      rw [Server.handle, Server.program, OtpOwner.Server.program, hbind]
      exact change_idle (writes_submit msisdn csrf cookie draws)
    | verify msisdn otp csrf cookie clock =>
      rw [Server.handle, Server.program, OtpOwner.Server.program, hbind]
      exact change_idle (writes_verify server.isAlnum msisdn otp csrf cookie clock)

theorem version_of_put (payload : Admin.SubscriberIn)
    (clock : Clock) (hdigits : server.service.env.py.digits k ∧ 5 ≤ k.length ∧ k.length ≤ 15) :
    ∃ y, (S.directory (server.handle S s (.common (.edit (.adminPut k payload clock))))).table k =
      some y ∧ y.provisioningVersion = payload.provisioningVersion := by
  have hgood : ¬ (!server.service.env.py.digits k || (k.length < 5 : Bool) ||
      (15 < k.length : Bool)) = true := by
    simp [hdigits.1, hdigits.2.1, hdigits.2.2]
  have hprogram : server.handle S s (.common (.edit (.adminPut k payload clock))) =
      ((Admin.putSubscriber server.service.env.py k payload clock).eval S.step s).2 :=
    congrArg Prod.snd (Program.eval_bind _ _ s)
  rw [hprogram, Admin.putSubscriber, if_neg hgood]
  simp only [Store.getSubscriber, Program.perform_bind, Program.eval_call, S.get]
  exact stored_of_put _ clock s

end Requests

section Delivered
variable {σ : Type} {S : VersionStore σ} {s : σ} {service : ProvisioningService}
  {query : ConfigQuery} {draws : Draws} {method : IdentityMethod} {x : Subscriber}
  {outcome : ProvisioningOutcome}

theorem version_of_deliver {token : String}
    (h : ((service.deliver x query method token draws).eval S.step s).1 = .ok outcome) :
    outcome.version = some x.provisioningVersion := by
  unfold deliver at h
  dsimp only at h
  split at h
  · cases h
  · rw [Program.eval_bind] at h
    exact Except.ok.inj h ▸ rfl

theorem version_of_serveVersion
    (h : ((service.serveVersion x query method draws).eval S.step s).1 = .ok outcome) :
    outcome.version = some x.provisioningVersion := by
  unfold serveVersion at h
  dsimp only at h
  split_ifs at h
  · exact Except.ok.inj h ▸ rfl
  · rw [serveDocument, Program.eval_bind] at h
    split_ifs at h
    · exact version_of_deliver (x := { x with dmPassword := draws.dmPassword }) h
    · exact version_of_deliver h

theorem stored_of_serveVersion {imsi : String} {y : Subscriber}
    (hy : (S.directory s).table imsi = some y)
    (hversion : y.provisioningVersion = x.provisioningVersion) :
    ∃ y', (S.directory ((service.serveVersion x query method draws).eval S.step s).2).table imsi =
      some y' ∧ y'.provisioningVersion = x.provisioningVersion := by
  have hwrites : (service.serveVersion x query method draws).Uses
      (Writes fun y => y.provisioningVersion = x.provisioningVersion) := writes_serveVersion rfl
  rcases table_eval (S := S) (fun _ _ h => h) hwrites s imsi with hkept | ⟨y', hy', hversion', -⟩
  · exact ⟨y, hkept.trans hy, hversion⟩
  · exact ⟨y', hy', hversion'⟩

theorem stored_of_serveConfiguration {v : Int} (hx : (S.directory s).table x.imsi = some x)
    (hforced : ∀ f, x.forcedVers = some f → f ≤ 0)
    (h : ((service.serveConfiguration x query method draws).eval S.step s).1 = .ok outcome)
    (hv : outcome.version = some v) (hpos : 0 < v) :
    ∃ y, (S.directory ((service.serveConfiguration x query method draws).eval S.step s).2).table
      x.imsi = some y ∧ y.provisioningVersion = v := by
  unfold serveConfiguration at h ⊢
  split at h
  · next forced hf =>
    -- the answer carries the forced value, which is not positive
    split at h
    · cases h
    · obtain rfl : forced = v := by
        rw [← Except.ok.inj h] at hv
        exact Option.some.inj hv
      exact absurd hpos (not_lt.mpr (hforced forced hf))
  · split_ifs at h ⊢
    · have hversion := version_of_serveVersion h
      obtain rfl := Option.some.inj (hversion.symm.trans hv)
      let bumped : Subscriber :=
        { x with provisioningVersion := Vers.nextVersion x.provisioningVersion }
      obtain ⟨y, hy, hput⟩ := stored_of_put (S := S) bumped draws.versionedAt
        (S.step (.editSubscriber bumped) s).2
      exact stored_of_serveVersion (x := bumped) hy hput
    · obtain rfl := Option.some.inj ((version_of_serveVersion h).symm.trans hv)
      exact stored_of_serveVersion hx rfl

end Delivered

/-! ### Runs -/

section Runs
variable {σ : Type} {S : VersionStore σ} {s : σ} {server : Server} {imsi : String}

theorem sound_request (s : σ) (r : Request) (hs : Sound S s) : Sound S (server.handle S s r) := by
  constructor
  · intro k y hy
    cases @change_request _ _ _ server hs r k with
    | kept h => exact hs.keyed k y (h ▸ hy)
    | removed h => cases h.symm.trans hy
    | succeeded x z hx hz h =>
      obtain rfl := Option.some.inj (hz.symm.trans hy)
      exact h.imsi.trans (hs.keyed k x hx)
    | created z _ hz himsi _ => exact Option.some.inj (hz.symm.trans hy) ▸ himsi
    | put payload clock z _ _ hz himsi _ _ => exact Option.some.inj (hz.symm.trans hy) ▸ himsi
  · intro k y hy f hf
    cases @change_request _ _ _ server hs r k with
    | kept h => exact hs.forced k y (h ▸ hy) f hf
    | removed h => cases h.symm.trans hy
    | succeeded x z hx hz h =>
      obtain rfl := Option.some.inj (hz.symm.trans hy)
      exact (h.forced f hf).elim id fun hx' => hs.forced k x hx f hx'
    | created z _ hz _ h =>
      obtain rfl := Option.some.inj (hz.symm.trans hy)
      rw [h] at hf
      cases hf
    | put payload clock z _ _ hz _ _ hforced =>
      obtain rfl := Option.some.inj (hz.symm.trans hy)
      rw [hforced] at hf
      obtain ⟨⟨v, hv⟩, -, rfl⟩ := Option.map_eq_some_iff.mp hf
      exact forceable_le hv

theorem sound_run (requests : List Request) (hs : Sound S s) :
    Sound S (requests.foldl (server.handle S) s) := by
  induction requests generalizing s with
  | nil => exact hs
  | cons r requests ih => exact ih (sound_request s r hs)

theorem keeps_of_not_lowers {r : Request} (hs : Sound S s)
    (hlowers : ¬ server.Lowers S imsi s r) : server.Keeps S imsi s r := by
  intro x y hx hy
  cases @change_request _ _ _ server hs r imsi with
  | kept h =>
    obtain rfl := Option.some.inj (hx.symm.trans (h.symm.trans hy))
    exact le_rfl
  | removed h => cases h.symm.trans hy
  | succeeded z z' hz hz' h =>
    obtain rfl := Option.some.inj (hz.symm.trans hx)
    obtain rfl := Option.some.inj (hz'.symm.trans hy)
    exact h.version
  | created z hnone _ _ _ => cases hnone.symm.trans hx
  | put payload clock z hr hdigits hz _ hversion _ =>
    obtain rfl := Option.some.inj (hz.symm.trans hy)
    subst hr
    rw [hversion]
    exact not_lt.mp fun hlt => hlowers ⟨rfl, hdigits.1, hdigits.2.1, hdigits.2.2, x, hx, hlt⟩

theorem not_lowers_of_keeps {r : Request} (hkeeps : server.Keeps S imsi s r) :
    ¬ server.Lowers S imsi s r := by
  intro hlowers
  cases r with
  | override => exact hlowers
  | common r =>
    cases r with
    | edit r =>
      cases r with
      | adminPut key payload clock =>
        obtain ⟨rfl, hdigits, hmin, hmax, x, hx, hlt⟩ := hlowers
        obtain ⟨y, hy, hversion⟩ := version_of_put (S := S) (s := s) payload clock
          ⟨hdigits, hmin, hmax⟩
        have hle := hkeeps x y hx hy
        omega
      | _ => exact hlowers
    | _ => exact hlowers

theorem authenticated_of_deliveredBy {query : ConfigQuery} {evidence : Evidence} {draws : Draws}
    {v : Int} (h : server.deliveredBy S imsi s (.common (.configuration query evidence draws)) =
      some v) :
    ∃ x method outcome, x.imsi = imsi ∧ 0 < v ∧ outcome.version = some v ∧
      ((server.service.resolveIdentity query evidence draws).eval S.step s).1 =
        .ok (.authenticated x method) ∧
      ((server.service.handle query evidence draws).eval S.step s).1 = .ok outcome := by
  rw [Server.deliveredBy] at h
  split at h
  · next x method hresolved =>
    split_ifs at h with himsi
    split at h
    · next outcome houtcome =>
      obtain ⟨hv, hpos⟩ := Option.filter_eq_some_iff.mp h
      exact ⟨x, method, outcome, himsi, of_decide_eq_true hpos, hv, hresolved, houtcome⟩
    · cases h
  · cases h

theorem stored_of_deliveredBy {r : Request} {v : Int} (hs : Sound S s)
    (h : server.deliveredBy S imsi s r = some v) :
    ∃ y, (S.directory (server.handle S s r)).table imsi = some y ∧ y.provisioningVersion = v := by
  cases r with
  | override => cases h
  | common r =>
    cases r with
    | configuration query evidence draws =>
      obtain ⟨x, method, outcome, himsi, hpos, hv, hresolved, houtcome⟩ :=
        authenticated_of_deliveredBy h
      subst himsi
      have hdirectory := directory_resolveIdentity server.service query evidence draws
        (S := S.toChallengeStore) (s := s)
      have hserved : (server.service.handle query evidence draws).eval S.step s =
          (server.service.serveConfiguration x query method draws).eval S.step
            ((server.service.resolveIdentity query evidence draws).eval S.step s).2 := by
        rw [ProvisioningService.handle, Program.eval_bind, hresolved]
      have hhandle : server.handle S s (.common (.configuration query evidence draws)) =
          ((server.service.handle query evidence draws).eval S.step s).2 :=
        congrArg Prod.snd (Program.eval_bind _ _ s)
      rw [hserved] at houtcome hhandle
      obtain ⟨key, hx⟩ := stored_of_authenticated (S := S.toChallengeStore)
        (eval_resolveIdentity.mp hresolved)
      have hkey : x.imsi = key := hs.keyed key x hx
      have hforced := hs.forced key x hx
      rw [← hkey, ← hdirectory] at hx
      rw [hhandle]
      exact stored_of_serveConfiguration hx hforced houtcome hv hpos
    | _ => cases h

/-- While the stored version never decreases, every version delivered is at least the one stored
when the run began, and at least those delivered before. -/
theorem delivered_sorted {requests : List Request} {x : Subscriber} (hs : Sound S s)
    (hx : (S.directory s).table imsi = some x)
    (hexists : Runs.Always (server.handle S) (fun s => (S.directory s).table imsi ≠ none) s requests)
    (hkeeps : Runs.EachStep (server.handle S) (server.Keeps S imsi) s requests) :
    (∀ v ∈ server.delivered S imsi s requests, x.provisioningVersion ≤ v) ∧
      (server.delivered S imsi s requests).Pairwise (· ≤ ·) := by
  induction requests generalizing s x with
  | nil => exact ⟨nofun, .nil⟩
  | cons r requests ih =>
    obtain ⟨y, hy⟩ := Option.ne_none_iff_exists'.mp hexists.2.head
    have hxy : x.provisioningVersion ≤ y.provisioningVersion := hkeeps.1 x y hx hy
    obtain ⟨hge, hsorted⟩ := ih (sound_request s r hs) hy hexists.2 hkeeps.2
    rw [Server.delivered]
    cases hv : server.deliveredBy S imsi s r with
    | none => exact ⟨fun v hmem => hxy.trans (hge v hmem), hsorted⟩
    | some v =>
      obtain ⟨z, hz, hversion⟩ := stored_of_deliveredBy hs hv
      have hyv : y.provisioningVersion = v := by rw [← Option.some.inj (hz.symm.trans hy), hversion]
      refine ⟨?_, List.pairwise_cons.mpr ⟨fun w hw => hyv ▸ hge w hw, hsorted⟩⟩
      intro w hw
      rcases List.mem_cons.mp hw with rfl | hw
      · exact hyv ▸ hxy
      · exact hxy.trans (hge w hw)

theorem advances_iff {requests : List Request} (hs : Sound S s)
    (hexists : Runs.Always (server.handle S) (fun s => (S.directory s).table imsi ≠ none) s
      requests) :
    server.Advances S imsi s requests ↔
      Runs.EachStep (server.handle S) (fun s r => ¬ server.Lowers S imsi s r) s requests := by
  constructor
  · intro h
    exact h.stored.of_invariant (I := fun _ => True)
      (fun s r _ hkeeps => ⟨trivial, not_lowers_of_keeps hkeeps⟩) trivial
  · intro h
    have hstored : Runs.EachStep (server.handle S) (server.Keeps S imsi) s requests :=
      h.of_invariant (fun s r hs hlowers =>
        ⟨sound_request s r hs, keeps_of_not_lowers hs hlowers⟩) hs
    obtain ⟨x, hx⟩ := Option.ne_none_iff_exists'.mp hexists.head
    exact ⟨hstored, (delivered_sorted hs hx hexists hstored).2⟩

end Runs

/-- On each store, for a subscriber that exists throughout: its stored version never decreases, and
the positive versions delivered are in order, exactly if no accepted body of a PUT carries a version
below the stored one. -/
theorem versions_advance_iff (server : Server) (gsi : Gsi) (faults : Nat → Option ClientError)
    (imsi : String) (requests : List Request) :
    (∀ m, Sound memoryVersions m →
      Runs.Always (server.handle memoryVersions)
        (fun m => (memoryVersions.directory m).table imsi ≠ none) m requests →
      (server.Advances memoryVersions imsi m requests ↔
        Runs.EachStep (server.handle memoryVersions)
          (fun m r => ¬ server.Lowers memoryVersions imsi m r) m requests)) ∧
    ∀ t, Sound (dynamoVersions gsi faults) t →
      Runs.Always (server.handle (dynamoVersions gsi faults))
        (fun t => ((dynamoVersions gsi faults).directory t).table imsi ≠ none) t requests →
      (server.Advances (dynamoVersions gsi faults) imsi t requests ↔
        Runs.EachStep (server.handle (dynamoVersions gsi faults))
          (fun t r => ¬ server.Lowers (dynamoVersions gsi faults) imsi t r) t requests) :=
  ⟨fun _ => advances_iff, fun _ => advances_iff⟩

namespace Lab

def server : Server := ⟨labServer, ⟨[]⟩⟩

def put (version : Nat) : Request :=
  .common (.edit (.adminPut "450051234567890"
    { msisdn := "+821012345678", provisioningVersion := version } ⟨1700000000, Clock.pos_start⟩))

def invalidate : Request :=
  .common (.invalidate "450051234567890" ⟨1700000060, Clock.pos_minute⟩)

/-- A gateway vouches for a client that holds version 1. -/
def serve : Request :=
  .common (.configuration { vers := 1 } { enrichedMsisdn := some "+821012345678" }
    (OnDynamo.labRequest "s3cret" OnDynamo.labPassword_ne).draws)

theorem sound_empty : Sound memoryVersions {} := ⟨nofun, nofun⟩

/-- A client is served version 1, and the next one once the operator has asked for that. -/
theorem versions_advance_of_bump :
    let s := server.handle memoryVersions {} (put 1)
    server.delivered memoryVersions "450051234567890" s [serve, invalidate, serve] = [1, 2] ∧
      server.Advances memoryVersions "450051234567890" s [serve, invalidate, serve] := by
  refine ⟨rfl, ((versions_advance_iff server OnDynamo.labGsi (fun _ => none) "450051234567890"
    [serve, invalidate, serve]).1 _ (sound_run [put 1] sound_empty) ?_).mpr ⟨id, id, id, trivial⟩⟩
  refine ⟨?_, ?_, ?_, ?_⟩
  · exact Option.some_ne_none _
  · exact Option.some_ne_none _
  · exact Option.some_ne_none _
  · exact Option.some_ne_none _

/-- A body without a version carries 1, which takes a bumped version back. -/
theorem version_put_back :
    ¬ server.Advances memoryVersions "450051234567890"
      (server.handle memoryVersions {} (put 1)) [invalidate, put 1] := by
  intro h
  have hle := h.stored.2.1 _ _ rfl rfl
  revert hle
  decide

end Lab

end Acs.VersionRuns
