import Acs.Api.Admin
import Acs.Domain.ServiceSteps
import Acs.Interleave.Runs
import Acs.Store.DynamoDb

/-! Configuration requests and admin writes on `DynamoDbStore`: what each may do to the table,
request to the service by request to the service. -/

namespace Acs.OnDynamo
open Interleave Function
open ProvisioningService (Derived StoreEvents)

abbrev ItemEvents := List (Event ItemOp.Answer)

def readOf : Event ItemOp.Answer → Option Subscriber
  | ⟨.getSubscriber _, found⟩ => found
  | _ => none

/-- The first subscriber a thread read: the one a configuration request serves, and the one an
admin write starts from. -/
def identityRead (h : ItemEvents) : Option Subscriber := h.findSome? readOf

def Quiet : ItemOp → Prop
  | .getMsisdn _ => True
  | .putMsisdn _ _ => True
  | .deleteMsisdn _ => True
  | .getQuota _ => True
  | .getChallenge _ => True
  | .transactIssue .. => True
  | .replaceChallenge .. => True
  | .getToken _ => True
  | .getDevice _ => True
  | .putDevice _ => True
  | _ => False

theorem readOf_quiet {e : Event ItemOp.Answer} (h : Quiet e.1) : readOf e = none := by
  obtain ⟨op, ans⟩ := e
  cases op <;> first | rfl | exact h.elim

theorem identityRead_append (h es : ItemEvents) :
    identityRead (h ++ es) = (identityRead h).or (identityRead es) := List.findSome?_append ..

theorem identityRead_quiet {h es : ItemEvents} (hes : ∀ e ∈ es, Quiet e.1) :
    identityRead (h ++ es) = identityRead h := by
  have hnone : identityRead es = none :=
    List.findSome?_eq_none_iff.mpr fun e he => readOf_quiet (hes e he)
  rw [identityRead_append, hnone, Option.or_none]

theorem identityRead_snoc (h : ItemEvents) (e : Event ItemOp.Answer) :
    identityRead (h ++ [e]) = (identityRead h).or (readOf e) := by
  rw [identityRead_append, identityRead, identityRead]
  cases hread : readOf e <;> simp [hread]

theorem mem_of_identityRead {h : ItemEvents} {s : Subscriber} (hs : identityRead h = some s) :
    ∃ imsi, ⟨.getSubscriber imsi, some s⟩ ∈ h := by
  obtain ⟨⟨op, ans⟩, hmem, hread⟩ := List.exists_of_findSome?_eq_some hs
  cases op with
  | getSubscriber imsi =>
    cases hread
    exact ⟨imsi, hmem⟩
  | _ => cases hread

/-! ### Configuration requests -/

namespace Configuration

structure Request where
  query : ConfigQuery
  evidence : Evidence
  draws : Draws

/-- The operations of a configuration request after the events `h`. -/
def Allowed (draws : Draws) (h : ItemEvents) : ItemOp → Prop
  | .putSubscriber x => ∃ s, identityRead h = some s ∧ s.forcedVers = none ∧ Derived draws s x
  | .putToken r =>
    ∃ s, identityRead h = some s ∧ s.forcedVers = none ∧ r.imsi = s.imsi ∧ r.revoked = false
  | .deleteSubscriber _ => False
  | .queryTokens _ _ => False
  | .updateRevoked _ => False
  | _ => True

theorem allowed_quiet (draws : Draws) (h : ItemEvents) (op : ItemOp) (hop : Quiet op) :
    Allowed draws h op := by
  cases op <;> first | exact trivial | exact hop.elim

/-- The DM accounts of an answer belong to the subscriber read, under the password read or one
that is among the puts. -/
structure Accounted (settings : Settings) (h : ItemEvents) (c : Characteristic) (s : Subscriber)
    (secret : String) : Prop where
  read : identityRead h = some s
  built : ∃ values, c = Builder.dmAccountCharacteristic settings ⟨s.imsi, values⟩ secret
  ne : secret ≠ ""
  stored : secret = s.dmPassword ∨
    ∃ x, ⟨.putSubscriber x, ()⟩ ∈ h ∧ x.imsi = s.imsi ∧ x.dmPassword = secret

def Delivers (settings : Settings) (h : ItemEvents) :
    Except ServiceError ProvisioningOutcome → Prop
  | .ok outcome => ∀ doc, outcome.body = some doc → ∀ c ∈ doc.characteristics,
    c.isApplication appIdDmAccount = true → ∃ s secret, Accounted settings h c s secret
  | .error _ => True

structure Implements (h : StoreEvents) (h' : ItemEvents) : Prop where
  read : ProvisioningService.identityRead h = identityRead h'
  puts : ∀ x clock, ⟨.putSubscriber x clock, ()⟩ ∈ h →
    ⟨.putSubscriber { x with updatedAt := clock.now }, ()⟩ ∈ h'

section Implements
variable {h : StoreEvents} {h' es : ItemEvents} {draws : Draws}

theorem implements_nil : Implements [] [] := ⟨rfl, fun _ _ hmem => nomatch hmem⟩

theorem Implements.snoc (hR : Implements h h') {e : Event StoreOp.Answer}
    (hread : (identityRead h').or (ProvisioningService.readOf e) = identityRead (h' ++ es))
    (hput : ∀ x clock, e ≠ ⟨.putSubscriber x clock, ()⟩) : Implements (h ++ [e]) (h' ++ es) := by
  constructor
  · have hone : ProvisioningService.identityRead [e] = ProvisioningService.readOf e := by
      unfold ProvisioningService.identityRead
      cases he : ProvisioningService.readOf e <;> simp [he]
    rw [ProvisioningService.identityRead_append, hone, hR.read, hread]
  · intro x clock hmem
    rcases List.mem_append.mp hmem with hmem | hmem
    · exact List.mem_append_left _ (hR.puts x clock hmem)
    · exact absurd (List.mem_singleton.mp hmem).symm (hput x clock)

theorem Implements.snoc_put (hR : Implements h h') {x s : Subscriber} {clock : Clock}
    (hs : identityRead h' = some s)
    (hput : ⟨.putSubscriber { x with updatedAt := clock.now }, ()⟩ ∈ es) :
    Implements (h ++ [⟨.putSubscriber x clock, ()⟩]) (h' ++ es) := by
  constructor
  · rw [ProvisioningService.identityRead_append, hR.read, identityRead_append, hs, Option.some_or,
      Option.some_or]
  · intro y clock' hmem
    rcases List.mem_append.mp hmem with hmem | hmem
    · exact List.mem_append_left _ (hR.puts y clock' hmem)
    · cases List.mem_singleton.mp hmem
      exact List.mem_append_right _ hput

theorem implements_quiet (hR : Implements h h') {op : StoreOp} {p : ItemProgram op.Answer}
    (hop : ProvisioningService.Quiet op) (hp : p.Uses Quiet) :
    p.Obeys (Allowed draws) (fun h'' ans => Implements (h ++ [⟨op, ans⟩]) h'') h' := by
  have hbind : (p >>= fun ans => .result ans) = p := by
    clear hp
    induction p with
    | result a => rfl
    | call op next ih => exact congrArg _ (funext ih)
  rw [← hbind]
  apply hp.obeys_bind (allowed_quiet draws)
  intro es ans hes
  apply hR.snoc
  · rw [ProvisioningService.readOf_quiet hop, Option.or_none, identityRead_quiet hes]
  · rintro x clock heq
    rw [Sigma.mk.injEq] at heq
    rw [heq.1] at hop
    exact hop

end Implements

theorem issueFrom_uses (challenge : OtpChallenge) (cooldown cap now : Int) (clock : Clock)
    (faults : Nat → Option ClientError) (rounds : Nat) :
    (DynamoDb.issueFrom challenge cooldown cap now clock faults rounds).Uses Quiet := by
  induction rounds with
  | zero => trivial
  | succ rounds ih =>
    refine Program.Uses.bind ⟨trivial, fun _ => trivial⟩ fun quota => ?_
    refine Program.Uses.bind ⟨trivial, fun _ => trivial⟩ fun existing => ?_
    dsimp only
    split
    · trivial
    · refine Program.Uses.bind ⟨trivial, fun _ => trivial⟩ fun committed => ?_
      cases committed with
      | ok done => trivial
      | error e =>
        dsimp only
        split_ifs
        · exact ih
        · trivial

theorem getToken_uses (tokenHash : String) : (DynamoDb.getToken tokenHash).Uses Quiet := by
  refine Program.Uses.bind ⟨trivial, fun _ => trivial⟩ fun found => ?_
  cases found <;> trivial

theorem impl_obeys (draws : Draws) (faults : Nat → Option ClientError) (op : StoreOp)
    (h : StoreEvents) (h' : ItemEvents) (hR : Implements h h')
    (hop : ProvisioningService.Allowed draws h op) :
    (DynamoDb.impl faults op).Obeys (Allowed draws)
      (fun h'' ans => Implements (h ++ [⟨op, ans⟩]) h'') h' := by
  cases op with
  | getSubscriber imsi =>
    refine ⟨trivial, fun found => hR.snoc ?_ fun _ _ heq => nomatch heq⟩
    rw [identityRead_snoc]
    rfl
  | getSubscriberByMsisdn msisdn =>
    refine ⟨trivial, fun entry => ?_⟩
    cases entry with
    -- nothing is read of a subscriber, or what the index leads to
    | none =>
      refine hR.snoc ?_ fun _ _ heq => nomatch heq
      rw [identityRead_snoc]
      rfl
    | some imsi =>
      refine ⟨trivial, fun found => ?_⟩
      rw [List.append_assoc]
      refine hR.snoc ?_ fun _ _ heq => nomatch heq
      rw [← List.append_assoc, identityRead_snoc, identityRead_snoc]
      exact congrArg (Option.or · found) (Option.or_none).symm
  | putSubscriber x clock =>
    obtain ⟨s, hs, hforced, hderived⟩ := hop
    rw [hR.read] at hs
    -- what is put was made of the record that the program has read
    have hread : ∀ e, identityRead (h' ++ [e]) = some s := fun e => by
      rw [identityRead_append, hs, Option.some_or]
    refine ⟨trivial, fun previous => ⟨⟨s, hread _, hforced, hderived.imsi, hderived.forcedVers,
      hderived.dmPassword⟩, fun _ => ⟨trivial, fun _ => ?_⟩⟩⟩
    have hdone : ∀ es, Implements (h ++ [⟨.putSubscriber x clock, ()⟩])
        (h' ++ [⟨.getSubscriber x.imsi, previous⟩] ++
          [⟨.putSubscriber { x with updatedAt := clock.now }, ()⟩] ++ es) := by
      intro es
      rw [List.append_assoc, List.append_assoc]
      exact hR.snoc_put hs (by simp)
    cases previous with
    | none => exact hdone _
    | some p =>
      change Program.Obeys _ _ (if _ then _ else _) _
      split_ifs
      -- the entry of the old number goes after that of the new one is there
      · refine ⟨trivial, fun _ => ?_⟩
        have hdeleted := hdone ([⟨.putMsisdn x.msisdn x.imsi, ()⟩] ++ [⟨.deleteMsisdn p.msisdn, ()⟩])
        rwa [← List.append_assoc] at hdeleted
      · exact hdone _
  | deleteSubscriber imsi => exact hop.elim
  | revokeToken tokenHash => exact hop.elim
  | revokeTokensForImsi imsi => exact hop.elim
  | putToken r =>
    obtain ⟨s, hs, hrest⟩ := hop
    refine ⟨⟨s, hR.read ▸ hs, hrest⟩, fun _ => hR.snoc ?_ fun _ _ heq => nomatch heq⟩
    rw [identityRead_snoc]
    rfl
  | editSubscriber x => exact implements_quiet hR trivial trivial
  | getOtp msisdn => exact implements_quiet hR trivial ⟨trivial, fun _ => trivial⟩
  | issueOtp challenge cooldown cap now clock =>
    exact implements_quiet hR trivial (issueFrom_uses ..)
  | replaceOtp expected replacement =>
    exact implements_quiet hR trivial ⟨trivial, fun _ => trivial⟩
  | getToken tokenHash => exact implements_quiet hR trivial (getToken_uses tokenHash)
  | getDevice deviceId => exact implements_quiet hR trivial ⟨trivial, fun _ => trivial⟩
  | putDevice device => exact implements_quiet hR trivial ⟨trivial, fun _ => trivial⟩

theorem handle_obeys (service : ProvisioningService) (faults : Nat → Option ClientError)
    (query : ConfigQuery) (evidence : Evidence) (draws : Draws) :
    ((service.handle query evidence draws).interpret (DynamoDb.impl faults)).Obeys (Allowed draws)
      (Delivers service.settings) [] := by
  refine Program.Obeys.interpret (impl_obeys draws faults) (fun h h' answer hR hdelivers => ?_)
    (service.handle_obeys query evidence draws) implements_nil
  cases answer with
  | error e => trivial
  | ok outcome =>
    intro doc hdoc c hc haccount
    obtain ⟨s, secret, hacc⟩ := hdelivers doc hdoc c hc haccount
    refine ⟨s, secret, hR.read ▸ hacc.read, hacc.built, hacc.ne, ?_⟩
    rcases hacc.stored with hread | ⟨x, clock, hput, himsi, hpassword⟩
    · exact Or.inl hread
    · exact Or.inr ⟨_, hR.puts x clock hput, himsi, hpassword⟩

end Configuration

section Steps
variable {guard : ItemEvents → ItemOp → Prop} {β : Type} {post : ItemEvents → β → Prop}
  {h : ItemEvents}

theorem putSubscriber_obeys {k : Unit → ItemProgram β} (x : Subscriber) (clock : Clock)
    (hquiet : ∀ h op, Quiet op → guard h op) (hget : ∀ h, guard h (.getSubscriber x.imsi))
    (hput : ∀ e, guard (h ++ [e]) (.putSubscriber { x with updatedAt := clock.now }))
    (hk : ∀ a b, (k ()).Obeys guard post
      (h ++ (a ++ ⟨.putSubscriber { x with updatedAt := clock.now }, ()⟩ :: b))) :
    (DynamoDb.putSubscriber x clock >>= k).Obeys guard post h := by
  refine ⟨hget h, fun previous => ⟨hput _, fun _ => ⟨hquiet _ _ trivial, fun _ => ?_⟩⟩⟩
  have hdone : ∀ es, (k ()).Obeys guard post (h ++ [⟨.getSubscriber x.imsi, previous⟩] ++
      [⟨.putSubscriber { x with updatedAt := clock.now }, ()⟩] ++ es) := by
    intro es
    have hput := hk [⟨.getSubscriber x.imsi, previous⟩] es
    simpa only [List.append_assoc, List.cons_append, List.nil_append] using hput
  cases previous with
  | none => exact hdone _
  | some p =>
    change Program.Obeys _ _ ((if _ then _ else _ : ItemProgram Unit) >>= k) _
    split_ifs
    · refine ⟨hquiet _ _ trivial, fun _ => ?_⟩
      have hdeleted := hdone ([⟨.putMsisdn x.msisdn x.imsi, ()⟩] ++ [⟨.deleteMsisdn p.msisdn, ()⟩])
      rwa [← List.append_assoc] at hdeleted
    · exact hdone _

theorem revokeEach_obeys {k : Nat → ItemProgram β} (items : List TokenRecord)
    (hguard : ∀ h tokenHash, guard h (.updateRevoked tokenHash))
    (hk : ∀ es n, (∀ r ∈ items, r.revoked = false → ⟨.updateRevoked r.tokenHash, ()⟩ ∈ es) →
      (k n).Obeys guard post (h ++ es)) :
    (DynamoDb.revokeEach items >>= k).Obeys guard post h := by
  induction items generalizing h k with
  | nil =>
    have hnil := hk [] 0 fun _ hr => nomatch hr
    rwa [List.append_nil] at hnil
  | cons r items ih =>
    unfold DynamoDb.revokeEach
    split_ifs with hrevoked
    · refine ih fun es n hes => hk es n fun r' hr' hlive => ?_
      rcases List.mem_cons.mp hr' with rfl | hr'
      · exact absurd (hrevoked.symm.trans hlive) (by decide)
      · exact hes r' hr' hlive
    · refine ⟨hguard _ _, fun _ => ?_⟩
      change ((DynamoDb.revokeEach items >>= fun count => .result (count + 1)) >>= k).Obeys _ _ _
      rw [Program.bind_assoc]
      refine ih fun es n hes => ?_
      rw [List.append_assoc]
      refine hk _ (n + 1) fun r' hr' hlive => ?_
      rcases List.mem_cons.mp hr' with rfl | hr'
      · exact List.mem_append_left _ (List.mem_singleton_self _)
      · exact List.mem_append_right _ (hes r' hr' hlive)

end Steps

namespace Disable
variable {imsi : String} {vers : Int}

def Allowed (imsi : String) (vers : Int) (h : ItemEvents) : ItemOp → Prop
  | .putSubscriber x =>
    x.forcedVers = some vers ∧ ∃ s, ⟨.getSubscriber imsi, some s⟩ ∈ h ∧ x.imsi = s.imsi
  | .deleteSubscriber _ => False
  | .putToken _ => False
  | _ => True

/-- A disable that is carried out forces the version, and then revokes what the first page of the
IMSI's tokens shows live. -/
def Done (imsi : String) : ItemEvents → Admin.Response Subscriber → Prop
  | h, .ok _ => ∃ a x b page c,
    h = a ++ ⟨.putSubscriber x, ()⟩ :: (b ++ ⟨.queryTokens imsi 100, page⟩ :: c) ∧
      ∀ r ∈ page, r.revoked = false → ⟨.updateRevoked r.tokenHash, ()⟩ ∈ c
  | _, .error _ => True

theorem disableSubscriber_obeys (faults : Nat → Option ClientError) (clock : Clock) :
    ((Admin.disableSubscriber imsi vers clock).interpret (DynamoDb.impl faults)).Obeys
      (Allowed imsi vers) (Done imsi) [] := by
  unfold Admin.disableSubscriber
  split_ifs
  · refine ⟨trivial, fun found => ?_⟩
    cases found with
    | none => trivial
    | some s =>
      let x : Subscriber := { s with forcedVers := some vers }
      change (DynamoDb.putSubscriber x clock >>= fun _ =>
        .call (ItemOp.queryTokens imsi 100) fun page =>
          DynamoDb.revokeEach page >>= fun _ =>
            .result (Except.ok x : Admin.Response Subscriber)).Obeys _ _ _
      apply putSubscriber_obeys x clock
      · intro h op hop
        cases op <;> first | exact trivial | exact hop.elim
      · exact fun _ => trivial
      · exact fun e => ⟨rfl, s, by simp, rfl⟩
      · intro a b
        refine ⟨trivial, fun page => ?_⟩
        refine revokeEach_obeys page (fun _ _ => trivial) fun es _ hes => ?_
        exact ⟨⟨.getSubscriber imsi, some s⟩ :: a, { x with updatedAt := clock.now }, b, page, es,
          by simp, hes⟩
  · trivial

end Disable

namespace Put

def Allowed (imsi : String) (h : ItemEvents) : ItemOp → Prop
  | .putSubscriber x => x.imsi = imsi ∧ ∃ existing, h.head? = some ⟨.getSubscriber imsi, existing⟩ ∧
    x.dmPassword = (existing.map Subscriber.dmPassword).getD ""
  | .deleteSubscriber _ => False
  | .putToken _ => False
  | _ => True

theorem putSubscriber_obeys (py : PyText) (faults : Nat → Option ClientError) (imsi : String)
    (payload : Admin.SubscriberIn) (clock : Clock) :
    ((Admin.putSubscriber py imsi payload clock).interpret (DynamoDb.impl faults)).Obeys
      (Allowed imsi) (fun _ _ => True) [] := by
  unfold Admin.putSubscriber
  split_ifs
  · trivial
  · refine ⟨trivial, fun existing => ?_⟩
    apply OnDynamo.putSubscriber_obeys
    · intro h op hop
      cases op <;> first | exact trivial | exact hop.elim
    · exact fun _ => trivial
    · refine fun e => ⟨rfl, existing, rfl, ?_⟩
      cases existing <;> rfl
    · exact fun _ _ => trivial

end Put

section Table
variable {gsi : Gsi} {t : DynamoTable}

theorem exec_quiet {op : ItemOp} (hop : Quiet op) :
    (DynamoTable.exec gsi op t).2.subscribers = t.subscribers ∧
      (DynamoTable.exec gsi op t).2.tokens = t.tokens := by
  cases op with
  | transactIssue m quota version item existing fault =>
    cases fault with
    | some e => exact ⟨rfl, rfl⟩
    | none =>
      simp only [DynamoTable.exec, DynamoTable.transactIssue]
      split_ifs <;> exact ⟨rfl, rfl⟩
  | replaceChallenge m expected replacement =>
    simp only [DynamoTable.exec, DynamoTable.replaceChallenge]
    cases t.challenges m with
    | none => exact ⟨rfl, rfl⟩
    | some c =>
      dsimp only
      split_ifs <;> exact ⟨rfl, rfl⟩
  | getSubscriber _ => exact hop.elim
  | putSubscriber _ => exact hop.elim
  | deleteSubscriber _ => exact hop.elim
  | putToken _ => exact hop.elim
  | queryTokens _ _ => exact hop.elim
  | updateRevoked _ => exact hop.elim
  | _ => exact ⟨rfl, rfl⟩

def Keyed (t : DynamoTable) : Prop := ∀ imsi x, t.subscribers imsi = some x → x.imsi = imsi

theorem keyed_update {subscribers : String → Option Subscriber} {k : String} {v : Option Subscriber}
    (h : ∀ imsi x, subscribers imsi = some x → x.imsi = imsi) (hv : ∀ x, v = some x → x.imsi = k) :
    ∀ imsi x, update subscribers k v imsi = some x → x.imsi = imsi := by
  intro imsi x hx
  by_cases hk : imsi = k
  · subst hk
    exact hv x (by simpa using hx)
  · exact h imsi x (by simpa [hk] using hx)

theorem Keyed.exec (h : Keyed t) (op : ItemOp) : Keyed (DynamoTable.exec gsi op t).2 := by
  by_cases hop : Quiet op
  · unfold Keyed
    rw [(exec_quiet hop).1]
    exact h
  · cases op with
    | putSubscriber x => exact keyed_update h fun y hy => Option.some.inj hy ▸ rfl
    | deleteSubscriber imsi => exact keyed_update h fun _ hy => nomatch hy
    | getSubscriber _ => exact h
    | putToken _ => exact h
    | queryTokens _ _ => exact h
    | updateRevoked _ => exact h
    | _ => exact absurd trivial hop

variable {ι : Type} [DecidableEq ι] {guard : ι → ItemEvents → ItemOp → Prop} {t₀ : DynamoTable}
  {tr : List (ι × Event ItemOp.Answer)}

theorem keyed_of_history (h₀ : Keyed t₀) (h : History (DynamoTable.exec gsi) guard t₀ tr t) :
    Keyed t :=
  h.invariant (P := fun _ t => Keyed t) h₀ fun _ _ _ op _ _ hk => hk.exec op

theorem imsi_of_read (h₀ : Keyed t₀) (h : History (DynamoTable.exec gsi) guard t₀ tr t) {i : ι}
    {imsi : String} {x : Subscriber} (hread : (i, ⟨.getSubscriber imsi, some x⟩) ∈ tr) :
    x.imsi = imsi := by
  obtain ⟨pre, post, rfl⟩ := List.append_of_mem hread
  obtain ⟨hpre, -, hans⟩ := h.at
  exact keyed_of_history h₀ hpre imsi x hans.symm

end Table

def labService : ProvisioningService where
  settings := {}
  policy := {}
  env := { py := asciiText, vformat := fun s _ => .ok s, getCatalog := fun _ => .ok ⟨[], by simp⟩ }
  sha256 token := if token = "k1xDq0" then
      "a3190236cd413fb8ec04874620eeb3d63d20b66eddf2cbc306f7f4ecfc1c0414"
    else token

def labSubscriber : Subscriber where
  imsi := "450051234567890"
  msisdn := "+821012345678"
  createdAt := 1700000000
  updatedAt := 1700000000

def labTable : DynamoTable where
  subscribers := update (fun _ => none) labSubscriber.imsi (some labSubscriber)
  msisdns := update (fun _ => none) labSubscriber.msisdn (some labSubscriber.imsi)

def labGsi : Gsi := ⟨id, fun _ => .refl _⟩

def labExec (op : ItemOp) (t : DynamoTable) : op.Answer × DynamoTable := DynamoTable.exec labGsi op t

theorem keyed_labTable : Keyed labTable :=
  keyed_update (fun _ _ h => nomatch h) fun _ h => Option.some.inj h ▸ rfl

theorem labPassword_ne : "s3cret" ≠ "" := by decide

/-- A request of the subscriber's handset, vouched for by the gateway. -/
def labRequest (dmPassword : String) (hne : dmPassword ≠ "") : Configuration.Request where
  query := { imei := some "356938035643809", apps := [appIdDmAccount] }
  evidence := { enrichedMsisdn := some labSubscriber.msisdn }
  draws :=
    let clock : Clock := ⟨1700000100, Clock.pos_later⟩
    { token := "k1xDq0", dmPassword, dmPassword_ne := hne, otp := "381204", challengeId := "c1"
      gbaNonce := "n1", sms := .sent, verifiedAt := clock, challengedAt := clock
      versionedAt := clock, issuedAt := clock, passwordAt := clock, seenAt := clock }

end Acs.OnDynamo
