import Acs.Api.Console
import Acs.Data.Runs
import Acs.Data.SecondaryIndex
import Acs.Store.DynamoDb

/-! `get_subscriber_by_msisdn` while operators create, change and delete subscribers, one request
at a time, on either store. -/

namespace Acs.MsisdnIndex
open Interleave SecondaryIndex Function

abbrev Directory := Indexed String String Subscriber

structure DirectoryStore (σ : Type) where
  step : (op : StoreOp) → σ → op.Answer × σ
  directory : σ → Directory
  /-- Whether an assignment to a record the store returned reaches the store. -/
  live : Bool
  stamp : Subscriber → Clock → Subscriber
  stamp_imsi : ∀ x clock, (stamp x clock).imsi = x.imsi
  stamp_msisdn : ∀ x clock, (stamp x clock).msisdn = x.msisdn
  get : ∀ imsi s, step (.getSubscriber imsi) s = ((directory s).table imsi, s)
  byMsisdn : ∀ msisdn s, (directory s).table "" = none →
    (step (.getSubscriberByMsisdn msisdn) s).1 = (directory s).lookup msisdn
  put : ∀ x clock s, directory (step (.putSubscriber x clock) s).2 =
    (directory s).put Subscriber.msisdn x.imsi (stamp x clock)
  edit : ∀ x s, directory (step (.editSubscriber x) s).2 =
    if live = true ∧ (directory s).table x.imsi ≠ none then (directory s).overwrite x.imsi x
    else directory s
  delete : ∀ imsi s, directory (step (.deleteSubscriber imsi) s).2 =
    (directory s).remove Subscriber.msisdn imsi
  revoke : ∀ imsi s, directory (step (.revokeTokensForImsi imsi) s).2 = directory s

def memoryDirectory : DirectoryStore MemoryStore where
  step := MemoryStore.exec
  directory m := ⟨m.subscribers, m.msisdnIndex⟩
  live := true
  stamp x _ := x
  stamp_imsi _ _ := rfl
  stamp_msisdn _ _ := rfl
  get _ _ := rfl
  byMsisdn msisdn m hempty := by
    simp only [MemoryStore.exec, MemoryStore.getSubscriberByMsisdn, Indexed.lookup]
    cases m.msisdnIndex msisdn with
    | none => rfl
    | some imsi =>
      by_cases himsi : imsi = ""
      · simpa [himsi] using hempty.symm
      · simp [himsi]
  put x _ m := by
    simp only [MemoryStore.exec, MemoryStore.putSubscriber, Indexed.put]
    cases hx : m.subscribers x.imsi <;> rfl
  edit x m := by
    simp only [MemoryStore.exec, MemoryStore.editSubscriber, Indexed.overwrite]
    cases hx : m.subscribers x.imsi <;> simp
  delete imsi m := by
    simp only [MemoryStore.exec, MemoryStore.deleteSubscriber, Indexed.remove]
    cases hx : m.subscribers imsi with
    | none => simp [← hx]
    | some x => rfl
  revoke _ _ := rfl

section Dynamo
variable (gsi : Gsi) (faults : Nat → Option ClientError)

theorem directory_revokeEach (items : List TokenRecord) (t : DynamoTable) :
    ((DynamoDb.revokeEach items).eval (DynamoTable.exec gsi) t).2.subscribers = t.subscribers ∧
      ((DynamoDb.revokeEach items).eval (DynamoTable.exec gsi) t).2.msisdns = t.msisdns := by
  induction items generalizing t with
  | nil => exact ⟨rfl, rfl⟩
  | cons x items ih =>
    unfold DynamoDb.revokeEach
    split_ifs
    · exact ih t
    · rw [Program.eval_bind, Program.eval_bind]
      exact ih (DynamoTable.exec gsi (.updateRevoked x.tokenHash) t).2

def dynamoDirectory : DirectoryStore DynamoTable where
  step := DynamoDb.run gsi faults
  directory t := ⟨t.subscribers, t.msisdns⟩
  live := false
  stamp x clock := { x with updatedAt := clock.now }
  stamp_imsi _ _ := rfl
  stamp_msisdn _ _ := rfl
  get _ _ := rfl
  byMsisdn msisdn t _ := by
    simp only [DynamoDb.run, DynamoDb.impl, DynamoDb.getSubscriberByMsisdn,
      Program.perform_bind, Program.eval_call, DynamoTable.exec, Indexed.lookup]
    cases t.msisdns msisdn <;> rfl
  put x clock t := by
    simp only [DynamoDb.run, DynamoDb.impl, DynamoDb.putSubscriber, DynamoDb.getSubscriber,
      Program.perform_bind, Program.eval_call, DynamoTable.exec, Indexed.put]
    cases hx : t.subscribers x.imsi with
    | none => rfl
    | some old =>
      by_cases hold : old.msisdn = x.msisdn
      · simp [hold]
      · have hcomm := update_comm hold (none : Option String) (some x.imsi) t.msisdns
        simpa [hold, Program.perform, DynamoTable.exec] using hcomm.symm
  edit x t := by simp [DynamoDb.run, DynamoDb.impl]
  delete imsi t := by
    simp only [DynamoDb.run, DynamoDb.impl, DynamoDb.deleteSubscriber, DynamoDb.getSubscriber,
      Program.perform_bind, Program.eval_call, DynamoTable.exec, Indexed.remove]
    cases t.subscribers imsi <;> rfl
  revoke imsi t := by
    have h := directory_revokeEach gsi ((gsi.sort (t.tokens.filter (·.imsi = imsi))).take 100) t
    simp only [DynamoDb.run, DynamoDb.impl, DynamoDb.revokeTokensForImsi, Program.perform_bind,
      Program.eval_call, DynamoTable.exec, h.1, h.2]

end Dynamo

/-! ### Requests -/

inductive Request
  | adminPut (imsi : String) (payload : Admin.SubscriberIn) (clock : Clock)
  | adminDelete (imsi : String)
  | consoleCreate (imsi msisdn rcsProfile entitled volteEnabled : String) (clock : Clock)
  | consoleUpdate (imsi msisdn rcsProfile forcedVers imeiAllowlist entitled volteEnabled : String)
      (clock : Clock)
  | consoleDelete (imsi : String) (clock : Clock)

namespace Request
variable (py : PyText) (settings : Settings) (sha256 : String → String)

def program : Request → StoreProgram Unit
  | adminPut imsi payload clock => do
    let _ ← Admin.putSubscriber py imsi payload clock
    return ()
  | adminDelete imsi => do
    let _ ← Admin.deleteSubscriber imsi
    return ()
  | consoleCreate imsi msisdn rcsProfile entitled volteEnabled clock => do
    let _ ← Console.subscriberCreate py settings imsi msisdn rcsProfile entitled volteEnabled clock
    return ()
  | consoleUpdate imsi msisdn rcsProfile forcedVers imeiAllowlist entitled volteEnabled clock => do
    let _ ← Console.subscriberUpdate py settings imsi msisdn rcsProfile forcedVers imeiAllowlist
      entitled volteEnabled clock
    return ()
  | consoleDelete imsi clock => do
    let _ ← Console.subscriberAction settings sha256 imsi .delete clock ""
    return ()

def imsi : Request → String
  | adminPut imsi .. => imsi
  | adminDelete imsi => imsi
  | consoleCreate imsi .. => py.strip imsi
  | consoleUpdate imsi .. => imsi
  | consoleDelete imsi _ => imsi

/-- The number a request leaves on the record `x` of its IMSI; none if it deletes the record. -/
def leaves (x : Subscriber) : Request → Option String
  | adminPut imsi payload _ =>
    if !py.digits imsi || imsi.length < 5 || 15 < imsi.length then some x.msisdn
    else some payload.msisdn
  | adminDelete _ => none
  | consoleCreate .. => some x.msisdn
  | consoleUpdate _ msisdn _ forcedVers imeiAllowlist _ _ _ =>
    match normaliseMsisdn py settings msisdn, Console.forcedOf py forcedVers with
    | some normalised, .ok _ =>
      let bad := (Console.allowlistOf py imeiAllowlist).filter fun item =>
        !py.digits item || item.length < 14 || 16 < item.length
      if bad ≠ [] then some x.msisdn else some normalised
    | _, _ => some x.msisdn
  | consoleDelete _ _ => none

def edits : Request → Bool
  | consoleUpdate .. => true
  | _ => false

end Request

/-- A request that takes its number from the stored record finds no other record with it; an edit
in place finds the index not to point at the record. -/
def Spares (d : Directory) (imsi : String) (leaves : Subscriber → Option String) (inPlace : Bool) :
    Prop :=
  ∀ x, d.table imsi = some x → leaves x ≠ some x.msisdn →
    if inPlace then d.index x.msisdn ≠ some imsi else d.Alone Subscriber.msisdn imsi x.msisdn

inductive Effect (d : Directory) (imsi : String) (leaves : Subscriber → Option String)
    (inPlace : Bool) : Directory → Prop
  | nothing (h : ∀ x, d.table imsi = some x → leaves x = some x.msisdn) :
    Effect d imsi leaves inPlace d
  | put (y : Subscriber) (hy : y.imsi = imsi) (hne : imsi ≠ "") (hplace : inPlace = false)
      (h : ∀ x, d.table imsi = some x → leaves x = some y.msisdn) :
    Effect d imsi leaves inPlace (d.put Subscriber.msisdn imsi y)
  | edit (x y : Subscriber) (hy : y.imsi = imsi) (hne : imsi ≠ "") (hplace : inPlace = true)
      (hxy : x.msisdn = y.msisdn) (h : ∀ x, d.table imsi = some x → leaves x = some y.msisdn) :
    Effect d imsi leaves inPlace ((d.overwrite imsi x).put Subscriber.msisdn imsi y)
  | remove (hplace : inPlace = false) (h : ∀ x, leaves x = none) :
    Effect d imsi leaves inPlace (d.remove Subscriber.msisdn imsi)

/-- Records stand under their own IMSI, which is not empty, and agree with the index. -/
structure Valid (d : Directory) : Prop where
  keyed : ∀ imsi x, d.table imsi = some x → x.imsi = imsi ∧ imsi ≠ ""
  consistent : d.Consistent Subscriber.msisdn

section Effect
variable {d d' : Directory} {imsi : String} {leaves : Subscriber → Option String} {inPlace : Bool}

theorem keyed_update {v : Option Subscriber} {index : String → Option String}
    (h : ∀ imsi x, d.table imsi = some x → x.imsi = imsi ∧ imsi ≠ "")
    (hv : ∀ y, v = some y → y.imsi = imsi ∧ imsi ≠ "") :
    ∀ k x, (Indexed.mk (update d.table imsi v) index).table k = some x → x.imsi = k ∧ k ≠ "" := by
  intro k x hx
  by_cases hk : k = imsi
  · subst hk
    exact hv x (by simpa using hx)
  · exact h k x (by simpa [hk] using hx)

theorem Effect.keyed (h : Effect d imsi leaves inPlace d')
    (hd : ∀ imsi x, d.table imsi = some x → x.imsi = imsi ∧ imsi ≠ "") :
    ∀ imsi x, d'.table imsi = some x → x.imsi = imsi ∧ imsi ≠ "" := by
  cases h with
  | nothing _ => exact hd
  | put y hy hne _ _ => exact keyed_update hd fun _ hz => Option.some.inj hz ▸ ⟨hy, hne⟩
  | edit x y hy hne _ hxy _ =>
    rw [Indexed.overwrite_put hxy]
    exact keyed_update hd fun _ hz => Option.some.inj hz ▸ ⟨hy, hne⟩
  | remove _ _ => exact keyed_update hd fun _ hz => nomatch hz

theorem Effect.valid (h : Effect d imsi leaves inPlace d') (hd : Valid d)
    (hs : Spares d imsi leaves inPlace) : Valid d' := by
  refine ⟨h.keyed hd.keyed, ?_⟩
  have hmoved : ∀ {y : Subscriber}, (∀ x, d.table imsi = some x → leaves x = some y.msisdn) →
      ∀ x, d.table imsi = some x → x.msisdn ≠ y.msisdn → leaves x ≠ some x.msisdn := by
    intro y h x hx hxy heq
    rw [h x hx] at heq
    exact hxy (Option.some.inj heq).symm
  cases h with
  | nothing _ => exact hd.consistent
  | put y _ _ hplace h =>
    refine hd.consistent.put fun a ha hay => ?_
    obtain ⟨x, hx, rfl⟩ := Indexed.has_iff.mp ha
    simpa [hplace] using hs x hx (hmoved h x hx hay)
  | edit x y _ _ hplace hxy h =>
    refine hd.consistent.overwrite_put hxy fun a ha hay => ?_
    obtain ⟨z, hz, rfl⟩ := Indexed.has_iff.mp ha
    simpa [hplace] using hs z hz (hmoved h z hz hay)
  | remove hplace h =>
    refine hd.consistent.remove fun a ha => ?_
    obtain ⟨x, hx, rfl⟩ := Indexed.has_iff.mp ha
    have htaken : leaves x ≠ some x.msisdn := by simp [h x]
    simpa [hplace] using hs x hx htaken

theorem Effect.spares (h : Effect d imsi leaves inPlace d') (ha : d'.Answers Subscriber.msisdn) :
    Spares d imsi leaves inPlace := by
  intro x hx hleaves
  have hhas : d.Has Subscriber.msisdn imsi x.msisdn := Indexed.has_iff.mpr ⟨x, hx, rfl⟩
  cases h with
  | nothing h => exact absurd (h x hx) hleaves
  | put y _ _ hplace h =>
    have hmoved : x.msisdn ≠ y.msisdn := fun heq => hleaves (by rw [h x hx, heq])
    simpa [hplace] using ha.alone_of_put hhas hmoved
  | edit z y _ _ hplace hzy h =>
    have hmoved : x.msisdn ≠ y.msisdn := fun heq => hleaves (by rw [h x hx, heq])
    simpa [hplace] using ha.index_of_overwrite_put hzy hmoved
  | remove hplace _ => simpa [hplace] using ha.alone_of_remove hhas

end Effect

section Requests
variable {σ : Type} {S : DirectoryStore σ} {py : PyText} {settings : Settings}
  {sha256 : String → String} {s : σ}

theorem eval_load (imsi : String) (k : Subscriber → StoreProgram (Admin.Response α)) :
    ((Admin.load imsi k).eval S.step s).2 =
      match (S.directory s).table imsi with
      | none => s
      | some x => ((k x).eval S.step s).2 := by
  simp only [Admin.load, Store.getSubscriber, Program.perform_bind, Program.eval_call, S.get]
  cases (S.directory s).table imsi <;> rfl

theorem effect_put {imsi : String} {leaves : Subscriber → Option String} (y : Subscriber)
    (clock : Clock) (hy : y.imsi = imsi) (hne : imsi ≠ "")
    (h : ∀ x, (S.directory s).table imsi = some x → leaves x = some y.msisdn) :
    Effect (S.directory s) imsi leaves (S.live && false)
      (S.directory (S.step (.putSubscriber y clock) s).2) := by
  rw [S.put, hy]
  apply Effect.put _ ((S.stamp_imsi y clock).trans hy) hne (Bool.and_false _)
  intro x hx
  rw [S.stamp_msisdn, h x hx]

theorem effect_rewrite {imsi : String} {leaves : Subscriber → Option String} (y : Subscriber)
    (clock : Clock) (hy : y.imsi = imsi) (hne : imsi ≠ "") (hstored : (S.directory s).table imsi ≠ none)
    (h : ∀ x, (S.directory s).table imsi = some x → leaves x = some y.msisdn) :
    Effect (S.directory s) imsi leaves (S.live && true)
      (S.directory ((Admin.rewrite y clock).eval S.step s).2) := by
  change Effect _ _ _ _ (S.directory (S.step (.putSubscriber y clock)
    (S.step (.editSubscriber y) s).2).2)
  have hleaves : ∀ x, (S.directory s).table imsi = some x →
      leaves x = some (S.stamp y clock).msisdn := fun x hx => by rw [S.stamp_msisdn, h x hx]
  have hkey := (S.stamp_imsi y clock).trans hy
  rw [S.put, S.edit, hy]
  cases hlive : S.live with
  | true =>
    simp only [hstored, ne_eq, not_false_eq_true, and_self, if_true]
    exact Effect.edit y _ hkey hne rfl (S.stamp_msisdn y clock).symm hleaves
  | false =>
    simp only [Bool.false_eq_true, false_and, if_false]
    exact Effect.put _ hkey hne rfl hleaves

theorem effect_delete (imsi : String) {leaves : Subscriber → Option String}
    (h : ∀ x, leaves x = none) :
    Effect (S.directory s) imsi leaves (S.live && false) (S.directory
      (S.step (.deleteSubscriber imsi) (S.step (.revokeTokensForImsi imsi) s).2).2) := by
  rw [S.delete, S.revoke]
  exact Effect.remove (Bool.and_false _) h

variable (settings) in
theorem effect_request (r : Request) (hd : Valid (S.directory s)) :
    Effect (S.directory s) (r.imsi py) (r.leaves py settings) (S.live && r.edits)
      (S.directory ((r.program py settings sha256).eval S.step s).2) := by
  cases r with
  | adminPut imsi payload clock =>
    simp only [Request.program, Program.eval_bind, Admin.putSubscriber]
    -- a request that is refused leaves no number
    split_ifs with hbad
    · exact Effect.nothing fun x _ => if_pos hbad
    · have hne : imsi ≠ "" := by
        rintro rfl
        simp [PyText.digits] at hbad
      simp only [Store.getSubscriber, Program.perform_bind, Program.eval_call, S.get]
      exact effect_put _ clock rfl hne fun x _ => if_neg hbad
  | adminDelete imsi =>
    simp only [Request.program, Program.eval_bind, Admin.deleteSubscriber, eval_load]
    cases hx : (S.directory s).table imsi with
    | none => exact Effect.nothing fun x hx' => by simp [Request.imsi, hx] at hx'
    | some x => exact effect_delete imsi fun _ => rfl
  | consoleCreate imsi msisdn rcsProfile entitled volteEnabled clock =>
    simp only [Request.program, Program.eval_bind, Console.subscriberCreate]
    split_ifs with hbad
    · exact Effect.nothing fun x _ => rfl
    · have hne : py.strip imsi ≠ "" := by
        intro hempty
        simp [PyText.digits, hempty] at hbad
      cases normaliseMsisdn py settings msisdn with
      | none => exact Effect.nothing fun x _ => rfl
      | some normalised =>
        simp only [Store.getSubscriber, Program.perform_bind, Program.eval_call, S.get]
        cases hx : (S.directory s).table (py.strip imsi) with
        | some x => exact Effect.nothing fun x _ => rfl
        | none => exact effect_put _ clock rfl hne fun x hx' => (by cases hx.symm.trans hx')
  | consoleUpdate imsi msisdn rcsProfile forcedVers imeiAllowlist entitled volteEnabled clock =>
    simp only [Request.program, Program.eval_bind, Console.subscriberUpdate, eval_load]
    cases hx : (S.directory s).table imsi with
    | none => exact Effect.nothing fun x hx' => by simp [Request.imsi, hx] at hx'
    | some x =>
      -- the record that is read keeps its key; only what follows the checks is put
      obtain ⟨himsi, hne⟩ := hd.keyed imsi x hx
      cases hmsisdn : normaliseMsisdn py settings msisdn with
      | none => exact Effect.nothing fun y _ => by simp [Request.leaves, hmsisdn]
      | some normalised =>
        cases hforced : Console.forcedOf py forcedVers with
        | error message => exact Effect.nothing fun y _ => by simp [Request.leaves, hmsisdn, hforced]
        | ok forced =>
          dsimp only
          split_ifs with hbad
          · exact Effect.nothing fun y _ => by simp [Request.leaves, hmsisdn, hforced, hbad]
          · have hleaves : ∀ y, (S.directory s).table imsi = some y → Request.leaves py settings y
                (.consoleUpdate imsi msisdn rcsProfile forcedVers imeiAllowlist entitled
                  volteEnabled clock) = some normalised :=
              fun y _ => by simp [Request.leaves, hmsisdn, hforced, hbad]
            have hstored : (S.directory s).table imsi ≠ none := by simp [hx]
            exact effect_rewrite _ clock himsi hne hstored hleaves
  | consoleDelete imsi clock =>
    simp only [Request.program, Program.eval_bind, Console.subscriberAction, eval_load]
    cases hx : (S.directory s).table imsi with
    | none => exact Effect.nothing fun x hx' => by simp [Request.imsi, hx] at hx'
    | some x => exact effect_delete imsi fun _ => rfl

end Requests

namespace DirectoryStore
variable {σ : Type} (S : DirectoryStore σ) (py : PyText) (settings : Settings)
  (sha256 : String → String)

def handle (s : σ) (r : Request) : σ := ((r.program py settings sha256).eval S.step s).2

/-- A lookup by number finds a record with that number, and one for each number in use. -/
structure Answers (s : σ) : Prop where
  sound : ∀ msisdn x, (S.step (.getSubscriberByMsisdn msisdn) s).1 = some x → x.msisdn = msisdn
  complete : ∀ imsi x, (S.step (.getSubscriber imsi) s).1 = some x →
    ∃ imsi' y, (S.step (.getSubscriberByMsisdn x.msisdn) s).1 = some y ∧ y.msisdn = x.msisdn ∧
      (S.step (.getSubscriber imsi') s).1 = some y

def Spared (s : σ) (r : Request) : Prop :=
  Spares (S.directory s) (r.imsi py) (r.leaves py settings) (S.live && r.edits)

variable {S py settings sha256} {s : σ}

theorem answers_iff (hempty : (S.directory s).table "" = none) :
    S.Answers s ↔ (S.directory s).Answers Subscriber.msisdn := by
  have hget : ∀ imsi, (S.step (.getSubscriber imsi) s).1 = (S.directory s).table imsi :=
    fun imsi => by rw [S.get]
  constructor
  · intro h
    refine ⟨fun a x hx => h.sound a x (by rwa [S.byMsisdn a s hempty]), fun a imsi ha => ?_⟩
    obtain ⟨x, hx, rfl⟩ := Indexed.has_iff.mp ha
    obtain ⟨imsi', y, hy, hyx, -⟩ := h.complete imsi x (by rwa [hget])
    exact ⟨y, by rwa [S.byMsisdn _ s hempty] at hy, hyx⟩
  · intro h
    refine ⟨fun msisdn x hx => h.sound msisdn x (by rwa [S.byMsisdn _ s hempty] at hx),
      fun imsi x hx => ?_⟩
    rw [hget] at hx
    obtain ⟨y, hy, hyx⟩ := h.complete x.msisdn imsi (Indexed.has_iff.mpr ⟨x, hx, rfl⟩)
    obtain ⟨imsi', -, hstored⟩ := Indexed.lookup_eq_some.mp hy
    exact ⟨imsi', y, by rwa [S.byMsisdn _ s hempty], hyx, by rwa [hget]⟩

theorem empty_of_keyed {d : Directory}
    (h : ∀ imsi x, d.table imsi = some x → x.imsi = imsi ∧ imsi ≠ "") : d.table "" = none := by
  cases hx : d.table "" with
  | none => rfl
  | some x => exact absurd rfl (h "" x hx).2

theorem answers_run_iff (h : Valid (S.directory s)) (requests : List Request) :
    Runs.Always (S.handle py settings sha256) S.Answers s requests ↔
      Runs.EachStep (S.handle py settings sha256) (S.Spared py settings) s requests := by
  -- the invariant of the run is `Valid`; an unspared request breaks the answers in its very next state
  have hanswers : ∀ {s}, Valid (S.directory s) → S.Answers s :=
    fun hv => (answers_iff (empty_of_keyed hv.keyed)).mpr hv.consistent.answers
  refine Runs.always_iff_eachStep (I := fun s => Valid (S.directory s)) (fun s hv => hanswers hv)
    (fun s r hv hr => (effect_request settings r hv).valid hv hr) (fun s r hv ha => ?_) h requests
  have heffect : Effect _ _ _ _ (S.directory (S.handle py settings sha256 s r)) :=
    effect_request settings r hv
  have hempty : (S.directory (S.handle py settings sha256 s r)).table "" = none :=
    empty_of_keyed (heffect.keyed hv.keyed)
  exact heffect.spares ((answers_iff hempty).mp ha)

end DirectoryStore

/-- On each store: the index answers throughout a run from the empty store exactly if no request
takes away a number that another record has, or, as an edit in place, one the index still points
at. -/
theorem msisdn_index_iff (py : PyText) (settings : Settings) (sha256 : String → String) (gsi : Gsi)
    (faults : Nat → Option ClientError) (requests : List Request) :
    (Runs.Always (memoryDirectory.handle py settings sha256) memoryDirectory.Answers {} requests ↔
      Runs.EachStep (memoryDirectory.handle py settings sha256) (memoryDirectory.Spared py settings)
        {} requests) ∧
    (Runs.Always ((dynamoDirectory gsi faults).handle py settings sha256)
        (dynamoDirectory gsi faults).Answers {} requests ↔
      Runs.EachStep ((dynamoDirectory gsi faults).handle py settings sha256)
        ((dynamoDirectory gsi faults).Spared py settings) {} requests) := by
  have hempty : Valid ⟨fun _ => none, fun _ => none⟩ :=
    ⟨fun _ _ h => (nomatch h), ⟨fun _ _ h => (nomatch h), fun _ _ h => (nomatch h)⟩⟩
  exact ⟨DirectoryStore.answers_run_iff hempty requests,
    DirectoryStore.answers_run_iff hempty requests⟩

/-- Two subscribers are given one number and the second is deleted: both stores forget the first.
A number changed from the console stays in `MemoryStore` under its old entry. -/
theorem msisdn_index_not_kept :
    let put (imsi : String) : Request := .adminPut imsi { msisdn := "+821012345678" } ⟨1, by decide⟩
    let shared := [put "450051234567890", put "450051234567891", .adminDelete "450051234567891"]
    let edited := [put "450051234567890",
      .consoleUpdate "450051234567890" "+821087654321" "" "" "" "on" "on" ⟨2, by decide⟩]
    ¬ Runs.Always (memoryDirectory.handle asciiText {} id) memoryDirectory.Answers {} shared ∧
    ¬ Runs.Always ((dynamoDirectory ⟨id, fun _ => .refl _⟩ fun _ => none).handle asciiText {} id)
        (dynamoDirectory ⟨id, fun _ => .refl _⟩ fun _ => none).Answers {} shared ∧
    ¬ Runs.Always (memoryDirectory.handle asciiText {} id) memoryDirectory.Answers {} edited := by
  refine ⟨?_, ?_, ?_⟩
  · rintro ⟨-, -, -, h⟩
    obtain ⟨imsi', y, hy, -⟩ := h.complete "450051234567890" _ rfl
    exact nomatch hy
  · rintro ⟨-, -, -, h⟩
    obtain ⟨imsi', y, hy, -⟩ := h.complete "450051234567890" _ rfl
    exact nomatch hy
  · rintro ⟨-, -, h⟩
    have hsound := h.sound "+821012345678" _ rfl
    revert hsound
    decide

end Acs.MsisdnIndex
