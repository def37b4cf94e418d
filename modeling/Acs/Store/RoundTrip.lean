import Mathlib
import Acs.Store.ItemTable

/-! What `DynamoDbStore` gives back for each entity it was given, beside what `MemoryStore`
gives back. -/

namespace Acs
open Function PyValue

attribute [simp] Item.set encode required optional readAs PyValue.asStr PyValue.asInt
  PyValue.asBool PlainDict PlainList PyValue.Plain FitsDict FitsList PyValue.Fits

@[simp] theorem encode_ofStrs (k : String) (l : List String) (item : Item) :
    encode ((k, ofStrs l) :: item) = (k, ofStrs l) :: encode item := rfl

@[simp] theorem encode_ofStrMap (k : String) (m : List (String × String)) (item : Item) :
    encode ((k, ofStrMap m) :: item) = (k, ofStrMap m) :: encode item := rfl

@[simp] theorem Item.update_nil (item : Item) : item.update [] = item := rfl

@[simp] theorem Item.update_cons (item : Item) (k : String) (v : PyValue) (extra : Item) :
    item.update ((k, v) :: extra) = (item.set k v).update extra := rfl

theorem fitsList_map {write : α → PyValue} (h : ∀ a, (write a).Fits) (l : List α) :
    FitsList (l.map write) := by
  induction l with
  | nil => trivial
  | cons a l ih => exact ⟨h a, ih⟩

@[simp] theorem fits_ofStrs (l : List String) : (ofStrs l).Fits := by
  simpa only [ofStrs, PyValue.Fits] using fitsList_map (fun s => by simp) l

@[simp] theorem fits_ofStrMap (m : List (String × String)) : (ofStrMap m).Fits := by
  simp only [ofStrMap, PyValue.Fits]
  induction m with
  | nil => trivial
  | cons e m ih => exact ⟨trivial, ih⟩

@[simp] theorem fits_strs (l : List (List String)) : FitsList (l.map ofStrs) :=
  fitsList_map fits_ofStrs l

@[simp] theorem fits_strMaps (l : List (List (String × String))) : FitsList (l.map ofStrMap) :=
  fitsList_map fits_ofStrMap l

theorem plainList_map {write : α → PyValue} (h : ∀ a, (write a).Plain) (l : List α) :
    PlainList (l.map write) := by
  induction l with
  | nil => trivial
  | cons a l ih => exact ⟨h a, ih⟩

@[simp] theorem plain_ofStrs (l : List String) : (ofStrs l).Plain := by
  simpa only [ofStrs, PyValue.Plain] using plainList_map (fun s => by simp) l

@[simp] theorem plain_ofStrMap (m : List (String × String)) : (ofStrMap m).Plain := by
  simp only [ofStrMap, PyValue.Plain]
  induction m with
  | nil => trivial
  | cons e m ih => exact ⟨trivial, ih⟩

@[simp] theorem plain_strs (l : List (List String)) : PlainList (l.map ofStrs) :=
  plainList_map plain_ofStrs l

@[simp] theorem plain_strMaps (l : List (List (String × String))) : PlainList (l.map ofStrMap) :=
  plainList_map plain_ofStrMap l

/-- The item a `put` of an entity stores, `None` fields dropped. -/
def stored (pk sk : String) (item extra : Item) : Item :=
  encode (item.update ([("pk", .str pk), ("sk", .str sk)] ++ extra))

section Decode
variable (pk sk : String) (clock : Clock)

theorem Subscriber.fromItem_stored (s : Subscriber) (k : String) :
    fromItem (stored pk sk s.toItem [("entity", .str "subscriber"),
      ("gsi1pk", .str "ENTITY#subscriber"), ("gsi1sk", .str k)]) clock = .ok s := by
  rcases s with ⟨_, _, _, _, _ | _, _, _, _, _, _, _, _⟩ <;>
    simp [fromItem, toItem, stored, ofOptInt, asOptInt, List.lookup, bind, Except.bind, pure,
      Except.pure]

theorem OtpChallenge.fromItem_stored (c : OtpChallenge) :
    fromItem (stored pk sk c.toItem [("entity", .str "otp")]) = .ok c := by
  rcases c with ⟨_, _, _, _, _, _, _ | _, _, _⟩ <;>
    simp [fromItem, toItem, stored, ofOptInt, asOptInt, List.lookup, bind, Except.bind, pure,
      Except.pure]

theorem TokenRecord.fromItem_stored (r : TokenRecord) (g k : String) :
    fromItem (stored pk sk r.toItem [("entity", .str "token"), ("gsi1pk", .str g),
      ("gsi1sk", .str k), ("expires_at", .int r.expiresAt)]) =
      if r.imei = none then .error .typeError else .ok r := by
  rcases r with ⟨_, _, _ | _, _, _, _⟩ <;>
    simp [fromItem, toItem, stored, ofOptStr, asOptStr, List.lookup, bind, Except.bind, pure,
      Except.pure]

theorem Device.fromItem_stored (d : Device) (k : String) :
    fromItem (stored pk sk d.toItem [("entity", .str "device"), ("gsi1pk", .str "ENTITY#device"),
      ("gsi1sk", .str k)]) clock = .ok d := by
  simp [fromItem, toItem, stored, List.lookup, bind, Except.bind, pure, Except.pure]

theorem DmSession.fromItem_stored (s : DmSession) :
    fromItem (stored pk sk s.toItem [("entity", .str "dm_session")]) = .ok s := by
  simp [fromItem, toItem, stored, List.lookup, bind, Except.bind, pure, Except.pure]

theorem DmPendingPackage.fromItem_stored (p : DmPendingPackage) :
    fromItem (stored pk sk p.toItem [("entity", .str "dm_pending")]) = .ok p := by
  simp [fromItem, toItem, stored, List.lookup, bind, Except.bind, pure, Except.pure]

end Decode

namespace ItemTable

theorem putItem_eq_ok {t t' : ItemTable} {pk sk : String} {item extra : Item} :
    t.putItem pk sk item extra = .ok t' ↔
      ∃ attributes, serializeDict (stored pk sk item extra) = .ok attributes ∧
        emptyKey (stored pk sk item extra) = false ∧ t' = update t (pk, sk) (some attributes) := by
  simp only [putItem, Except.bind_eq_ok, stored]
  refine exists_congr fun attributes => and_congr_right fun _ => ?_
  cases emptyKey (encode (item.update ([("pk", .str pk), ("sk", .str sk)] ++ extra))) with
  | false => simpa using eq_comm
  | true => simp

theorem putItem_ok {t : ItemTable} {pk sk : String} {item extra : Item} :
    (∃ t', t.putItem pk sk item extra = .ok t') ↔
      FitsDict (stored pk sk item extra) ∧ emptyKey (stored pk sk item extra) = false := by
  simp only [putItem_eq_ok, ← serializeDict_ok]
  exact ⟨fun ⟨_, a, ha, hkey, _⟩ => ⟨⟨a, ha⟩, hkey⟩, fun ⟨⟨a, ha⟩, hkey⟩ => ⟨_, a, ha, hkey, rfl⟩⟩

theorem load_putItem {t t' : ItemTable} {pk sk : String} {item extra : Item}
    (h : t.putItem pk sk item extra = .ok t') (hplain : PlainDict (stored pk sk item extra))
    (decode : Item → Except StoreError α) :
    t'.load pk sk decode = (decode (stored pk sk item extra)).map some := by
  obtain ⟨attributes, hser, -, rfl⟩ := putItem_eq_ok.mp h
  simp only [load, getItem, update_self, Option.map_some,
    cleanDict_deserialize_serialize hplain hser]

theorem load_update_ne (t : ItemTable) {key : String × String} {pk sk : String}
    (hne : key ≠ (pk, sk)) (o : Option (List (String × AttributeValue)))
    (decode : Item → Except StoreError α) :
    load (update t key o) pk sk decode = t.load pk sk decode := by
  simp only [load, getItem, update_of_ne hne.symm]

theorem load_putItem_ne {t t' : ItemTable} {pk sk pk' sk' : String} {item extra : Item}
    (h : t.putItem pk sk item extra = .ok t') (hne : (pk, sk) ≠ (pk', sk'))
    (decode : Item → Except StoreError α) : t'.load pk' sk' decode = t.load pk' sk' decode := by
  obtain ⟨attributes, -, -, rfl⟩ := putItem_eq_ok.mp h
  exact load_update_ne t hne _ decode

end ItemTable

/-! ### The entities -/

inductive Entity
  | subscriber (s : Subscriber)
  | otpChallenge (c : OtpChallenge)
  | tokenRecord (r : TokenRecord)
  | device (d : Device)
  | dmSession (s : DmSession)
  | dmPendingPackage (p : DmPendingPackage)
deriving DecidableEq

namespace Entity
open MemoryStore

def put (written : Clock) : Entity → ItemTable → Except StoreError ItemTable
  | subscriber s, t => t.putSubscriber s written
  | otpChallenge c, t => t.putOtp c
  | tokenRecord r, t => t.putToken r
  | device d, t => t.putDevice d
  | dmSession s, t => t.putDmSession s
  | dmPendingPackage p, t => t.putDmPending p

def reread (read : Clock) : Entity → ItemTable → Except StoreError (Option Entity)
  | subscriber s, t => (t.getSubscriber s.imsi read).map (·.map subscriber)
  | otpChallenge c, t => (t.getOtp c.msisdn).map (·.map otpChallenge)
  | tokenRecord r, t => (t.getToken r.tokenHash).map (·.map tokenRecord)
  | device d, t => (t.getDevice d.deviceId read).map (·.map device)
  | dmSession s, t => (t.getDmSession s.sessionId read).map (·.1.map dmSession)
  | dmPendingPackage p, t => (t.getDmPending p.sessionId read).map (·.1.map dmPendingPackage)

def putMemory : Entity → MemoryStore → MemoryStore
  | subscriber s, m => m.putSubscriber s
  | otpChallenge c, m => { m with otp := update m.otp c.msisdn (some c) }
  | tokenRecord r, m => { m with tokens := m.tokens.put r }
  | device d, m => { m with devices := update m.devices d.deviceId (some d) }
  | dmSession s, m => m.putDmSession s
  | dmPendingPackage p, m => m.putDmPending p

def rereadMemory (read : Clock) : Entity → MemoryStore → Option Entity
  | subscriber s, m => (m.subscribers s.imsi).map subscriber
  | otpChallenge c, m => (m.otp c.msisdn).map otpChallenge
  | tokenRecord r, m => (m.tokens.get r.tokenHash).map tokenRecord
  | device d, m => (m.devices d.deviceId).map device
  | dmSession s, m => (m.getDmSession s.sessionId read).1.map dmSession
  | dmPendingPackage p, m => (m.getDmPending p.sessionId read).1.map dmPendingPackage

/-- Leave `updated_at` aside. -/
def aside : Entity → Entity
  | subscriber s => subscriber { s with updatedAt := 0 }
  | e => e

/-- What a store should give back: nothing once a DM record's `expires_at` is past. -/
def kept (read : Clock) : Entity → Option Entity
  | dmSession s => if lapsed s.expiresAt read then none else some (dmSession s)
  | dmPendingPackage p => if lapsed p.expiresAt read then none else some (dmPendingPackage p)
  | e => some e.aside

/-- Put in either store and read back, the entity is equal. -/
def RoundTrips (written read : Clock) (e : Entity) (t : ItemTable) (m : MemoryStore) : Prop :=
  (∃ t', e.put written t = .ok t' ∧ (e.reread read t').map (·.map aside) = .ok (e.kept read)) ∧
    (e.rereadMemory read (e.putMemory m)).map aside = e.kept read

def numbers (written : Clock) : Entity → List Int
  | subscriber s =>
    s.provisioningVersion :: s.forcedVers.toList ++ [s.createdAt, written.now]
  | otpChallenge c => [c.createdAt, c.expiresAt, c.attempts] ++ c.smsPort.toList
  | tokenRecord r => [r.issuedAt, r.expiresAt]
  | device d => [d.lastSeenAt]
  | dmSession s => [s.lastMsgId, s.serverCmdId, s.reportedFailures, s.expiresAt]
  | dmPendingPackage p => [p.messages, p.expiresAt]

/-- The service takes the entity: no number over 38 digits, no empty index key. -/
def Storable (written : Clock) (e : Entity) : Prop :=
  (∀ n ∈ e.numbers written, fitsNumber n) ∧
    match e with
    | subscriber s => s.imsi ≠ ""
    | device d => d.deviceId ≠ ""
    | _ => True

end Entity

/-! ### What a put needs, and what it leaves -/

namespace ItemTable
open Entity MemoryStore

variable {t t' : ItemTable}

def Readable (t : ItemTable) : Prop :=
  ∀ imsi clock, ∃ s, t.getSubscriber imsi clock = .ok s

theorem putSubscriber_ok {s : Subscriber} {written : Clock} (ht : t.Readable) :
    (∃ t', t.putSubscriber s written = .ok t') ↔ (subscriber s).Storable written := by
  have hput : ∀ u : ItemTable, (∃ t', u.putItem ("SUB#" ++ s.imsi) "META"
      { s with updatedAt := written.now }.toItem [("entity", .str "subscriber"),
        ("gsi1pk", .str "ENTITY#subscriber"), ("gsi1sk", .str s.imsi)] = .ok t') ↔
      (subscriber s).Storable written := fun u => by
    rw [putItem_ok]
    rcases s with ⟨_, _, _, _, _ | _, _, _, _, _, _, _, _⟩ <;>
      simp [stored, Subscriber.toItem, ofOptInt, emptyKey, Storable, numbers, List.lookup]
  have hindex : ∀ u : ItemTable, ∃ t', u.putItem ("MSISDN#" ++ s.msisdn) "SUB" []
      [("imsi", .str s.imsi), ("entity", .str "msisdn_index")] = .ok t' := fun u => by
    rw [putItem_ok]
    simp [stored, emptyKey, List.lookup]
  obtain ⟨previous, hprevious⟩ := ht s.imsi written
  rw [← hput t]
  constructor
  · rintro ⟨t', h⟩
    simp only [putSubscriber, Except.bind_eq_ok] at h
    obtain ⟨-, -, t₁, h₁, -⟩ := h
    exact ⟨t₁, h₁⟩
  · rintro ⟨t₁, h₁⟩
    obtain ⟨t₂, h₂⟩ := hindex t₁
    simp only [putSubscriber, hprevious, h₁, h₂, bind, Except.bind]
    cases previous with
    | none => exact ⟨_, rfl⟩
    | some p =>
      dsimp only
      split_ifs <;> exact ⟨_, rfl⟩

theorem putOtp_ok {c : OtpChallenge} (written : Clock) :
    (∃ t', t.putOtp c = .ok t') ↔ (otpChallenge c).Storable written := by
  rw [putOtp, putItem_ok]
  rcases c with ⟨_, _, _, _, _, _, _ | _, _, _⟩ <;>
    simp [stored, OtpChallenge.toItem, ofOptInt, emptyKey, Storable, numbers, List.lookup]

@[simp] theorem int_repr_ne_empty (n : Int) : n.repr ≠ "" := by
  cases n <;> simp [Int.repr]

theorem putToken_ok {r : TokenRecord} (written : Clock) :
    (∃ t', t.putToken r = .ok t') ↔ (tokenRecord r).Storable written := by
  rw [putToken, putItem_ok]
  rcases r with ⟨_, _, _ | _, _, _, _⟩ <;>
    simp [stored, TokenRecord.toItem, ofOptStr, emptyKey, Storable, numbers, List.lookup]

theorem putDevice_ok {d : Device} (written : Clock) :
    (∃ t', t.putDevice d = .ok t') ↔ (device d).Storable written := by
  rw [putDevice, putItem_ok]
  simp [stored, Device.toItem, emptyKey, Storable, numbers, List.lookup]

theorem putDmSession_ok {s : DmSession} (written : Clock) :
    (∃ t', t.putDmSession s = .ok t') ↔ (dmSession s).Storable written := by
  rw [putDmSession, putItem_ok]
  simp [stored, DmSession.toItem, emptyKey, Storable, numbers, List.lookup]

theorem putDmPending_ok {p : DmPendingPackage} (written : Clock) :
    (∃ t', t.putDmPending p = .ok t') ↔ (dmPendingPackage p).Storable written := by
  rw [putDmPending, putItem_ok]
  simp [stored, DmPendingPackage.toItem, emptyKey, Storable, numbers, List.lookup]

theorem getSubscriber_putSubscriber {s : Subscriber} {written read : Clock}
    (h : t.putSubscriber s written = .ok t') :
    t'.getSubscriber s.imsi read = .ok (some { s with updatedAt := written.now }) := by
  simp only [putSubscriber, Except.bind_eq_ok] at h
  obtain ⟨previous, -, t₁, hsub, t₂, hindex, hlast⟩ := h
  -- the index item has the sort key SUB, so neither its put nor its delete meets META
  have hkey : ∀ m : String, ("MSISDN#" ++ m, "SUB") ≠ ("SUB#" ++ s.imsi, "META") := fun m => by simp
  have hload : t₂.getSubscriber s.imsi read = .ok (some { s with updatedAt := written.now }) := by
    rw [getSubscriber, load_putItem_ne hindex (hkey _), load_putItem hsub,
      Subscriber.fromItem_stored]
    · rfl
    · rcases s with ⟨_, _, _, _, _ | _, _, _, _, _, _, _, _⟩ <;>
        simp [stored, Subscriber.toItem, ofOptInt]
  cases previous with
  | none => cases hlast; exact hload
  | some p =>
    dsimp only at hlast
    split_ifs at hlast <;> cases hlast
    · rw [getSubscriber, deleteItem, load_update_ne _ (hkey _)]
      exact hload
    · exact hload

theorem getOtp_putOtp {c : OtpChallenge} (h : t.putOtp c = .ok t') :
    t'.getOtp c.msisdn = .ok (some c) := by
  rw [getOtp, load_putItem h, OtpChallenge.fromItem_stored]
  · rfl
  · rcases c with ⟨_, _, _, _, _, _, _ | _, _, _⟩ <;> simp [stored, OtpChallenge.toItem, ofOptInt]

theorem getToken_putToken {r : TokenRecord} (h : t.putToken r = .ok t') :
    t'.getToken r.tokenHash = if r.imei = none then .error .typeError else .ok (some r) := by
  rw [getToken, load_putItem h, TokenRecord.fromItem_stored]
  · split_ifs <;> rfl
  · rcases r with ⟨_, _, _ | _, _, _, _⟩ <;> simp [stored, TokenRecord.toItem, ofOptStr]

theorem getDevice_putDevice {d : Device} {read : Clock} (h : t.putDevice d = .ok t') :
    t'.getDevice d.deviceId read = .ok (some d) := by
  rw [getDevice, load_putItem h, Device.fromItem_stored]
  · rfl
  · simp [stored, Device.toItem]

theorem getDmSession_putDmSession {s : DmSession} {read : Clock} (h : t.putDmSession s = .ok t') :
    t'.getDmSession s.sessionId read =
      .ok (if lapsed s.expiresAt read then (none, t'.deleteItem ("DMSESS#" ++ s.sessionId) "META")
        else (some s, t')) := by
  have hload : t'.load ("DMSESS#" ++ s.sessionId) "META" DmSession.fromItem = .ok (some s) := by
    rw [load_putItem h, DmSession.fromItem_stored]
    · rfl
    · simp [stored, DmSession.toItem]
  simp only [getDmSession, hload, bind, Except.bind]
  split_ifs <;> rfl

theorem getDmPending_putDmPending {p : DmPendingPackage} {read : Clock}
    (h : t.putDmPending p = .ok t') :
    t'.getDmPending p.sessionId read =
      .ok (if lapsed p.expiresAt read then (none, t'.deleteItem ("DMSESS#" ++ p.sessionId) "PENDING")
        else (some p, t')) := by
  have hload :
      t'.load ("DMSESS#" ++ p.sessionId) "PENDING" DmPendingPackage.fromItem = .ok (some p) := by
    rw [load_putItem h, DmPendingPackage.fromItem_stored]
    · rfl
    · simp [stored, DmPendingPackage.toItem]
  simp only [getDmPending, hload, bind, Except.bind]
  split_ifs <;> rfl

/-- A table made by puts and by any other writes that leave the subscriber records alone. -/
inductive Reachable : ItemTable → Prop
  | empty : Reachable fun _ => none
  | put {t t' : ItemTable} (e : Entity) (written : Clock) : Reachable t → e.put written t = .ok t' →
      Reachable t'
  | other {t : ItemTable} (key : String × String) (o : Option (List (String × AttributeValue))) :
      Reachable t → (∀ imsi, key ≠ ("SUB#" ++ imsi, "META")) → Reachable (update t key o)
  | delete {t : ItemTable} (pk sk : String) : Reachable t → Reachable (t.deleteItem pk sk)

theorem getSubscriber_putItem_ne {pk sk : String} {item extra : Item} {imsi : String} {read : Clock}
    (h : t.putItem pk sk item extra = .ok t') (hne : (pk, sk) ≠ ("SUB#" ++ imsi, "META")) :
    t'.getSubscriber imsi read = t.getSubscriber imsi read := load_putItem_ne h hne _

theorem getSubscriber_putSubscriber_ne {s : Subscriber} {written read : Clock} {imsi : String}
    (h : t.putSubscriber s written = .ok t') (hne : s.imsi ≠ imsi) :
    t'.getSubscriber imsi read = t.getSubscriber imsi read := by
  simp only [putSubscriber, Except.bind_eq_ok] at h
  obtain ⟨previous, -, t₁, hsub, t₂, hindex, hlast⟩ := h
  have hkey : ∀ m : String, ("MSISDN#" ++ m, "SUB") ≠ ("SUB#" ++ imsi, "META") := fun m => by simp
  have hload : t₂.getSubscriber imsi read = t.getSubscriber imsi read := by
    rw [getSubscriber_putItem_ne hindex (hkey _), getSubscriber_putItem_ne hsub (by simpa using hne)]
  cases previous with
  | none => cases hlast; exact hload
  | some p =>
    dsimp only at hlast
    split_ifs at hlast <;> cases hlast
    · rw [← hload]
      exact load_update_ne _ (hkey _) _ _
    · exact hload

theorem Readable.put {e : Entity} {written : Clock} (ht : t.Readable)
    (h : e.put written t = .ok t') : t'.Readable := by
  intro imsi clock
  have hother : ∀ {pk sk : String} {item extra : Item}, t.putItem pk sk item extra = .ok t' →
      (pk, sk) ≠ ("SUB#" ++ imsi, "META") → ∃ s, t'.getSubscriber imsi clock = .ok s := by
    intro pk sk item extra h hne
    rw [getSubscriber_putItem_ne h hne]
    exact ht imsi clock
  have hpk : ∀ {a b : String}, a.toList ≠ b.toList → (a, "META") ≠ (b, "META") :=
    fun hab h => hab (congrArg (·.1.toList) h)
  cases e with
  | subscriber s =>
    by_cases hs : s.imsi = imsi
    · exact hs ▸ ⟨_, getSubscriber_putSubscriber h⟩
    · rw [getSubscriber_putSubscriber_ne h hs]
      exact ht imsi clock
  | otpChallenge c => exact hother h (by simp)
  | tokenRecord r => exact hother h (hpk (by simp))
  | device d => exact hother h (hpk (by simp))
  | dmSession s => exact hother h (hpk (by simp))
  | dmPendingPackage p => exact hother h (by simp)

theorem Readable.update_ne {key : String × String} {o : Option (List (String × AttributeValue))}
    (ht : t.Readable) (hne : ∀ imsi, key ≠ ("SUB#" ++ imsi, "META")) : Readable (update t key o) := by
  intro imsi clock
  rw [getSubscriber, load_update_ne t (hne imsi)]
  exact ht imsi clock

theorem Readable.deleteItem (ht : t.Readable) (pk sk : String) : (t.deleteItem pk sk).Readable := by
  intro imsi clock
  by_cases hkey : (pk, sk) = ("SUB#" ++ imsi, "META")
  · obtain ⟨rfl, rfl⟩ := Prod.mk.inj hkey
    exact ⟨none, by simp only [getSubscriber, load, getItem, ItemTable.deleteItem, update_self,
      Option.map_none]⟩
  · rw [getSubscriber, ItemTable.deleteItem, load_update_ne t hkey]
    exact ht imsi clock

theorem Reachable.readable (h : Reachable t) : t.Readable := by
  induction h with
  | empty => exact fun imsi clock => ⟨none, rfl⟩
  | put e written _ h ih => exact ih.put h
  | other key o _ hne ih => exact ih.update_ne hne
  | delete pk sk _ ih => exact ih.deleteItem pk sk

end ItemTable

namespace Entity
open ItemTable MemoryStore

theorem put_ok {t : ItemTable} (ht : t.Readable) (written : Clock) (e : Entity) :
    (∃ t', e.put written t = .ok t') ↔ e.Storable written := by
  cases e with
  | subscriber s => exact putSubscriber_ok ht
  | otpChallenge c => exact putOtp_ok written
  | tokenRecord r => exact putToken_ok written
  | device d => exact putDevice_ok written
  | dmSession s => exact putDmSession_ok written
  | dmPendingPackage p => exact putDmPending_ok written

/-- A token record without `imei`, the one field that may be `None` but has no default. -/
def LacksImei : Entity → Prop
  | tokenRecord r => r.imei = none
  | _ => False

instance : (e : Entity) → Decidable e.LacksImei
  | tokenRecord r => inferInstanceAs (Decidable (r.imei = none))
  | subscriber _ | otpChallenge _ | device _ | dmSession _ | dmPendingPackage _ =>
    inferInstanceAs (Decidable False)

theorem reread_put {t t' : ItemTable} {written : Clock} {e : Entity} (h : e.put written t = .ok t')
    (read : Clock) :
    (e.reread read t').map (·.map aside) =
      if e.LacksImei then .error .typeError else .ok (e.kept read) := by
  cases e with
  | subscriber s => simp [reread, getSubscriber_putSubscriber h, kept, aside, LacksImei, Except.map]
  | otpChallenge c => simp [reread, getOtp_putOtp h, kept, aside, LacksImei, Except.map]
  | tokenRecord r =>
    simp only [reread, getToken_putToken h, LacksImei]
    split_ifs with hi <;> simp [hi, kept, aside, Except.map]
  | device d => simp [reread, getDevice_putDevice h, kept, aside, LacksImei, Except.map]
  | dmSession s =>
    have hlacks : ¬ (dmSession s).LacksImei := id
    simp only [reread, getDmSession_putDmSession h, if_neg hlacks, kept, Except.map]
    split_ifs <;> rfl
  | dmPendingPackage p =>
    have hlacks : ¬ (dmPendingPackage p).LacksImei := id
    simp only [reread, getDmPending_putDmPending h, if_neg hlacks, kept, Except.map]
    split_ifs <;> rfl

theorem rereadMemory_putMemory (m : MemoryStore) (e : Entity) (read : Clock) :
    (e.rereadMemory read (e.putMemory m)).map aside = e.kept read := by
  cases e with
  | subscriber s => simp [rereadMemory, putMemory, MemoryStore.putSubscriber, kept]
  | otpChallenge c => simp [rereadMemory, putMemory, kept]
  | tokenRecord r => simp [rereadMemory, putMemory, TokenTable.get_put_self, kept]
  | device d => simp [rereadMemory, putMemory, kept]
  | dmSession s =>
    simp only [rereadMemory, putMemory, MemoryStore.getDmSession,
      MemoryStore.putDmSession, update_self, kept]
    split_ifs <;> rfl
  | dmPendingPackage p =>
    simp only [rereadMemory, putMemory, MemoryStore.getDmPending,
      MemoryStore.putDmPending, update_self, kept]
    split_ifs <;> rfl

/-- An entity comes back equal from both stores unless the service refuses it or it is a token
without `imei`, which `DynamoDbStore` cannot decode again. -/
theorem roundTrips_iff {t : ItemTable} (ht : t.Reachable) (m : MemoryStore) (written read : Clock)
    (e : Entity) : e.RoundTrips written read t m ↔ e.Storable written ∧ ¬ e.LacksImei := by
  rw [← put_ok ht.readable]
  constructor
  · rintro ⟨⟨t', hput, hread⟩, -⟩
    refine ⟨⟨t', hput⟩, fun hnone => ?_⟩
    rw [reread_put hput, if_pos hnone] at hread
    cases hread
  · rintro ⟨⟨t', hput⟩, hsome⟩
    refine ⟨⟨t', hput, ?_⟩, rereadMemory_putMemory m e read⟩
    rw [reread_put hput, if_neg hsome]

theorem roundTrips_otpChallenge :
    (otpChallenge ⟨"821012345678", "9f2c", "450051234567890", 1700000000, 1700000300, 0, some 37273,
      false, "c1"⟩).RoundTrips ⟨1700000000, by decide⟩ ⟨1700000001, by decide⟩ (fun _ => none) {} :=
  (roundTrips_iff .empty {} _ _ _).mpr ⟨⟨by decide, trivial⟩, id⟩

/-- The admin API issues tokens that are bound to no device. -/
theorem not_roundTrips_without_imei :
    (tokenRecord ⟨"9f2c", "450051234567890", none, 1700000000, 1702592000, false⟩).Storable
        ⟨1700000000, by decide⟩ ∧
      ¬ (tokenRecord ⟨"9f2c", "450051234567890", none, 1700000000, 1702592000, false⟩).RoundTrips
        ⟨1700000000, by decide⟩ ⟨1700000001, by decide⟩ (fun _ => none) {} := by
  refine ⟨⟨by decide, trivial⟩, ?_⟩
  rintro ⟨⟨t', hput, hread⟩, -⟩
  simp [reread_put hput, LacksImei] at hread

end Entity
end Acs
