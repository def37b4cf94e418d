import Acs.Omadm.Commit
import Acs.Omadm.Forecast
import Acs.Omadm.Handling
import Acs.Store.ItemTable

/-! The records of a session: which ones a message reads and writes, and when those of two messages
are the same. -/

namespace Acs.Omadm
open Interleave

inductive DmRecord
  | session (id : String)
  | pending (id : String)

namespace DmRecord

def id : DmRecord → String
  | session id => id
  | pending id => id

def item : DmRecord → String × String
  | session id => ("DMSESS#" ++ id, "META")
  | pending id => ("DMSESS#" ++ id, "PENDING")

theorem item_injective : Function.Injective item := by
  intro r r' h
  cases r <;> cases r' <;> obtain ⟨hpk, hsk⟩ := Prod.mk.inj h
  · exact congrArg session ((String.append_right_inj _).mp hpk)
  · exact absurd hsk (by decide)
  · exact absurd hsk (by decide)
  · exact congrArg pending ((String.append_right_inj _).mp hpk)

end DmRecord

def DmOp.record : DmOp → Option DmRecord
  | .getDmSession id => some (.session id)
  | .getDmPending id => some (.pending id)
  | .write (.putDmSession s) => some (.session s.sessionId)
  | .write (.deleteDmSession id) => some (.session id)
  | .write (.putDmPending p) => some (.pending p.sessionId)
  | .write (.deleteDmPending id) => some (.pending id)
  | _ => none

structure Keyed (m : MemoryStore) : Prop where
  sessions : ∀ id s, m.dmSessions id = some s → s.sessionId = id
  pending : ∀ id p, m.dmPending id = some p → p.sessionId = id

theorem keyed_update {α : Type} {idOf : α → String} {f : String → Option α} {key : String}
    {new : Option α} (hf : ∀ id x, f id = some x → idOf x = id) (hnew : ∀ x ∈ new, idOf x = key) :
    ∀ id x, Function.update f key new id = some x → idOf x = id := by
  intro id x hx
  by_cases hid : id = key
  · subst hid
    rw [Function.update_self] at hx
    exact hnew x hx
  · rw [Function.update_of_ne hid] at hx
    exact hf id x hx

theorem Keyed.apply {m : MemoryStore} (hm : Keyed m) (w : DmWrite) : Keyed (w.apply m) := by
  cases w with
  | putDevice d => exact ⟨hm.sessions, hm.pending⟩
  | putDmSession s => exact ⟨keyed_update hm.sessions (by simp), hm.pending⟩
  | deleteDmSession id => exact ⟨keyed_update hm.sessions (by simp), hm.pending⟩
  | putDmPending p => exact ⟨hm.sessions, keyed_update hm.pending (by simp)⟩
  | deleteDmPending id => exact ⟨hm.sessions, keyed_update hm.pending (by simp)⟩

theorem Keyed.exec {m : MemoryStore} (hm : Keyed m) (clock : Clock) (nonce : String) (op : DmOp) :
    Keyed (op.exec clock nonce m).2 := by
  cases op with
  | getDmSession id =>
    rcases getDmSession_cases m id clock with ⟨-, hsame⟩ | ⟨-, hdeleted, -⟩
    · exact hsame.symm ▸ hm
    · exact hdeleted.symm ▸ hm.apply (.deleteDmSession id)
  | getDmPending id =>
    rcases getDmPending_cases m id clock with ⟨-, hsame⟩ | ⟨-, hdeleted, -⟩
    · exact hsame.symm ▸ hm
    · exact hdeleted.symm ▸ hm.apply (.deleteDmPending id)
  | write w => exact hm.apply w
  | _ => exact hm

theorem Keyed.weather {op : DmOp} {w w' : World} {ans : op.Answer} (h : Weather op w ans w')
    (hw : Keyed w.store) : Keyed w'.store := by
  obtain ⟨-, ⟨-, hstore⟩ | ⟨nonce, hexec⟩⟩ := h
  · rwa [hstore]
  · have hstore : w'.store = (op.exec w'.clock nonce w.store).2 := (congrArg Prod.snd hexec).symm
    rw [hstore]
    exact hw.exec w'.clock nonce op

def DmOp.Under (key : String) (op : DmOp) : Prop := ∀ r ∈ op.record, r.id = key

theorem DmChanges.About.writes {key : String} {Noted : Device → Prop} {c : DmChanges}
    (h : c.About key Noted) : ∀ w ∈ c.writes, (DmOp.write w).Under key := by
  have hsaveRemainder : ∀ w ∈ c.saveRemainder, (DmOp.write w).Under key := by
    intro w hw r hr
    simp only [DmChanges.saveRemainder, List.mem_append, Option.mem_toList,
      Option.map_eq_some_iff] at hw
    rcases hw with (hw | ⟨p, hp, rfl⟩) | hw
    · split_ifs at hw with hne
      · obtain rfl := List.mem_singleton.mp hw
        exact Option.some.inj hr ▸ h.deletePending hne
      · cases hw
    · exact Option.some.inj hr ▸ h.pending p hp
    · split_ifs at hw with hne
      · obtain rfl := List.mem_singleton.mp hw
        exact Option.some.inj hr ▸ h.deleteSession hne
      · cases hw
  have hsaveSession : ∀ w ∈ c.saveSession, (DmOp.write w).Under key := by
    intro w hw r hr
    simp only [DmChanges.saveSession, List.mem_append, Option.mem_toList,
      Option.map_eq_some_iff] at hw
    rcases hw with ⟨s, hs, rfl⟩ | hw
    · exact Option.some.inj hr ▸ h.session s hs
    · split_ifs at hw with hne
      · obtain rfl := List.mem_singleton.mp hw
        exact Option.some.inj hr ▸ h.deleteSession hne
      · cases hw
  intro w hw
  unfold DmChanges.writes at hw
  rcases List.mem_append.mp hw with hdevice | hw
  · obtain ⟨d, -, rfl⟩ := Option.map_eq_some_iff.mp (Option.mem_toList.mp hdevice)
    intro r hr
    cases hr
  · split_ifs at hw
    · exact (List.mem_append.mp hw).elim (hsaveSession w) (hsaveRemainder w)
    · exact (List.mem_append.mp hw).elim (hsaveRemainder w) (hsaveSession w)

/-- The records that any requests to the server leave in an empty store. -/
inductive Reached : World → Prop
  | start {w : World} : w.store.dmSessions = (fun _ => none) → w.store.dmPending = (fun _ => none) →
    Reached w
  | dm {op : DmOp} {w w' : World} {ans : op.Answer} : Reached w → Weather op w ans w' → Reached w'
  | elsewhere {w w' : World} : Reached w → w'.store.dmSessions = w.store.dmSessions →
    w'.store.dmPending = w.store.dmPending → Reached w'

theorem Reached.keyed {w : World} (h : Reached w) : Keyed w.store := by
  induction h with
  | start hsessions hpending =>
    constructor
    · intro id s hs
      rw [hsessions] at hs
      cases hs
    · intro id p hp
      rw [hpending] at hp
      cases hp
  | dm _ hop ih => exact ih.weather hop
  | elsewhere _ hsessions hpending ih =>
    exact ⟨hsessions ▸ ih.sessions, hpending ▸ ih.pending⟩

/-- An operation of one message, whatever other requests have done in the meantime. -/
def Amid : Effect DmOp DmOp.Answer World := fun op _ ans w' => ∃ w, Reached w ∧ Weather op w ans w'

section Found
variable {R : Effect DmOp DmOp.Answer World} {I : World → Prop} {Q : DmOp → Prop} {key : String}
  (hR : ∀ op w ans w', I w → R op w ans w' → ∃ w₁ : World, Keyed w₁.store ∧ Weather op w₁ ans w')
include hR

theorem keeps_lookup {α : Type} (kind : RecordKind α)
    (hkeyed : ∀ {m}, Keyed m → ∀ id a, kind.records m id = some a → kind.idOf a = id)
    (hQ : Q (kind.read key)) (hI : ∀ w ans w', I w → R (kind.read key) w ans w' → I w') :
    Keeps R I Q (kind.lookup key) fun found => ∀ a ∈ found, kind.idOf a = key := by
  intro w tr r w' hw h
  obtain ⟨ans, hop, rfl, rfl⟩ := kind.exec_lookup h
  obtain ⟨w₁, hw₁, hread⟩ := hR _ _ _ _ hw hop
  refine ⟨hI _ _ _ hw hop, List.forall_mem_singleton.mpr hQ, fun found hfound => ?_⟩
  obtain ⟨-, ⟨⟨e, rfl⟩, -⟩ | ⟨rfl, -⟩⟩ := kind.weather_read hread
  · cases hfound
  · obtain rfl := Except.ok.inj hfound
    intro a ha
    rcases kind.get_cases w₁.store key w'.clock with ⟨heq, -⟩ | ⟨heq, -⟩
    · exact hkeyed hw₁ key a (heq ▸ ha)
    · rw [heq] at ha
      cases ha

theorem keeps_getDmSession (hQ : Q (.getDmSession key))
    (hI : ∀ w ans w', I w → R (.getDmSession key) w ans w' → I w') :
    Keeps R I Q (Dm.getDmSession key) fun found => ∀ s ∈ found, s.sessionId = key :=
  keeps_lookup hR .sessions Keyed.sessions hQ hI

theorem keeps_getDmPending (hQ : Q (.getDmPending key))
    (hI : ∀ w ans w', I w → R (.getDmPending key) w ans w' → I w') :
    Keeps R I Q (Dm.getDmPending key) fun found => ∀ p ∈ found, p.sessionId = key :=
  keeps_lookup hR .remainders Keyed.pending hQ hI

end Found

section Amid
variable {key : String} {service : DmService} {message : SyncMlMessage}

theorem amid_asks (op : DmOp) (hop : op.Asks) :
    op.Under key ∧ ∀ w ans w', True → Amid op w ans w' → True := by
  cases op with
  | getSubscriber | now | makeNonce => exact ⟨fun r hr => (by cases hr), fun _ _ _ _ _ => trivial⟩
  | _ => exact hop.elim

theorem amid_weather (op : DmOp) (w : World) (ans : op.Answer) (w' : World) (_ : True)
    (h : Amid op w ans w') : ∃ w₁ : World, Keyed w₁.store ∧ Weather op w₁ ans w' :=
  let ⟨w₁, hw₁, hop⟩ := h
  ⟨w₁, hw₁.keyed, hop⟩

theorem amid_absorbDeviceValues (session : DmSession) :
    Keeps Amid (fun _ => True) (DmOp.Under key) (service.absorbDeviceValues message session)
      fun _ => True := by
  have hdevice : (service.absorbDeviceValues message session).run.Uses (DmOp.Under key) := by
    refine ⟨fun r hr => (by cases hr), fun ans => ?_⟩
    rcases ans with e | _ | device
    · trivial
    · exact ⟨fun r hr => (by cases hr), fun _ => ⟨fun r hr => (by cases hr), fun _ => trivial⟩⟩
    · exact ⟨fun r hr => (by cases hr), fun _ => trivial⟩
  exact Keeps.of_uses hdevice fun op hop => ⟨hop, fun _ _ _ _ _ => trivial⟩

theorem amid_writeAll {ws : List DmWrite} (hws : ∀ w ∈ ws, (DmOp.write w).Under key) :
    Keeps Amid (fun _ => True) (DmOp.Under key) (writeAll ws) fun _ => True := by
  induction ws with
  | nil => exact Keeps.pure trivial
  | cons write ws ih =>
    obtain ⟨hwrite, hrest⟩ := List.forall_mem_cons.mp hws
    refine Keeps.bind (P := fun _ => True) ?_ fun _ _ => ih hrest
    refine Keeps.of_uses (U := DmOp.Under key) ⟨hwrite, fun ans => ?_⟩ fun op hop =>
      ⟨hop, fun _ _ _ _ _ => trivial⟩
    trivial

theorem exec_respond_under {binary : Bool} {encode : Encoder} {w w' : World}
    {tr : List (Event DmOp.Answer)} {r : Except DmError DmResponse}
    (h : Exec Amid (service.respond message binary encode).run w tr r w') :
    ∀ e ∈ tr, e.1.Under (service.keyOf message.header) := by
  obtain ⟨ans, w₁, tr₁, tr₂, hhandle, hrest, rfl⟩ := Exec.bind_iff.mp h
  obtain ⟨-, hops, hchanges⟩ := keeps_handleMessage amid_asks
    (keeps_getDmSession amid_weather (by rintro r ⟨⟩; rfl) fun _ _ _ _ _ => trivial)
    (keeps_getDmPending amid_weather (by rintro r ⟨⟩; rfl) fun _ _ _ _ _ => trivial)
    amid_absorbDeviceValues rfl _ _ _ _ trivial hhandle
  refine List.forall_mem_append.mpr ⟨hops, ?_⟩
  cases ans with
  | error e =>
    dsimp only at hrest
    split at hrest <;> obtain ⟨rfl, -, -⟩ := Exec.result_iff.mp hrest <;> simp
  | ok a =>
    obtain ⟨outcome, changes⟩ := a
    have hcommit := (amid_writeAll (hchanges _ rfl).writes).bind fun _ _ =>
      Keeps.pure (a := sent binary outcome) (P := fun _ => True) trivial
    exact (hcommit _ _ _ _ trivial hrest).2.1

end Amid

/-- Two lists joined at a separator are the same when their parts are, or when one of the left parts
goes on past its separator to that of the other. -/
theorem append_cons_eq_append_cons_iff {α : Type} {sep : α} {as bs cs ds : List α} :
    as ++ sep :: bs = cs ++ sep :: ds ↔ as = cs ∧ bs = ds ∨
      (∃ ts, cs = as ++ sep :: ts ∧ bs = ts ++ sep :: ds) ∨
      ∃ ts, as = cs ++ sep :: ts ∧ ds = ts ++ sep :: bs := by
  constructor
  · intro h
    rcases List.append_eq_append_iff.mp h with ⟨ts, hcs, hbs⟩ | ⟨ts, has, hds⟩
    · cases ts with
      | nil =>
        have hds : bs = ds := by simpa using hbs
        exact Or.inl ⟨by rw [hcs, List.append_nil], hds⟩
      | cons t ts =>
        obtain ⟨hsep, htail⟩ := List.cons.inj hbs
        subst hsep
        exact Or.inr (Or.inl ⟨ts, hcs, htail⟩)
    · cases ts with
      | nil =>
        have hbs : ds = bs := by simpa using hds
        exact Or.inl ⟨by rw [has, List.append_nil], hbs.symm⟩
      | cons t ts =>
        obtain ⟨hsep, htail⟩ := List.cons.inj hds
        subst hsep
        exact Or.inr (Or.inr ⟨ts, has, htail⟩)
  · rintro (⟨rfl, rfl⟩ | ⟨ts, rfl, rfl⟩ | ⟨ts, rfl, rfl⟩) <;> simp

/-- The id of a device goes on past a colon, where that of the other ends and its SessionID
begins. -/
def RunsInto (deviceId sessionId deviceId' sessionId' : String) : Prop :=
  ∃ rest : String, orText deviceId "unknown" = orText deviceId' "unknown" ++ ":" ++ rest ∧
    sessionId' = rest ++ ":" ++ sessionId

/-- Two pairs of a device id and a SessionID that make one key: a device that calls itself `unknown`
and one without a name, or two that divide the key at different colons. -/
def Confused (deviceId sessionId deviceId' sessionId' : String) : Prop :=
  sessionId = sessionId' ∧ (deviceId = "" ∧ deviceId' = "unknown" ∨
      deviceId = "unknown" ∧ deviceId' = "") ∨
    RunsInto deviceId sessionId deviceId' sessionId' ∨
    RunsInto deviceId' sessionId' deviceId sessionId

theorem orText_eq_iff {a b default : String} :
    orText a default = orText b default ↔
      a = b ∨ a = "" ∧ b = default ∨ a = default ∧ b = "" := by
  unfold orText
  split_ifs with ha hb hb
  · exact ⟨Or.inl, fun h => by rcases h with h | ⟨h, -⟩ | ⟨-, h⟩ <;> tauto⟩
  · rw [not_not] at hb
    subst hb
    constructor
    · exact fun h => Or.inr (Or.inr ⟨h, rfl⟩)
    · rintro (h | ⟨h, -⟩ | ⟨h, -⟩)
      · exact absurd h ha
      · exact absurd h ha
      · exact h
  · rw [not_not] at ha
    subst ha
    constructor
    · exact fun h => Or.inr (Or.inl ⟨rfl, h.symm⟩)
    · rintro (h | ⟨-, h⟩ | ⟨-, h⟩)
      · exact absurd h.symm hb
      · exact h.symm
      · exact absurd h hb
  · rw [not_not] at ha hb
    exact ⟨fun _ => Or.inl (ha.trans hb.symm), fun _ => rfl⟩

theorem runsInto_iff {d s d' s' : String} :
    RunsInto d s d' s' ↔ ∃ ts, (orText d "unknown").toList = (orText d' "unknown").toList ++ ':' :: ts ∧
      s'.toList = ts ++ ':' :: s.toList := by
  constructor
  · rintro ⟨rest, hd, rfl⟩
    exact ⟨rest.toList, by rw [hd]; simp, by simp⟩
  · rintro ⟨ts, hd, hs⟩
    refine ⟨String.ofList ts, ?_, ?_⟩ <;> rw [← String.toList_inj]
    · rw [hd]
      simp
    · rw [hs]
      simp

theorem sessionKey_eq_iff {d s d' s' : String} :
    sessionKey d s = sessionKey d' s' ↔ (d, s) = (d', s') ∨ Confused d s d' s' := by
  have hlists : sessionKey d s = sessionKey d' s' ↔
      (orText d "unknown").toList ++ ':' :: s.toList =
        (orText d' "unknown").toList ++ ':' :: s'.toList := by
    rw [← String.toList_inj]
    simp [sessionKey]
  rw [hlists, append_cons_eq_append_cons_iff, String.toList_inj, String.toList_inj,
    orText_eq_iff, ← runsInto_iff, ← runsInto_iff]
  unfold Confused
  rw [Prod.mk.injEq]
  tauto

theorem Confused.ne {d s d' s' : String} (h : Confused d s d' s') : (d, s) ≠ (d', s') := by
  have hlength : ∀ {ts : List Char} {shown : String},
      shown.toList = shown.toList ++ ':' :: ts → False := by
    intro ts shown h
    have := congrArg List.length h
    simp at this
  rintro heq
  obtain ⟨rfl, rfl⟩ := Prod.mk.inj heq
  rcases h with ⟨-, ⟨hempty, hunknown⟩ | ⟨hunknown, hempty⟩⟩ | h | h
  · exact absurd (hempty.symm.trans hunknown) (by decide)
  · exact absurd (hempty.symm.trans hunknown) (by decide)
  · obtain ⟨ts, hshown, -⟩ := runsInto_iff.mp h
    exact hlength hshown
  · obtain ⟨ts, hshown, -⟩ := runsInto_iff.mp h
    exact hlength hshown

/-! ### Which messages share a record -/

def SyncHdr.Numbered (header : SyncHdr) : Prop := header.sessionId ≠ "" ∧ header.msgId ≠ ""

instance (header : SyncHdr) : Decidable header.Numbered :=
  inferInstanceAs (Decidable (header.sessionId ≠ "" ∧ header.msgId ≠ ""))

namespace DmService
variable (service : DmService)

/-- Messages of different devices or sessions. -/
def Strangers (m₁ m₂ : SyncMlMessage) : Prop :=
  (service.deviceIdFrom m₁.header.source, m₁.header.sessionId) ≠
    (service.deviceIdFrom m₂.header.source, m₂.header.sessionId)

instance (m₁ m₂ : SyncMlMessage) : Decidable (service.Strangers m₁ m₂) :=
  inferInstanceAs (Decidable ((_, _) ≠ (_, _)))

/-- Whatever other requests there are, no operation of one message is on a record that an operation
of the other is on; nor are they on one item of the table. -/
def Apart (m₁ m₂ : SyncMlMessage) : Prop :=
  ∀ binary₁ encode₁ w₁ tr₁ r₁ w₁' binary₂ encode₂ w₂ tr₂ r₂ w₂',
    Exec Amid (service.respond m₁ binary₁ encode₁).run w₁ tr₁ r₁ w₁' →
    Exec Amid (service.respond m₂ binary₂ encode₂).run w₂ tr₂ r₂ w₂' →
    ∀ e₁ ∈ tr₁, ∀ e₂ ∈ tr₂, ∀ record₁ ∈ e₁.1.record, ∀ record₂ ∈ e₂.1.record,
      record₁ ≠ record₂ ∧ record₁.item ≠ record₂.item

/-- Both messages get as far as their records, and their keys are the same. -/
def Collide (m₁ m₂ : SyncMlMessage) : Prop :=
  m₁.header.Numbered ∧ m₂.header.Numbered ∧
    Confused (service.deviceIdFrom m₁.header.source) m₁.header.sessionId
      (service.deviceIdFrom m₂.header.source) m₂.header.sessionId

variable {service} {m₁ m₂ : SyncMlMessage}

theorem apart_of_keyOf_ne (h : service.keyOf m₁.header ≠ service.keyOf m₂.header) :
    service.Apart m₁ m₂ := by
  intro binary₁ encode₁ w₁ tr₁ r₁ w₁' binary₂ encode₂ w₂ tr₂ r₂ w₂' h₁ h₂ e₁ he₁ e₂ he₂
    record₁ hrecord₁ record₂ hrecord₂
  have hkey₁ := exec_respond_under h₁ e₁ he₁ record₁ hrecord₁
  have hkey₂ := exec_respond_under h₂ e₂ he₂ record₂ hrecord₂
  have hne : record₁ ≠ record₂ := by
    rintro rfl
    exact h (hkey₁.symm.trans hkey₂)
  exact ⟨hne, fun heq => hne (DmRecord.item_injective heq)⟩

theorem exec_reads_session (service : DmService) (hm : m₁.header.Numbered) (binary : Bool)
    (encode : Encoder) (w : World) :
    ∃ tr r w', Exec Amid (service.respond m₁ binary encode).run w tr r w' ∧
      ∃ e ∈ tr, e.1.record = some (.session (service.keyOf m₁.header)) := by
  have hnumbered : ¬((m₁.header.sessionId = "" || m₁.header.msgId = "") = true) := by
    unfold SyncHdr.Numbered at hm
    simpa using hm
  obtain ⟨next, hnext⟩ : ∃ next, (service.respond m₁ binary encode).run =
      .call (.getDmSession (service.keyOf m₁.header)) next := by
    unfold respond handleMessage
    dsimp only
    rw [if_neg hnumbered]
    exact ⟨_, rfl⟩
  let alone (op : DmOp) (w : World) : op.Answer × World :=
    ((op.exec w.clock "" {}).1, ⟨(op.exec w.clock "" {}).2, w.clock⟩)
  have hamid : ∀ op w, Amid op w (alone op w).1 (alone op w).2 := fun op w =>
    ⟨⟨{}, w.clock⟩, .start rfl rfl, Int.le_refl _, Or.inr ⟨"", rfl⟩⟩
  rw [hnext]
  obtain ⟨tr, hrest⟩ := Exec.of_eval id hamid (next (alone _ w).1) (alone _ w).2
  exact ⟨_, _, _, .call (hamid _ w) hrest, _, List.mem_cons_self, rfl⟩

theorem not_apart_of_keyOf_eq (h₁ : m₁.header.Numbered) (h₂ : m₂.header.Numbered)
    (h : service.keyOf m₁.header = service.keyOf m₂.header) : ¬service.Apart m₁ m₂ := by
  intro hapart
  let w : World := ⟨{}, 1, Int.one_pos⟩
  obtain ⟨tr₁, r₁, w₁, hexec₁, e₁, he₁, hrecord₁⟩ :=
    exec_reads_session service h₁ false .ok w
  obtain ⟨tr₂, r₂, w₂, hexec₂, e₂, he₂, hrecord₂⟩ :=
    exec_reads_session service h₂ false .ok w
  rw [h] at hrecord₁
  exact (hapart _ _ _ _ _ _ _ _ _ _ _ _ hexec₁ hexec₂ e₁ he₁ e₂ he₂ _ hrecord₁ _ hrecord₂).1 rfl

theorem exec_of_not_numbered (hm : ¬m₁.header.Numbered) {binary : Bool} {encode : Encoder}
    {w w' : World} {tr : List (Event DmOp.Answer)} {r : Except DmError DmResponse}
    (h : Exec Amid (service.respond m₁ binary encode).run w tr r w') : tr = [] := by
  have hnumbered : (m₁.header.sessionId = "" || m₁.header.msgId = "") = true := by
    unfold SyncHdr.Numbered at hm
    simpa [or_iff_not_imp_left] using hm
  unfold respond handleMessage at h
  dsimp only at h
  rw [if_pos hnumbered] at h
  exact (Exec.result_iff.mp h).1

/-- Messages of different devices or sessions share no record unless they collide. -/
theorem strangers_apart_iff :
    (service.Strangers m₁ m₂ → service.Apart m₁ m₂) ↔ ¬service.Collide m₁ m₂ := by
  constructor
  · rintro h ⟨h₁, h₂, hconfused⟩
    exact not_apart_of_keyOf_eq h₁ h₂ (sessionKey_eq_iff.mpr (Or.inr hconfused)) (h hconfused.ne)
  · intro hcollide hstrangers
    by_cases h₁ : m₁.header.Numbered
    · by_cases h₂ : m₂.header.Numbered
      · apply apart_of_keyOf_ne
        intro hkey
        rcases sessionKey_eq_iff.mp hkey with heq | hconfused
        · exact hstrangers heq
        · exact hcollide ⟨h₁, h₂, hconfused⟩
      · intro binary₁ encode₁ w₁ tr₁ r₁ w₁' binary₂ encode₂ w₂ tr₂ r₂ w₂' _ hexec₂ e₁ _ e₂ he₂
        rw [exec_of_not_numbered h₂ hexec₂] at he₂
        cases he₂
    · intro binary₁ encode₁ w₁ tr₁ r₁ w₁' binary₂ encode₂ w₂ tr₂ r₂ w₂' hexec₁ _ e₁ he₁
      rw [exec_of_not_numbered h₁ hexec₁] at he₁
      cases he₁

end DmService

namespace Lab

def greeting (source sessionId : String) : SyncMlMessage where
  header := { sessionId, msgId := "1", source }

/-- Two handsets whose sessions have one key. -/
theorem strangers_not_apart :
    let m₁ := greeting "IMEI:356938035643809" "7:42"
    let m₂ := greeting "IMEI:356938035643809:7" "42"
    (service []).Strangers m₁ m₂ ∧ ¬(service []).Apart m₁ m₂ :=
  ⟨by decide +kernel, DmService.not_apart_of_keyOf_eq (by decide) (by decide) (by decide +kernel)⟩

end Lab
end Acs.Omadm
