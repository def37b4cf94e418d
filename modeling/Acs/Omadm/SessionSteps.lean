import Acs.Omadm.Records
import Acs.Omadm.Session

/-! What handling a DM message may read, answer and write. -/

namespace Acs.Omadm
open Interleave

/-- A record as it is found: the stored one, unless that has lapsed. -/
def Faded {α : Type} (expiresAt : α → Int) (clock : Clock) (stored found : Option α) : Prop :=
  found = stored ∨ found = none ∧ ∃ x, stored = some x ∧ MemoryStore.lapsed (expiresAt x) clock

/-- Between two worlds nothing was written; records may have lapsed. -/
structure Reads (w w' : World) : Prop where
  time : w.clock.now ≤ w'.clock.now
  kept : w'.store =
    { w.store with dmSessions := w'.store.dmSessions, dmPending := w'.store.dmPending }
  sessions : ∀ id, Faded DmSession.expiresAt w'.clock (w.store.dmSessions id)
    (w'.store.dmSessions id)
  pending : ∀ id, Faded DmPendingPackage.expiresAt w'.clock (w.store.dmPending id)
    (w'.store.dmPending id)

section Lapse
variable {α : Type} {expiresAt : α → Int} {clock clock' : Clock} {stored found found' : Option α}

theorem lapsed_mono {t : Int} (hle : clock.now ≤ clock'.now) (h : MemoryStore.lapsed t clock) :
    MemoryStore.lapsed t clock' := by
  simp only [MemoryStore.lapsed, Bool.and_eq_true, decide_eq_true_eq] at h ⊢
  exact ⟨h.1, by omega⟩

theorem Faded.refl : Faded expiresAt clock stored stored := Or.inl rfl

theorem Faded.eq_of_isSome (h : Faded expiresAt clock stored found) (hsome : found.isSome = true) :
    found = stored := by
  rcases h with hsame | ⟨hnone, -⟩
  · exact hsame
  · rw [hnone] at hsome
    cases hsome

theorem Faded.mono (h : Faded expiresAt clock stored found) (hle : clock.now ≤ clock'.now) :
    Faded expiresAt clock' stored found := by
  rcases h with h | ⟨hnone, x, hx, hlapsed⟩
  · exact Or.inl h
  · exact Or.inr ⟨hnone, x, hx, lapsed_mono hle hlapsed⟩

theorem Faded.trans (h : Faded expiresAt clock stored found)
    (h' : Faded expiresAt clock' found found') (hle : clock.now ≤ clock'.now) :
    Faded expiresAt clock' stored found' := by
  rcases h with rfl | ⟨rfl, hx⟩
  · exact h'
  · rcases h' with rfl | ⟨rfl, -⟩
    · exact Faded.mono (Or.inr ⟨rfl, hx⟩) hle
    · exact Faded.mono (Or.inr ⟨rfl, hx⟩) hle

end Lapse

namespace Reads
variable {w w' w'' : World}

theorem refl (w : World) : Reads w w := ⟨Int.le_refl _, rfl, fun _ => .refl, fun _ => .refl⟩

theorem trans (h : Reads w w') (h' : Reads w' w'') : Reads w w'' where
  time := Int.le_trans h.time h'.time
  kept := by rw [h'.kept, h.kept]
  sessions id := (h.sessions id).trans (h'.sessions id) h'.time
  pending id := (h.pending id).trans (h'.pending id) h'.time

theorem of_store_eq (htime : w.clock.now ≤ w'.clock.now) (hstore : w'.store = w.store) :
    Reads w w' := by
  constructor
  · exact htime
  · rw [hstore]
  · intro id
    rw [hstore]
    exact .refl
  · intro id
    rw [hstore]
    exact .refl

theorem subscribers (h : Reads w w') : w'.store.subscribers = w.store.subscribers := by rw [h.kept]

end Reads

theorem RecordKind.faded_get {α : Type} (kind : RecordKind α) (m : MemoryStore) (id : String)
    (clock : Clock) (key : String) :
    Faded kind.expiresAt clock (kind.records m key) (kind.records (kind.get m id clock).2 key) := by
  rcases kind.get_cases m id clock with ⟨-, hsame⟩ | ⟨-, hdeleted, a, ha, hlapsed⟩
  · rw [hsame]
    exact .refl
  · rw [hdeleted, kind.records_delete]
    by_cases hkey : key = id
    · subst hkey
      exact Or.inr ⟨Function.update_self .., a, ha, hlapsed⟩
    · exact Or.inl (Function.update_of_ne hkey ..)

section Lapsing
variable (m : MemoryStore) (id : String) (clock : Clock)

theorem getDmSession_cases :
    (m.getDmSession id clock).1 = m.dmSessions id ∧ (m.getDmSession id clock).2 = m ∨
      (m.getDmSession id clock).1 = none ∧ (m.getDmSession id clock).2 = m.deleteDmSession id ∧
      ∃ s, m.dmSessions id = some s ∧ MemoryStore.lapsed s.expiresAt clock :=
  RecordKind.sessions.get_cases m id clock

theorem getDmPending_cases :
    (m.getDmPending id clock).1 = m.dmPending id ∧ (m.getDmPending id clock).2 = m ∨
      (m.getDmPending id clock).1 = none ∧ (m.getDmPending id clock).2 = m.deleteDmPending id ∧
      ∃ p, m.dmPending id = some p ∧ MemoryStore.lapsed p.expiresAt clock :=
  RecordKind.remainders.get_cases m id clock

theorem getDmSession_rest : (m.getDmSession id clock).2 =
    { m with dmSessions := (m.getDmSession id clock).2.dmSessions } := by
  rcases getDmSession_cases m id clock with ⟨-, hsame⟩ | ⟨-, hdeleted, -⟩
  · rw [hsame]
  · rw [hdeleted]
    rfl

theorem getDmPending_rest : (m.getDmPending id clock).2 =
    { m with dmPending := (m.getDmPending id clock).2.dmPending } := by
  rcases getDmPending_cases m id clock with ⟨-, hsame⟩ | ⟨-, hdeleted, -⟩
  · rw [hsame]
  · rw [hdeleted]
    rfl

end Lapsing

theorem Reads.of_getDmSession {w w' : World} {id : String} (htime : w.clock.now ≤ w'.clock.now)
    (hstore : w'.store = (w.store.getDmSession id w'.clock).2) : Reads w w' where
  time := htime
  kept := by
    rw [hstore, getDmSession_rest]
  sessions key := by
    rw [hstore]
    exact RecordKind.sessions.faded_get w.store id w'.clock key
  pending key := by
    rw [hstore, getDmSession_rest]
    exact .refl

theorem Reads.of_getDmPending {w w' : World} {id : String} (htime : w.clock.now ≤ w'.clock.now)
    (hstore : w'.store = (w.store.getDmPending id w'.clock).2) : Reads w w' where
  time := htime
  kept := by
    rw [hstore, getDmPending_rest]
  sessions key := by
    rw [hstore, getDmPending_rest]
    exact .refl
  pending key := by
    rw [hstore]
    exact RecordKind.remainders.faded_get w.store id w'.clock key

def Faults (R : Effect DmOp DmOp.Answer World) : Prop := ∃ op w ans w', R op w ans w' ∧ op.Failed ans

theorem not_faults_fair : ¬ Faults Fair := by
  rintro ⟨op, w, ans, w', ⟨-, nonce, hexec⟩, hfailed⟩
  obtain ⟨rfl, -⟩ := Prod.mk.inj hexec
  cases op <;> first | exact hfailed | exact nomatch hfailed

/-- What a message may ask for before it has been authenticated. -/
def DmOp.Open : DmOp → Prop
  | .getSubscriber _ => True
  | .getDmSession _ => True
  | .now => True
  | .makeNonce => True
  | _ => False

/-- What a message may ask for before its answer is encoded. -/
def DmOp.IsRead : DmOp → Prop
  | .write _ => False
  | _ => True

theorem DmOp.Open.isRead {op : DmOp} (h : op.Open) : op.IsRead := by
  cases op <;> trivial

/-! ### What a message comes to -/

def passwordOf (subscribers : String → Option Subscriber) (username : String) : Option String :=
  if username = "" then none
  else (subscribers username).bind fun s => if s.dmPassword = "" then none else some s.dmPassword

def ownSubscriber (session : DmSession) (subscribers : String → Option Subscriber) :
    Option Subscriber :=
  if session.imsi = "" then none else subscribers session.imsi

namespace DmService
variable (service : DmService) (message : SyncMlMessage) (session : DmSession) (encode : Encoder)

def keyOf (header : SyncHdr) : String :=
  sessionKey (service.deviceIdFrom header.source) header.sessionId

/-- The session a message is handled in, given the record found. -/
def sessionFrom (found : Option DmSession) (clock : Clock) : DmSession :=
  service.openSession message.header (found.getD (service.newSession message.header clock))

/-- A session the message may be handled in, whenever the record is read. -/
def Loads (w : World) (session : DmSession) : Prop :=
  ∃ clock clock' : Clock, w.clock.now ≤ clock.now ∧ session = service.sessionFrom message
    (w.store.getDmSession (service.keyOf message.header) clock).1 clock'

def verdict (subscribers : String → Option Subscriber) : Auth.Verdict :=
  let credentials := message.header.credentials
  if service.settings.dmAuthScheme = .none then Auth.authenticateNone service.crypto credentials
  else
    match credentials.filter (·.type = authMd5) with
    | some c =>
      let username := orText message.header.sourceName session.imsi
      Auth.authenticateMd5 service.py service.crypto c username (passwordOf subscribers username)
        session.nonce
    | none =>
      Auth.authenticate service.crypto credentials
        ((Auth.basicUser service.crypto credentials).bind (passwordOf subscribers))

def Authenticates (w : World) : Prop :=
  ∃ session username, service.Loads message w session ∧
    service.verdict message session w.store.subscribers = .accepted username

/-- What an accepted message is answered, once its records are read. -/
def answer (pending : Option DmPendingPackage) (changes : DmChanges)
    (subscribers : String → Option Subscriber) (device : Device) :
    Except DmError (DmResponse × DmChanges) :=
  if message.hasAlert alertSessionAbort then
    service.endSession message session changes encode "DmSessionAborted" "client_abort"
  else if message.hasAlert alertEndOfSession then
    service.endSession message session changes encode "DmSessionEnded" "client_ended"
  else
    match pending with
    | some pending =>
      if Package.maxMessagesPerPackage ≤ pending.messages then
        .ok ({ statusCode := 413, metric := "DmTooLarge", detail := "too_many_messages"
               sessionFinished := true }, { changes with deleteSessionId := session.sessionId })
      else service.sendNext message session pending changes encode device
    | none =>
      if session.phase = "init" then
        if !(message.hasAlert alertClientInitiatedMgmt ||
            message.hasAlert alertServerInitiatedMgmt) then
          .ok ({ statusCode := 400, metric := "DmProtocolError"
                 detail := "first package must carry Alert 1200 or 1201" }, changes)
        else service.requestInventory message session changes encode device
      else if session.phase = "devinfo" then
        service.pushConfiguration message session changes encode device
          (ownSubscriber session subscribers)
      else service.handleFinish message session changes encode

def acceptedAnswer (username : String) (stored : Option DmPendingPackage)
    (subscribers : String → Option Subscriber) (device : Device) :
    Except DmError (DmResponse × DmChanges) := do
  let lastMsgId ← service.msgNumber message.header.msgId 0
  let session := acceptedSession session username lastMsgId
  if Package.maxAcknowledgedCommands < (service.acks message).length then
    return ({ statusCode := 413, metric := "DmTooLarge", detail := "too_many_commands" }, {})
  else
    service.answer message session encode (currentRemainder session stored).1
      (currentRemainder session stored).2 subscribers device

/-- What handling a message comes to, in the records it leaves for its key: `w` is the world it
starts in, and `w'` the one in which it has read what it needs. -/
inductive Handled (w w' : World) : Except DmError (DmResponse × DmChanges) → Prop
  | unnumbered : message.header.sessionId = "" ∨ message.header.msgId = "" →
    Handled w w' (.ok ({ statusCode := 400, metric := "DmProtocolError"
                         detail := "missing SessionID or MsgID" }, {}))
  | rejected (clock : Clock) (session : DmSession) (reason nonce : String)
      (keepOrFresh : Auth.ChallengeNonce) : service.Loads message w session →
    session = service.sessionFrom message (w'.store.dmSessions (service.keyOf message.header))
      clock →
    service.verdict message session w.store.subscribers = .rejected reason keepOrFresh →
    (keepOrFresh = .keep → session.nonce ≠ "" → nonce = session.nonce) →
    w'.store.dmPending = w.store.dmPending →
    Handled w w' (service.rejectMessage message session reason nonce encode)
  | accepted (clock : Clock) (session : DmSession) (username : String) (device : Device) :
    service.Loads message w session →
    session = service.sessionFrom message (w'.store.dmSessions (service.keyOf message.header))
      clock →
    service.verdict message session w.store.subscribers = .accepted username →
    Handled w w' (service.acceptedAnswer message session encode username
      (w'.store.dmPending session.sessionId) w.store.subscribers device)

end DmService

section Reading
variable (R : Effect DmOp DmOp.Answer World) (allowed : DmOp → Prop)

def Raised {α : Type} (r : Except DmError α) : Prop := ∃ e, r = .error (.store e) ∧ Faults R

/-- The program asks only for what is allowed, writes nothing, and unless a store call raises it
ends in a world and a result that satisfy `Q`. -/
def Reading {α : Type} (x : DmProgram α) (w : World) (Q : World → Except DmError α → Prop) : Prop :=
  ∀ tr r w', Exec R x.run w tr r w' →
    (∀ e ∈ tr, allowed e.1) ∧ Reads w w' ∧ (Raised R r ∨ Q w' r)

variable {R allowed} {α β : Type} {w : World}

theorem Reading.bind {x : DmProgram α} {f : α → DmProgram β} {Q : World → Except DmError β → Prop}
    (hx : Reading R allowed x w fun w' r => ∃ a, r = .ok a ∧ Reading R allowed (f a) w' Q) :
    Reading R allowed (x >>= f) w Q := by
  intro tr r w' h
  rcases Exec.bind_cases h with ⟨e, hexec, rfl⟩ | ⟨a, w₁, tr₁, tr₂, hexec, hrest, rfl⟩
  · obtain ⟨hops, hreads, ⟨e', he, hfaults⟩ | ⟨a, ha, -⟩⟩ := hx _ _ _ hexec
    · cases he
      exact ⟨hops, hreads, Or.inl ⟨e', rfl, hfaults⟩⟩
    · cases ha
  · obtain ⟨hops, hreads, ⟨e', he, -⟩ | ⟨a', ha, hf⟩⟩ := hx _ _ _ hexec
    · cases he
    · cases ha
      obtain ⟨hops', hreads', hr⟩ := hf _ _ _ hrest
      refine ⟨fun e he => ?_, hreads.trans hreads', hr⟩
      exact (List.mem_append.mp he).elim (hops e) (hops' e)

theorem Reading.mono {x : DmProgram α} {Q Q' : World → Except DmError α → Prop}
    (hx : Reading R allowed x w Q) (hQ : ∀ w' r, Reads w w' → Q w' r → Q' w' r) :
    Reading R allowed x w Q' := by
  intro tr r w' h
  obtain ⟨hops, hreads, hr⟩ := hx tr r w' h
  exact ⟨hops, hreads, hr.imp_right (hQ w' r hreads)⟩

theorem Reading.allow {allowed' : DmOp → Prop} {x : DmProgram α}
    {Q : World → Except DmError α → Prop} (hx : Reading R allowed x w Q)
    (hallow : ∀ op, allowed op → allowed' op) : Reading R allowed' x w Q := by
  intro tr r w' h
  obtain ⟨hops, hreads, hr⟩ := hx tr r w' h
  exact ⟨fun e he => hallow _ (hops e he), hreads, hr⟩

theorem Reading.isRead {x : DmProgram α} {Q : World → Except DmError α → Prop}
    (hx : Reading R DmOp.Open x w Q) : Reading R DmOp.IsRead x w Q :=
  hx.allow fun _ => DmOp.Open.isRead

theorem Reading.ofExcept {x : Except DmError α} {Q : World → Except DmError α → Prop} (h : Q w x) :
    Reading R allowed (Dm.ofExcept x) w Q := by
  intro tr r w' hexec
  obtain ⟨rfl, rfl, rfl⟩ := Exec.result_iff.mp hexec
  exact ⟨fun e he => absurd he List.not_mem_nil, .refl _, Or.inr h⟩

theorem Reading.pure {a : α} {Q : World → Except DmError α → Prop} (h : Q w (.ok a)) :
    Reading R allowed (Pure.pure a) w Q := Reading.ofExcept h

theorem Reading.ofExcept_bind {x : Except DmError α} {f : α → DmProgram β}
    {Q : World → Except DmError β → Prop} (herror : ∀ e, x = .error e → Q w (.error e))
    (hok : ∀ a, x = .ok a → Reading R allowed (f a) w Q) :
    Reading R allowed (Dm.ofExcept x >>= f) w Q := by
  cases x with
  | error e => exact Reading.ofExcept (x := .error e) (herror e rfl)
  | ok a => exact hok a rfl

/-! ### Single operations -/

variable (hR : ∀ op w ans w', R op w ans w' → Weather op w ans w')

include hR

theorem reading_call {op : DmOp} {answered : op.Answer → Except DmError α}
    {Q : World → Except DmError α → Prop} (hop : allowed op)
    (hfailed : ∀ ans, op.Failed ans → ∃ e, answered ans = .error (.store e))
    (h : ∀ w' nonce, w.clock.now ≤ w'.clock.now → w'.store = (op.exec w'.clock nonce w.store).2 →
      Reads w w' ∧ Q w' (answered (op.exec w'.clock nonce w.store).1)) :
    Reading R allowed (ExceptT.mk (.call op fun ans => .result (answered ans))) w Q := by
  intro tr r w' hexec
  obtain ⟨ans, w₁, tr', hcall, hr, rfl⟩ := Exec.call_iff.mp hexec
  obtain ⟨rfl, rfl, rfl⟩ := Exec.result_iff.mp hr
  refine ⟨List.forall_mem_singleton.mpr hop, ?_⟩
  obtain ⟨htime, ⟨hraised, hstore⟩ | ⟨nonce, hdone⟩⟩ := hR _ _ _ _ hcall
  · obtain ⟨e, he⟩ := hfailed ans hraised
    exact ⟨.of_store_eq htime hstore, Or.inl ⟨e, he, _, _, _, _, hcall, hraised⟩⟩
  · obtain ⟨rfl, hstore⟩ := Prod.mk.inj hdone
    obtain ⟨hreads, hQ⟩ := h w' nonce htime hstore.symm
    exact ⟨hreads, Or.inr hQ⟩

theorem reading_look (op : DmOp) {answered : op.Answer → Except DmError α} (hop : allowed op)
    (hfailed : ∀ ans, op.Failed ans → ∃ e, answered ans = .error (.store e))
    (hsame : ∀ clock nonce, (op.exec clock nonce w.store).2 = w.store) :
    Reading R allowed (ExceptT.mk (.call op fun ans => .result (answered ans))) w fun w' r =>
      w'.store = w.store ∧ ∃ nonce, r = answered (op.exec w'.clock nonce w.store).1 := by
  apply reading_call hR hop hfailed
  intro w' nonce htime hstore
  have hkept : w'.store = w.store := hstore.trans (hsame w'.clock nonce)
  exact ⟨.of_store_eq htime hkept, hkept, nonce, rfl⟩

theorem reading_lookup (kind : RecordKind α) (id : String) (hop : allowed (kind.read id))
    (hreads : ∀ w' : World, w.clock.now ≤ w'.clock.now →
      w'.store = (kind.get w.store id w'.clock).2 → Reads w w') :
    Reading R allowed (kind.lookup id) w fun w' r => w'.store = (kind.get w.store id w'.clock).2 ∧
      r = .ok (kind.records w'.store id) := by
  have hlookup : kind.lookup id = ExceptT.mk (.call (kind.read id) fun ans =>
      .result (((kind.answer id).symm ans).mapError DmError.store)) := kind.lookup_run id
  rw [hlookup]
  apply reading_call hR hop
  · intro ans hfailed
    obtain ⟨e, he⟩ := (kind.failed_iff id ((kind.answer id).symm ans)).mp
      (by rwa [Equiv.apply_symm_apply])
    exact ⟨e, by rw [he]; rfl⟩
  · intro w' nonce htime hstore
    rw [kind.exec_read] at hstore ⊢
    refine ⟨hreads w' htime hstore, hstore, ?_⟩
    rw [Equiv.symm_apply_apply, hstore, kind.records_get]
    rfl

theorem reading_getSubscriber (imsi : String) :
    Reading R DmOp.Open (Dm.getSubscriber imsi) w fun w' r =>
      w'.store = w.store ∧ r = .ok (w.store.subscribers imsi) := by
  refine (reading_look hR (.getSubscriber imsi) trivial ?_ fun _ _ => rfl).mono ?_
  · rintro _ ⟨e, rfl⟩
    exact ⟨e, rfl⟩
  · rintro w' r - ⟨hstore, -, rfl⟩
    exact ⟨hstore, rfl⟩

theorem reading_getDevice (deviceId : String) :
    Reading R DmOp.IsRead (Dm.getDevice deviceId) w fun w' r =>
      w'.store = w.store ∧ r = .ok (w.store.devices deviceId) := by
  refine (reading_look hR (.getDevice deviceId) trivial ?_ fun _ _ => rfl).mono ?_
  · rintro _ ⟨e, rfl⟩
    exact ⟨e, rfl⟩
  · rintro w' r - ⟨hstore, -, rfl⟩
    exact ⟨hstore, rfl⟩

theorem reading_now :
    Reading R DmOp.Open Dm.now w fun w' r => w'.store = w.store ∧ r = .ok w'.clock := by
  refine (reading_look hR .now trivial (fun _ h => h.elim) fun _ _ => rfl).mono ?_
  rintro w' r - ⟨hstore, -, rfl⟩
  exact ⟨hstore, rfl⟩

theorem reading_makeNonce : Reading R DmOp.Open Dm.makeNonce w fun w' r =>
    w'.store = w.store ∧ ∃ nonce, r = .ok nonce := by
  refine (reading_look hR .makeNonce trivial (fun _ h => h.elim) fun _ _ => rfl).mono ?_
  rintro w' r - ⟨hstore, nonce, rfl⟩
  exact ⟨hstore, nonce, rfl⟩

theorem reading_getDmSession (id : String) :
    Reading R DmOp.Open (Dm.getDmSession id) w fun w' r =>
      w'.store.dmPending = w.store.dmPending ∧ r = .ok (w'.store.dmSessions id) ∧
        w'.store.dmSessions id = (w.store.getDmSession id w'.clock).1 := by
  apply (reading_lookup hR .sessions id trivial fun _ => .of_getDmSession).mono
  rintro w' r - ⟨hstore, rfl⟩
  have hrest := hstore.trans (getDmSession_rest w.store id w'.clock)
  refine ⟨by rw [hrest], rfl, ?_⟩
  rw [hstore]
  exact RecordKind.sessions.records_get w.store id w'.clock

theorem reading_getDmPending (id : String) :
    Reading R DmOp.IsRead (Dm.getDmPending id) w fun w' r =>
      w'.store.dmSessions = w.store.dmSessions ∧ r = .ok (w'.store.dmPending id) := by
  apply (reading_lookup hR .remainders id trivial fun _ => .of_getDmPending).mono
  rintro w' r - ⟨hstore, rfl⟩
  have hrest := hstore.trans (getDmPending_rest w.store id w'.clock)
  exact ⟨by rw [hrest], rfl⟩

/-! ### Handlers -/

variable (service : DmService) (message : SyncMlMessage) (session : DmSession) (encode : Encoder)

theorem reading_absorbDeviceValues :
    Reading R DmOp.IsRead (service.absorbDeviceValues message session) w fun w' r =>
      w'.store = w.store ∧ ∃ device, r = .ok device := by
  apply Reading.bind
  apply (reading_getDevice hR _).mono
  rintro w₁ r - ⟨hstore, rfl⟩
  refine ⟨_, rfl, ?_⟩
  cases w.store.devices (orText session.deviceId "unknown") with
  | some device =>
    apply Reading.bind
    apply (reading_now hR).isRead.mono
    rintro w₂ r - ⟨hstore₂, rfl⟩
    exact ⟨_, rfl, Reading.pure ⟨hstore₂.trans hstore, _, rfl⟩⟩
  | none =>
    apply Reading.bind
    apply (reading_now hR).isRead.mono
    rintro w₂ r - ⟨hstore₂, rfl⟩
    refine ⟨_, rfl, Reading.bind ?_⟩
    apply (reading_now hR).isRead.mono
    rintro w₃ r - ⟨hstore₃, rfl⟩
    exact ⟨_, rfl, Reading.pure ⟨hstore₃.trans (hstore₂.trans hstore), _, rfl⟩⟩

theorem reading_lookupPassword (username : String) :
    Reading R DmOp.Open (DmService.lookupPassword username) w fun w' r =>
      w'.store = w.store ∧ r = .ok (passwordOf w.store.subscribers username) := by
  unfold DmService.lookupPassword passwordOf
  split_ifs with hname
  · exact Reading.pure ⟨rfl, rfl⟩
  · apply Reading.bind
    apply (reading_getSubscriber hR username).mono
    rintro w₁ r - ⟨hstore, rfl⟩
    refine ⟨_, rfl, ?_⟩
    cases w.store.subscribers username with
    | none => exact Reading.pure ⟨hstore, rfl⟩
    | some s =>
      simp only [Option.bind_some]
      split_ifs
      · exact Reading.pure ⟨hstore, rfl⟩
      · exact Reading.pure ⟨hstore, rfl⟩

theorem reading_authenticate :
    Reading R DmOp.Open (service.authenticate message session) w fun w' r =>
      w'.store = w.store ∧ r = .ok (service.verdict message session w.store.subscribers) := by
  unfold DmService.authenticate DmService.verdict
  dsimp only
  split_ifs
  · exact Reading.pure ⟨rfl, rfl⟩
  · cases message.header.credentials.filter (·.type = authMd5) with
    | some c =>
      apply Reading.bind
      apply (reading_lookupPassword hR _).mono
      rintro w₁ r - ⟨hstore, rfl⟩
      exact ⟨_, rfl, Reading.pure ⟨hstore, rfl⟩⟩
    | none =>
      dsimp only
      cases Auth.basicUser service.crypto message.header.credentials with
      | none => exact Reading.pure ⟨rfl, rfl⟩
      | some username =>
        apply Reading.bind
        apply (reading_lookupPassword hR _).mono
        rintro w₁ r - ⟨hstore, rfl⟩
        exact ⟨_, rfl, Reading.pure ⟨hstore, rfl⟩⟩

theorem reading_handleInit (changes : DmChanges) :
    Reading R DmOp.IsRead (service.handleInit message session changes encode) w fun w' r =>
      w'.store = w.store ∧ ∃ device, r =
        if !(message.hasAlert alertClientInitiatedMgmt ||
            message.hasAlert alertServerInitiatedMgmt) then
          .ok ({ statusCode := 400, metric := "DmProtocolError"
                 detail := "first package must carry Alert 1200 or 1201" }, changes)
        else service.requestInventory message session changes encode device := by
  unfold DmService.handleInit
  split_ifs
  · exact Reading.pure ⟨rfl, { deviceId := "", lastSeenAt := 0 }, rfl⟩
  · apply Reading.bind
    apply (reading_absorbDeviceValues hR service message session).mono
    rintro w₁ r - ⟨hstore, device, rfl⟩
    exact ⟨device, rfl, Reading.ofExcept ⟨hstore, device, rfl⟩⟩

theorem reading_handleDevinfo (changes : DmChanges) :
    Reading R DmOp.IsRead (service.handleDevinfo message session changes encode) w fun w' r =>
      w'.store = w.store ∧ ∃ device, r = service.pushConfiguration message session changes encode
        device (ownSubscriber session w.store.subscribers) := by
  apply Reading.bind
  apply (reading_absorbDeviceValues hR service message session).mono
  rintro w₁ r - ⟨hstore, device, rfl⟩
  refine ⟨device, rfl, Reading.bind ?_⟩
  unfold DmService.subscriberOf ownSubscriber
  split_ifs
  · exact Reading.pure ⟨none, rfl, Reading.ofExcept ⟨hstore, device, rfl⟩⟩
  · apply (reading_getSubscriber hR session.imsi).isRead.mono
    rintro w₂ r - ⟨hstore₂, rfl⟩
    refine ⟨_, rfl, Reading.ofExcept ⟨hstore₂.trans hstore, device, ?_⟩⟩
    rw [hstore]

theorem reading_continuePackage (pending : DmPendingPackage) (changes : DmChanges) :
    Reading R DmOp.IsRead (service.continuePackage message session pending changes encode) w fun w' r =>
      w'.store = w.store ∧ ∃ device, r =
        if Package.maxMessagesPerPackage ≤ pending.messages then
          .ok ({ statusCode := 413, metric := "DmTooLarge", detail := "too_many_messages"
                 sessionFinished := true }, { changes with deleteSessionId := session.sessionId })
        else service.sendNext message session pending changes encode device := by
  unfold DmService.continuePackage
  split_ifs
  · exact Reading.pure ⟨rfl, { deviceId := "", lastSeenAt := 0 }, rfl⟩
  · apply Reading.bind
    apply (reading_absorbDeviceValues hR service message session).mono
    rintro w₁ r - ⟨hstore, device, rfl⟩
    exact ⟨device, rfl, Reading.ofExcept ⟨hstore, device, rfl⟩⟩

theorem reading_dispatch (pending : Option DmPendingPackage) (changes : DmChanges) :
    Reading R DmOp.IsRead (service.dispatch message session pending changes encode) w fun w' r =>
      w'.store = w.store ∧ ∃ device,
        r = service.answer message session encode pending changes w.store.subscribers device := by
  have hread : ∀ x : Except DmError (DmResponse × DmChanges),
      Reading R DmOp.IsRead (Dm.ofExcept x) w fun w' r =>
        w'.store = w.store ∧ ∃ _ : Device, r = x :=
    fun x => Reading.ofExcept ⟨rfl, { deviceId := "", lastSeenAt := 0 }, rfl⟩
  unfold DmService.dispatch DmService.answer
  by_cases habort : message.hasAlert alertSessionAbort = true
  · simp only [if_pos habort]
    exact hread _
  · by_cases hend : message.hasAlert alertEndOfSession = true
    · simp only [if_neg habort, if_pos hend]
      exact hread _
    · simp only [if_neg habort, if_neg hend]
      cases pending with
      | some p => exact reading_continuePackage hR service message session encode p changes
      | none =>
        by_cases hinit : session.phase = "init"
        · simp only [if_pos hinit]
          exact reading_handleInit hR service message session encode changes
        · by_cases hdevinfo : session.phase = "devinfo"
          · simp only [if_neg hinit, if_pos hdevinfo]
            exact reading_handleDevinfo hR service message session encode changes
          · simp only [if_neg hinit, if_neg hdevinfo]
            exact hread _

theorem reading_loadSession :
    Reading R DmOp.Open (service.loadSession message.header) w fun w' r =>
      w'.store.dmPending = w.store.dmPending ∧ ∃ clock : Clock,
        r = .ok (service.sessionFrom message
          (w'.store.dmSessions (service.keyOf message.header)) clock) ∧
        service.Loads message w (service.sessionFrom message
          (w'.store.dmSessions (service.keyOf message.header)) clock) := by
  apply Reading.bind
  apply (reading_getDmSession hR _).mono
  rintro w₁ r hreads ⟨hpending, rfl, hloaded⟩
  refine ⟨_, rfl, ?_⟩
  cases hfound : w₁.store.dmSessions (sessionKey (service.deviceIdFrom message.header.source)
      message.header.sessionId) with
  | some s =>
    refine Reading.pure ⟨hpending, w₁.clock, ?_, w₁.clock, w₁.clock, hreads.time, ?_⟩
    · rw [DmService.keyOf, hfound]
      rfl
    · rw [DmService.keyOf, ← hloaded]
  | none =>
    apply Reading.bind
    apply (reading_now hR).mono
    rintro w₂ r - ⟨hstore, rfl⟩
    refine ⟨_, rfl, Reading.pure ⟨by rw [hstore, hpending], w₂.clock, ?_,
      w₁.clock, w₂.clock, hreads.time, ?_⟩⟩
    · rw [hstore, DmService.keyOf, hfound]
      rfl
    · rw [hstore, DmService.keyOf, ← hloaded]

theorem reading_handleAuthenticated :
    Reading R DmOp.IsRead (service.handleAuthenticated message session encode) w fun w' r =>
      w'.store.dmSessions = w.store.dmSessions ∧ ∃ device, r =
        if Package.maxAcknowledgedCommands < (service.acks message).length then
          .ok ({ statusCode := 413, metric := "DmTooLarge", detail := "too_many_commands" }, {})
        else
          service.answer message session encode
            (DmService.currentRemainder session (w'.store.dmPending session.sessionId)).1
            (DmService.currentRemainder session (w'.store.dmPending session.sessionId)).2
            w.store.subscribers device := by
  unfold DmService.handleAuthenticated
  split_ifs
  · exact Reading.pure ⟨rfl, { deviceId := "", lastSeenAt := 0 }, rfl⟩
  · apply Reading.bind
    apply (reading_getDmPending hR session.sessionId).mono
    rintro w₁ r hreads ⟨hsessions, rfl⟩
    refine ⟨_, rfl, ?_⟩
    apply (reading_dispatch hR service message session encode
      (DmService.currentRemainder session (w₁.store.dmPending session.sessionId)).1
      (DmService.currentRemainder session (w₁.store.dmPending session.sessionId)).2).mono
    rintro w₂ r - ⟨hstore, device, rfl⟩
    refine ⟨by rw [hstore, hsessions], device, ?_⟩
    rw [hstore, hreads.subscribers]

theorem reading_handleMessage :
    Reading R (fun op => op.Open ∨ op.IsRead ∧ service.Authenticates message w)
      (service.handleMessage message encode) w fun w' r =>
        service.Handled message encode w w' r := by
  unfold DmService.handleMessage
  dsimp only
  split_ifs with hnumbered
  · exact Reading.pure (.unnumbered (by simpa using hnumbered))
  · apply Reading.bind
    apply ((reading_loadSession hR service message).allow fun _ => Or.inl).mono
    rintro w₁ r hreads ⟨hpending, clock, rfl, hloads⟩
    refine ⟨_, rfl, Reading.bind ?_⟩
    generalize hsession : service.sessionFrom message
      (w₁.store.dmSessions (service.keyOf message.header)) clock = session at hloads ⊢
    apply ((reading_authenticate hR service message session).allow fun _ => Or.inl).mono
    rintro w₂ r - ⟨hstore, rfl⟩
    refine ⟨_, rfl, ?_⟩
    -- time may have passed, but the subscribers are those that were there
    rw [hreads.subscribers]
    cases hverdict : service.verdict message session w.store.subscribers with
    | rejected reason keepOrFresh =>
      dsimp only
      split_ifs with hkeep
      · refine Reading.ofExcept (.rejected clock session reason _ keepOrFresh hloads ?_ hverdict
          (fun _ _ => rfl) ?_)
        · rw [hstore, hsession]
        · rw [hstore, hpending]
      · apply Reading.bind
        apply ((reading_makeNonce hR).allow fun _ => Or.inl).mono
        rintro w₃ r - ⟨hstore₃, nonce, rfl⟩
        refine ⟨nonce, rfl, Reading.ofExcept (.rejected clock session reason nonce keepOrFresh
          hloads ?_ hverdict (fun hk hne => absurd ⟨hk, hne⟩ hkeep) ?_)⟩
        · rw [hstore₃, hstore, hsession]
        · rw [hstore₃, hstore, hpending]
    | accepted username =>
      have hauthenticates : service.Authenticates message w := ⟨session, username, hloads, hverdict⟩
      apply Reading.ofExcept_bind
      -- a message whose number cannot be read fails the same way whatever the device
      · intro e he
        have herror : service.acceptedAnswer message session encode username
            (w₂.store.dmPending session.sessionId) w.store.subscribers
            { deviceId := "", lastSeenAt := 0 } = .error e := by
          unfold DmService.acceptedAnswer
          rw [he]
          rfl
        rw [← herror]
        refine .accepted clock session username _ hloads ?_ hverdict
        rw [hstore, hsession]
      · intro number hnumber
        apply ((reading_handleAuthenticated hR service message _ encode).allow
          fun _ h => Or.inr ⟨h, hauthenticates⟩).mono
        rintro w₃ r - ⟨hsessions, device, rfl⟩
        have hsession₃ : session = service.sessionFrom message
            (w₃.store.dmSessions (service.keyOf message.header)) clock := by
          rw [hsessions, hstore, hsession]
        have hanswer : service.Handled message encode w w₃ (service.acceptedAnswer message session
            encode username (w₃.store.dmPending session.sessionId) w.store.subscribers device) :=
          .accepted clock session username device hloads hsession₃ hverdict
        unfold DmService.acceptedAnswer at hanswer
        rw [hnumber] at hanswer
        rw [hstore, hreads.subscribers]
        exact hanswer

end Reading
end Acs.Omadm
