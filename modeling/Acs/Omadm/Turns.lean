import Mathlib
import Acs.Omadm.SessionKeys

/-! What a message that is accepted and answered 200 leaves in the records of its session. -/

namespace Acs.Omadm
open Interleave

theorem sessionKey_ne_empty (deviceId wireSessionId : String) :
    sessionKey deviceId wireSessionId ≠ "" := by
  intro h
  have hlength := congrArg String.length h
  simp [sessionKey, String.length_append] at hlength

namespace DmChanges
variable (c : DmChanges)

def sessionAfter (stored : Option DmSession) : Option DmSession :=
  if c.deleteSessionId ≠ "" then none else c.session.or stored

def pendingAfter (stored : Option DmPendingPackage) : Option DmPendingPackage :=
  if c.deleteSessionId ≠ "" then none
  else c.pending.or (if c.deletePendingId ≠ "" then none else stored)

variable {c} {key : String} {Noted : Device → Prop}

theorem About.written_saveSession (hc : c.About key Noted) (m : MemoryStore) :
    (written c.saveSession m).dmSessions key = c.sessionAfter (m.dmSessions key) ∧
      (written c.saveSession m).dmPending = m.dmPending := by
  unfold saveSession sessionAfter
  cases hs : c.session with
  | none =>
    split_ifs with hdelete
    · rw [hc.deleteSession hdelete]
      exact ⟨Function.update_self .., rfl⟩
    · exact ⟨rfl, rfl⟩
  | some s =>
    have hkey : s.sessionId = key := hc.session s hs
    split_ifs with hdelete
    · rw [hc.deleteSession hdelete]
      exact ⟨Function.update_self .., rfl⟩
    · subst hkey
      exact ⟨Function.update_self .., rfl⟩

theorem About.written_saveRemainder (hc : c.About key Noted) (m : MemoryStore) :
    (written c.saveRemainder m).dmPending key = c.pendingAfter (m.dmPending key) ∧
      (written c.saveRemainder m).dmSessions = m.dmSessions := by
  have hdropped : ∀ m : MemoryStore, (written
      (if c.deletePendingId ≠ "" then [.deleteDmPending c.deletePendingId] else []) m).dmPending key =
        (if c.deletePendingId ≠ "" then none else m.dmPending key) ∧
      (written (if c.deletePendingId ≠ "" then [.deleteDmPending c.deletePendingId] else [])
        m).dmSessions = m.dmSessions := by
    intro m
    split_ifs with hdelete
    · rw [hc.deletePending hdelete]
      exact ⟨Function.update_self .., rfl⟩
    · exact ⟨rfl, rfl⟩
  have hput : ∀ m : MemoryStore,
      (written (c.pending.map DmWrite.putDmPending).toList m).dmPending key =
        c.pending.or (m.dmPending key) ∧
      (written (c.pending.map DmWrite.putDmPending).toList m).dmSessions = m.dmSessions := by
    intro m
    cases hp : c.pending with
    | none => exact ⟨rfl, rfl⟩
    | some p =>
      have hkey : p.sessionId = key := hc.pending p hp
      subst hkey
      exact ⟨Function.update_self .., rfl⟩
  obtain ⟨hpending, hsessions⟩ := hput (written
    (if c.deletePendingId ≠ "" then [.deleteDmPending c.deletePendingId] else []) m)
  rw [(hdropped m).1] at hpending
  rw [(hdropped m).2] at hsessions
  unfold saveRemainder pendingAfter
  rw [written_append, written_append]
  by_cases hdelete : c.deleteSessionId = ""
  · rw [if_neg (not_not.mpr hdelete), if_neg (not_not.mpr hdelete)]
    exact ⟨hpending, hsessions⟩
  · rw [if_pos hdelete, if_pos hdelete, hc.deleteSession hdelete]
    exact ⟨Function.update_self .., hsessions⟩

theorem About.written_writes (hc : c.About key Noted) (m : MemoryStore) :
    (written c.writes m).dmSessions key = c.sessionAfter (m.dmSessions key) ∧
      (written c.writes m).dmPending key = c.pendingAfter (m.dmPending key) := by
  have hdevice : (written (c.device.map DmWrite.putDevice).toList m).dmSessions = m.dmSessions ∧
      (written (c.device.map DmWrite.putDevice).toList m).dmPending = m.dmPending := by
    cases c.device <;> exact ⟨rfl, rfl⟩
  unfold DmChanges.writes
  rw [written_append]
  generalize written (c.device.map DmWrite.putDevice).toList m = m' at hdevice
  rw [← hdevice.1, ← hdevice.2]
  split_ifs
  · rw [written_append]
    obtain ⟨hsession, hkept⟩ := hc.written_saveSession m'
    obtain ⟨hpending, hkept'⟩ := hc.written_saveRemainder (written c.saveSession m')
    exact ⟨by rw [hkept', hsession], by rw [hpending, hkept]⟩
  · rw [written_append]
    obtain ⟨hpending, hkept⟩ := hc.written_saveRemainder m'
    obtain ⟨hsession, hkept'⟩ := hc.written_saveSession (written c.saveRemainder m')
    exact ⟨by rw [hsession, hkept], by rw [hkept', hpending]⟩

end DmChanges

namespace DmService
variable (service : DmService) (message : SyncMlMessage) (subscribers : String → Option Subscriber)
  (found : Option DmSession)

/-- The message authenticates in the session found under its key, or in a new one. -/
def Accepts : Prop :=
  ∃ clock username, service.verdict message (service.sessionFrom message found clock) subscribers =
    .accepted username

/-- The session that an accepted message is handled in. -/
def Opens (session : DmSession) : Prop :=
  ∃ clock username number,
    service.verdict message (service.sessionFrom message found clock) subscribers =
      .accepted username ∧
    service.msgNumber message.header.msgId 0 = .ok number ∧
    session = acceptedSession (service.sessionFrom message found clock) username number

variable {service message subscribers found} {session : DmSession}

theorem verdict_sessionFrom (clock clock' : Clock) :
    service.verdict message (service.sessionFrom message found clock) subscribers =
      service.verdict message (service.sessionFrom message found clock') subscribers := by
  cases found <;> rfl

theorem Opens.phase (h : service.Opens message subscribers found session) :
    session.phase = (found.map DmSession.phase).getD "init" := by
  obtain ⟨clock, username, number, -, -, rfl⟩ := h
  cases found <;> rfl

theorem Opens.reportedFailures (h : service.Opens message subscribers found session) :
    session.reportedFailures = (found.map DmSession.reportedFailures).getD 0 := by
  obtain ⟨clock, username, number, -, -, rfl⟩ := h
  cases found <;> rfl

theorem Opens.sessionId (h : service.Opens message subscribers found session)
    (hkeyed : ∀ s ∈ found, s.sessionId = service.keyOf message.header) :
    session.sessionId = service.keyOf message.header := by
  obtain ⟨clock, username, number, -, -, rfl⟩ := h
  cases found with
  | none => rfl
  | some s => exact hkeyed s rfl

theorem handled_answers {encode : Encoder} {w w' : World} {outcome : DmResponse}
    {changes : DmChanges} (h : service.Handled message encode w w' (.ok (outcome, changes)))
    (h200 : outcome.statusCode = 200)
    (haccepts : service.Accepts message w.store.subscribers
      (w'.store.dmSessions (service.keyOf message.header)))
    (hkeyed : ∀ s ∈ w'.store.dmSessions (service.keyOf message.header),
      s.sessionId = service.keyOf message.header) :
    ∃ session device, service.Opens message w.store.subscribers
        (w'.store.dmSessions (service.keyOf message.header)) session ∧
      Answers service message session encode
        (currentRemainder session (w'.store.dmPending (service.keyOf message.header))).1
        (currentRemainder session (w'.store.dmPending (service.keyOf message.header))).2
        w.store.subscribers device outcome changes := by
  obtain ⟨clock', username', haccepts⟩ := haccepts
  generalize hr : Except.ok (outcome, changes) = r at h
  cases h with
  | unnumbered =>
    obtain ⟨rfl, -⟩ := Prod.mk.inj (Except.ok.inj hr)
    cases h200
  | rejected clock session reason nonce keepOrFresh _ hsession hverdict =>
    subst hsession
    rw [verdict_sessionFrom clock clock', haccepts] at hverdict
    cases hverdict
  | accepted clock session username device _ hsession hverdict =>
    obtain ⟨number, hnumber, hr⟩ := Except.bind_eq_ok.mp hr.symm
    dsimp only at hr
    split_ifs at hr
    · obtain ⟨rfl, -⟩ := Prod.mk.inj (Except.ok.inj hr)
      cases h200
    · have hopens : service.Opens message w.store.subscribers
          (w'.store.dmSessions (service.keyOf message.header))
          (acceptedSession session username number) :=
        ⟨clock, username, number, hsession ▸ hverdict, hnumber, hsession ▸ rfl⟩
      have hanswers := answer_answers hr
      have hid : session.sessionId = service.keyOf message.header := hopens.sessionId hkeyed
      rw [hid] at hanswers
      exact ⟨_, device, hopens, hanswers⟩

theorem numbered_of_exec {R : Effect DmOp DmOp.Answer World} {binary : Bool} {encode : Encoder}
    {w w' : World} {tr : List (Event DmOp.Answer)} {response : DmResponse}
    (h : Exec R (service.respond message binary encode).run w tr (.ok response) w')
    (h200 : response.statusCode = 200) : message.header.Numbered := by
  by_contra hm
  have hnumbered : (message.header.sessionId = "" || message.header.msgId = "") = true := by
    unfold SyncHdr.Numbered at hm
    simpa [or_iff_not_imp_left] using hm
  unfold respond handleMessage at h
  dsimp only at h
  rw [if_pos hnumbered] at h
  obtain ⟨-, hr, -⟩ := Exec.result_iff.mp h
  obtain rfl := Except.ok.inj hr
  cases binary <;> cases h200

end DmService

/-! ### One request of a session -/

/-- A request and its answer, between two worlds. -/
structure Turn where
  before : World
  payload : Bytes
  contentType : String
  message : SyncMlMessage
  binary : Bool
  encode : Encoder
  response : DmResponse
  after : World

def Unexpired (key : String) (w : World) (clock : Clock) : Prop :=
  (∀ s ∈ w.store.dmSessions key, ¬ MemoryStore.lapsed s.expiresAt clock) ∧
    ∀ p ∈ w.store.dmPending key, ¬ MemoryStore.lapsed p.expiresAt clock

/-- The records under the key are the same. -/
def Undisturbed (key : String) (w w' : World) : Prop :=
  w'.store.dmSessions key = w.store.dmSessions key ∧ w'.store.dmPending key = w.store.dmPending key

/-- An authenticated message of the session under the key, handled while no call of the store fails
and no record of the session expires, and answered 200. It asks for no end of the session, and for
no more acknowledgements than a message may. -/
structure Exchanged (service : DmService) (key : String) (t : Turn) : Prop where
  read : service.read t.payload t.contentType = .ok (t.message, t.binary, t.encode)
  exec : ∃ tr, Exec Fair (service.handle t.payload t.contentType).run t.before tr
    (.ok t.response) t.after
  answered : t.response.statusCode = 200
  keyed : service.keyOf t.message.header = key
  accepted : service.Accepts t.message t.before.store.subscribers (t.before.store.dmSessions key)
  ongoing : DmService.Ongoing t.message
  few : (service.acks t.message).length ≤ Package.maxAcknowledgedCommands
  unexpired : Unexpired key t.before t.after.clock

/-- Requests of one session, one after another; in between its records are left alone. -/
def Conversation (service : DmService) (key : String) : World → List Turn → Prop
  | _, [] => True
  | w, t :: ts =>
    Undisturbed key w t.before ∧ Exchanged service key t ∧ Conversation service key t.after ts

theorem Reached.exec {α : Type} {p : Interleave.Program DmOp DmOp.Answer α}
    {R : Effect DmOp DmOp.Answer World} (hR : ∀ op w ans w', R op w ans w' → Weather op w ans w')
    {w w' : World} {tr : List (Event DmOp.Answer)} {a : α} (hw : Reached w)
    (h : Exec R p w tr a w') : Reached w' :=
  h.invariant (fun op w ans w' hop hw => hw.dm (hR op w ans w' hop)) hw

theorem weather_of_fair (op : DmOp) (w : World) (ans : op.Answer) (w' : World)
    (h : Fair op w ans w') : Weather op w ans w' := ⟨h.1, Or.inr h.2⟩

theorem undisturbed_of_reads {key : String} {w w' : World} {clock : Clock} (h : Reads w w')
    (hle : w'.clock.now ≤ clock.now) (hunexpired : Unexpired key w clock) : Undisturbed key w w' := by
  constructor
  · rcases h.sessions key with hsame | ⟨-, s, hs, hlapsed⟩
    · exact hsame
    · exact absurd (lapsed_mono hle hlapsed) (hunexpired.1 s hs)
  · rcases h.pending key with hsame | ⟨-, p, hp, hlapsed⟩
    · exact hsame
    · exact absurd (lapsed_mono hle hlapsed) (hunexpired.2 p hp)

def DmService.serve (service : DmService) (payload : Bytes) (contentType : String) (w : World) :
    Except DmError DmResponse × World :=
  (service.handle payload contentType).run.eval
    (fun op w => ((op.exec w.clock "" w.store).1, ⟨(op.exec w.clock "" w.store).2, w.clock⟩)) w

theorem exec_serve (service : DmService) (payload : Bytes) (contentType : String) (w : World) :
    ∃ tr, Exec Fair (service.handle payload contentType).run w tr
      (service.serve payload contentType w).1 (service.serve payload contentType w).2 :=
  Exec.of_eval id (fun _ _ => ⟨Int.le_refl _, "", rfl⟩) _ w

namespace DmService
variable {service : DmService} {key : String} {t : Turn}

structure Took (service : DmService) (key : String) (t : Turn) (session : DmSession)
    (outcome : DmResponse) (changes : DmChanges) (device : Device) : Prop where
  numbered : t.message.header.Numbered
  opens : service.Opens t.message t.before.store.subscribers (t.before.store.dmSessions key) session
  sessionId : session.sessionId = key
  answers : Answers service t.message session t.encode
    (currentRemainder session (t.before.store.dmPending key)).1
    (currentRemainder session (t.before.store.dmPending key)).2
    t.before.store.subscribers device outcome changes
  response : t.response = sent t.binary outcome
  status : outcome.statusCode = 200
  sessions : changes.About key (fun _ => True) →
    t.after.store.dmSessions key = changes.sessionAfter (t.before.store.dmSessions key)
  pending : changes.About key (fun _ => True) →
    t.after.store.dmPending key = changes.pendingAfter (t.before.store.dmPending key)

theorem exchanged_took (h : Exchanged service key t)
    (hkeyed : ∀ s ∈ t.before.store.dmSessions key, s.sessionId = key) :
    ∃ session outcome changes device, service.Took key t session outcome changes device := by
  obtain ⟨hread, ⟨tr, hexec⟩, h200, rfl, haccepts, -, -, hunexpired⟩ := h
  have hresponded : ∃ tr, Exec Fair (service.respond t.message t.binary t.encode).run t.before tr
      (.ok t.response) t.after := by
    unfold handle at hexec
    rw [hread] at hexec
    exact ⟨tr, hexec⟩
  clear hexec
  obtain ⟨tr, hexec⟩ := hresponded
  have hnumbered := numbered_of_exec hexec h200
  obtain ⟨w₁, tr₁, tr₂, outcome, changes, -, hhandle, hcommitted, hsent⟩ :=
    exec_respond_answered weather_of_fair hexec h200
  obtain ⟨-, hreads, hhandled⟩ := handled_of_exec weather_of_fair hhandle
  have hsame := undisturbed_of_reads hreads hcommitted.time hunexpired
  rw [hsent, sent_statusCode] at h200
  rw [← hsame.1] at haccepts hkeyed
  obtain ⟨session, device, hopens, hanswers⟩ := handled_answers hhandled h200 haccepts hkeyed
  have hid := hopens.sessionId hkeyed
  rw [hsame.1] at hopens
  rw [hsame.2] at hanswers
  refine ⟨session, outcome, changes, device, hnumbered, hopens, hid, hanswers,
    hsent, h200, fun habout => ?_, fun habout => ?_⟩
  · rw [hcommitted.store, (habout.written_writes _).1, hsame.1]
  · rw [hcommitted.store, (habout.written_writes _).2, hsame.2]

/-- A request, with what its answer is expected to be in the world in which it is made. -/
structure Expected where
  payload : Bytes
  contentType : String := contentTypeXml
  answer : World → DmResponse → Bool

def converses (service : DmService) (key : String) : World → List Expected → Bool
  | _, [] => true
  | w, request :: requests =>
    match service.read request.payload request.contentType,
      service.serve request.payload request.contentType w with
    | .ok (message, _, _), (.ok response, after) =>
      (match service.verdict message
          (service.sessionFrom message (w.store.dmSessions key) w.clock) w.store.subscribers with
        | .accepted _ => true
        | .rejected _ _ => false) &&
      service.keyOf message.header = key &&
      !message.hasAlert alertSessionAbort && !message.hasAlert alertEndOfSession &&
      (service.acks message).length ≤ Package.maxAcknowledgedCommands &&
      response.statusCode = 200 &&
      (w.store.dmSessions key).all (fun s => !MemoryStore.lapsed s.expiresAt after.clock) &&
      (w.store.dmPending key).all (fun p => !MemoryStore.lapsed p.expiresAt after.clock) &&
      request.answer w response && converses service key after requests
    | _, _ => false

def Successive : World → List Turn → Prop
  | _, [] => True
  | w, t :: ts => t.before = w ∧ Successive t.after ts

theorem conversation_of_converses {requests : List Expected} {w : World}
    (h : service.converses key w requests = true) :
    ∃ ts, Conversation service key w ts ∧ Successive w ts ∧
      List.Forall₂ (fun t r => r.answer t.before t.response = true) ts requests := by
  induction requests generalizing w with
  | nil => exact ⟨[], trivial, trivial, .nil⟩
  | cons request requests ih =>
    unfold converses at h
    split at h
    · rename_i message binary encode response after hread hserve
      simp only [Bool.and_eq_true, decide_eq_true_eq, Bool.not_eq_true', Option.all_eq_true] at h
      obtain ⟨⟨⟨⟨⟨⟨⟨⟨⟨haccepted, hkey⟩, habort⟩, hend⟩, hfew⟩, h200⟩, hsessions⟩, hpending⟩,
        hexpected⟩, hrest⟩ := h
      obtain ⟨tr, hexec⟩ := exec_serve service request.payload request.contentType w
      rw [hserve] at hexec
      obtain ⟨ts, hconversation, hsuccessive, hanswers⟩ := ih hrest
      have haccepts : service.Accepts message w.store.subscribers (w.store.dmSessions key) := by
        split at haccepted
        · exact ⟨w.clock, _, by assumption⟩
        · cases haccepted
      refine ⟨⟨w, request.payload, request.contentType, message, binary, encode, response, after⟩ :: ts,
        ⟨⟨rfl, rfl⟩, ⟨hread, ⟨tr, hexec⟩, h200, hkey, haccepts, ⟨habort, hend⟩, hfew, ?_, ?_⟩,
          hconversation⟩, ⟨rfl, hsuccessive⟩, .cons hexpected hanswers⟩
      · intro s hs
        simpa using hsessions s hs
      · intro p hp
        simpa using hpending p hp
    · cases h

end DmService
end Acs.Omadm
