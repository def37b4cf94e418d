import Acs.Omadm.Isolation

/-! A message whose writes failed is answered, when it is sent again, as if none had. -/

namespace Acs.Omadm
open Interleave Package

/-! ### Sessions that are answered alike -/

/-- Two sessions that differ in what they have counted, and in when they expire. -/
structure Akin (session session' : DmSession) : Prop where
  eq : session' = { session with
    reportedFailures := session'.reportedFailures, expiresAt := session'.expiresAt }

def DmPendingPackage.progress (p : DmPendingPackage) : String × List (List String) × Int :=
  (p.phase, p.entries, p.messages)

section Akin
variable {session session' session'' : DmSession} {message : SyncMlMessage}

theorem Akin.trans (h : Akin session session') (h' : Akin session' session'') :
    Akin session session'' := by
  obtain ⟨h⟩ := h
  obtain ⟨h'⟩ := h'
  rw [h] at h'
  exact ⟨h'⟩

theorem Akin.symm (h : Akin session session') : Akin session' session := by
  obtain ⟨h⟩ := h
  rw [h]
  exact ⟨rfl⟩

theorem akin_counted : Akin session (DmService.counted message session) := by
  unfold DmService.counted
  split_ifs
  · exact ⟨rfl⟩
  · exact ⟨rfl⟩

theorem Akin.phase (h : Akin session session') : session'.phase = session.phase := by
  rw [h.eq]

theorem Akin.sessionId (h : Akin session session') : session'.sessionId = session.sessionId := by
  rw [h.eq]

theorem Akin.deviceId (h : Akin session session') : session'.deviceId = session.deviceId := by
  rw [h.eq]

theorem Akin.imsi (h : Akin session session') : session'.imsi = session.imsi := by
  rw [h.eq]

end Akin

namespace DmService
variable {service : DmService} {message : SyncMlMessage} {session session' : DmSession}
  {encode : Encoder} {queue : List Entry} {body : Bytes} {required : Nat}
  {header : String × Option (String × String)}

theorem headerStatus_akin (h : Akin session session') :
    service.headerStatus session' = service.headerStatus session := by
  rw [h.eq]
  rfl

theorem nextMessage_akin (h : Akin session session') :
    service.nextMessage message session' queue encode required (service.headerStatus session') =
      service.nextMessage message session queue encode required (service.headerStatus session) := by
  rw [headerStatus_akin h, nextMessage_congr h.deviceId]

theorem startPackage_akin {pending : Option DmPendingPackage} {remaining : Nat}
    (h : Akin session session')
    (hstart : service.startPackage message session queue encode = .ok (body, pending, remaining)) :
    ∃ pending', service.startPackage message session' queue encode = .ok (body, pending', remaining) ∧
      pending'.map DmPendingPackage.progress = pending.map DmPendingPackage.progress := by
  unfold startPackage at hstart ⊢
  rw [nextMessage_akin h]
  obtain ⟨⟨body', rest⟩, hnext, hstart⟩ := Except.bind_eq_ok.mp hstart
  rw [hnext]
  cases rest with
  | nil =>
    obtain ⟨rfl, hnone⟩ := Prod.mk.inj (Except.ok.inj hstart)
    obtain ⟨rfl, rfl⟩ := Prod.mk.inj hnone
    exact ⟨none, rfl, rfl⟩
  | cons e rest =>
    obtain ⟨entries, hentries, hstart⟩ := Except.bind_eq_ok.mp hstart
    obtain ⟨rfl, hsome⟩ := Prod.mk.inj (Except.ok.inj hstart)
    obtain ⟨rfl, rfl⟩ := Prod.mk.inj hsome
    refine ⟨some { sessionId := session'.sessionId, phase := session'.phase, entries
                   expiresAt := session'.expiresAt }, ?_, ?_⟩
    · show (Package.toStored (e :: rest) >>= fun entries => _) = _
      rw [hentries]
      rfl
    · rw [Option.map_some, Option.map_some, DmPendingPackage.progress, DmPendingPackage.progress,
        h.phase]

structure SameAnswer (a a' : DmResponse × DmChanges) : Prop where
  status : a'.1.statusCode = a.1.statusCode
  body : a'.1.body = a.1.body
  deleteSession : a'.2.deleteSessionId = a.2.deleteSessionId
  session : a'.2.session.map DmSession.phase = a.2.session.map DmSession.phase
  pending : a'.2.pending.map DmPendingPackage.progress = a.2.pending.map DmPendingPackage.progress

section Answers
variable {drop drop' : String} {device device' : Device} {a : DmResponse × DmChanges}
  {subscribers : String → Option Subscriber}

theorem endSession_akin {metric detail : String} (h : Akin session session')
    (ha : service.endSession message session { deletePendingId := drop } encode metric detail =
      .ok a) :
    ∃ a', service.endSession message session' { deletePendingId := drop' } encode metric detail =
      .ok a' ∧ SameAnswer a a' := by
  unfold endSession lastMessage at ha ⊢
  dsimp only at ha ⊢
  rw [nextMessage_akin h]
  obtain ⟨body, hbody, ha⟩ := Except.bind_eq_ok.mp ha
  obtain rfl := Except.ok.inj ha
  rw [hbody]
  exact ⟨_, rfl, rfl, rfl, h.sessionId, rfl, rfl⟩

theorem requestInventory_akin (h : Akin session session')
    (ha : service.requestInventory message session { deletePendingId := drop } encode device =
      .ok a) :
    ∃ a', service.requestInventory message session' { deletePendingId := drop' } encode device' =
      .ok a' ∧ SameAnswer a a' := by
  have hphase : Akin { session with phase := "devinfo" } { session' with phase := "devinfo" } := by
    rw [h.eq]
    exact ⟨rfl⟩
  obtain ⟨⟨body, pending, remaining⟩, hstart, ha⟩ := Except.bind_eq_ok.mp ha
  obtain rfl := Except.ok.inj ha
  obtain ⟨pending', hstart', hpending⟩ := startPackage_akin hphase hstart
  unfold requestInventory
  dsimp only
  rw [hstart']
  exact ⟨_, rfl, rfl, rfl, rfl, rfl, hpending⟩

theorem pushConfiguration_akin (h : Akin session session')
    (ha : service.pushConfiguration message session { deletePendingId := drop } encode device
      (ownSubscriber session subscribers) = .ok a) :
    ∃ a', service.pushConfiguration message session' { deletePendingId := drop' } encode device'
      (ownSubscriber session' subscribers) = .ok a' ∧ SameAnswer a a' := by
  have hphase : Akin { session with phase := "configure" }
      { session' with phase := "configure" } := by
    rw [h.eq]
    exact ⟨rfl⟩
  have hsubscriber : ownSubscriber session' subscribers = ownSubscriber session subscribers := by
    rw [ownSubscriber, h.imsi]
    rfl
  have hvalues : service.configurationValues session' (ownSubscriber session subscribers) =
      service.configurationValues session (ownSubscriber session subscribers) := by
    unfold configurationValues
    rw [h.imsi, h.deviceId]
  unfold pushConfiguration at ha ⊢
  rw [hsubscriber, hvalues]
  obtain ⟨values, hrendered, ha⟩ := Except.bind_eq_ok.mp ha
  obtain ⟨⟨body, pending, remaining⟩, hstart, ha⟩ := Except.bind_eq_ok.mp ha
  obtain rfl := Except.ok.inj ha
  obtain ⟨pending', hstart', hpending⟩ := startPackage_akin hphase hstart
  rw [hrendered]
  show ∃ a', (service.startPackage _ _ _ _ >>= fun _ => _) = .ok a' ∧ _
  rw [hstart']
  exact ⟨_, rfl, rfl, rfl, rfl, rfl, hpending⟩

theorem handleFinish_akin (h : Akin session session')
    (ha : service.handleFinish message session { deletePendingId := drop } encode = .ok a) :
    ∃ a', service.handleFinish message session' { deletePendingId := drop' } encode = .ok a' ∧
      SameAnswer a a' := by
  have hphase : Akin { recordFailures message session with phase := "done" }
      { recordFailures message session' with phase := "done" } := by
    rw [h.eq]
    exact ⟨rfl⟩
  obtain ⟨⟨body, pending, remaining⟩, hstart, ha⟩ := Except.bind_eq_ok.mp ha
  obtain ⟨pending', hstart', hpending⟩ := startPackage_akin hphase hstart
  unfold handleFinish
  dsimp only at ha ⊢
  rw [hstart']
  show ∃ a', (if remaining ≠ 0 then _ else _ : Except DmError _) = .ok a' ∧ _
  split_ifs at ha ⊢ with hremaining
  · obtain rfl := Except.ok.inj ha
    exact ⟨_, rfl, rfl, rfl, rfl, rfl, hpending⟩
  · obtain rfl := Except.ok.inj ha
    exact ⟨_, rfl, rfl, rfl, h.sessionId, rfl, hpending⟩

theorem sendNext_akin {p : DmPendingPackage} (h : Akin session session')
    (ha : service.sendNext message session p { deletePendingId := drop } encode device = .ok a) :
    ∃ a', service.sendNext message session' p { deletePendingId := drop' } encode device' = .ok a' ∧
      SameAnswer a a' := by
  have hcounted : Akin (counted message session) (counted message session') :=
    (akin_counted.symm.trans h).trans akin_counted
  obtain ⟨outcome, changes⟩ := a
  obtain ⟨unsent, body, rest, hunsent, hnext, hcases⟩ := sendNext_ok ha
  have hnext' : service.nextMessage message (counted message session')
      (service.acks message ++ unsent) encode ((service.acks message).length + 1)
      (service.headerStatus (counted message session')) = .ok (body, rest) :=
    (nextMessage_akin hcounted).trans hnext
  have hphase : (counted message session').phase = session.phase := counted_phase.trans h.phase
  rcases hcases with ⟨rfl, hdone, heq⟩ | ⟨rfl, hdone, rfl, rfl⟩ | ⟨hrest, rfl, entries, hentries, rfl⟩
  · obtain ⟨rfl, rfl⟩ := Prod.mk.inj heq
    refine ⟨_, Except.bind_eq_ok.mpr ⟨unsent, hunsent, Except.bind_eq_ok.mpr ⟨_, hnext',
      if_pos (hphase.trans hdone)⟩⟩, rfl, rfl, hcounted.sessionId, rfl, rfl⟩
  · refine ⟨_, Except.bind_eq_ok.mpr ⟨unsent, hunsent, Except.bind_eq_ok.mpr ⟨_, hnext',
      if_neg fun h => hdone (hphase.symm.trans h)⟩⟩, rfl, rfl, rfl, congrArg some hcounted.phase, rfl⟩
  · cases rest with
    | nil => exact absurd rfl hrest
    | cons e rest =>
      exact ⟨_, Except.bind_eq_ok.mpr ⟨unsent, hunsent, Except.bind_eq_ok.mpr ⟨_, hnext',
        Except.bind_eq_ok.mpr ⟨entries, hentries, rfl⟩⟩⟩, rfl, rfl, rfl,
        congrArg some hcounted.phase, rfl⟩

theorem answer_akin {p p' : Option DmPendingPackage} (h : Akin session session')
    (hp : Ongoing message → p' = p)
    (ha : service.answer message session encode p { deletePendingId := drop } subscribers device =
      .ok a) :
    ∃ a', service.answer message session' encode p' { deletePendingId := drop' } subscribers
      device' = .ok a' ∧ SameAnswer a a' := by
  unfold answer at ha ⊢
  by_cases habort : message.hasAlert alertSessionAbort = true
  · rw [if_pos habort] at ha ⊢
    exact endSession_akin h ha
  · by_cases hend : message.hasAlert alertEndOfSession = true
    · rw [if_neg habort, if_pos hend] at ha ⊢
      exact endSession_akin h ha
    · rw [if_neg habort, if_neg hend] at ha ⊢
      obtain rfl := hp ⟨by simpa using habort, by simpa using hend⟩
      cases p' with
      | some p =>
        dsimp only at ha ⊢
        split_ifs at ha ⊢
        · obtain rfl := Except.ok.inj ha
          exact ⟨_, rfl, rfl, rfl, h.sessionId, rfl, rfl⟩
        · exact sendNext_akin h ha
      | none =>
        dsimp only at ha ⊢
        rw [h.phase]
        split_ifs at ha ⊢
        · obtain rfl := Except.ok.inj ha
          exact ⟨_, rfl, rfl, rfl, rfl, rfl, rfl⟩
        · exact requestInventory_akin h ha
        · exact pushConfiguration_akin h ha
        · exact handleFinish_akin h ha

end Answers

section Opens
variable {subscribers : String → Option Subscriber} {found : Option DmSession} {u : String}

theorem verdict_again (hnonce : session'.nonce = session.nonce)
    (himsi : session'.imsi = orText u session.imsi)
    (h : service.verdict message session subscribers = .accepted u) :
    service.verdict message session' subscribers = .accepted u := by
  unfold verdict at h ⊢
  dsimp only at h ⊢
  split_ifs at h ⊢
  · exact h
  · split at h
    · have hname : orText message.header.sourceName session'.imsi =
          orText message.header.sourceName session.imsi := by
        have hu := (authenticateMd5_accepted h).1
        rw [himsi, hu]
        unfold orText
        split_ifs <;> rfl
      rw [hname, hnonce]
      exact h
    · exact h

theorem orText_orText (a b : String) : orText a (orText a b) = orText a b := by
  by_cases ha : a = ""
  · subst ha
    rfl
  · simp only [orText, if_pos ha]

theorem opensAs_akin (h : service.OpensAs message subscribers found u session)
    (h' : service.Opens message subscribers found session') : Akin session session' := by
  obtain ⟨clock, number, hverdict, hnumber, rfl⟩ := h
  obtain ⟨clock', u', number', hverdict', hnumber', rfl⟩ := h'
  obtain rfl := Except.ok.inj (hnumber.symm.trans hnumber')
  rw [verdict_sessionFrom clock' clock, hverdict] at hverdict'
  obtain rfl := Auth.Verdict.accepted.inj hverdict'
  cases found with
  | none => exact ⟨rfl⟩
  | some s => exact ⟨rfl⟩

theorem opens_stored (h : service.OpensAs message subscribers found u session)
    (hakin : Akin session session') :
    service.Accepts message subscribers (some session') ∧
      ∀ session'', service.Opens message subscribers (some session') session'' →
        Akin session session'' := by
  obtain ⟨clock, number, hverdict, hnumber, hsession⟩ := h
  have himsi : session'.imsi = orText u (service.sessionFrom message found clock).imsi := by
    rw [hakin.imsi, hsession]
    rfl
  have hnonce : session'.nonce = (service.sessionFrom message found clock).nonce := by
    rw [hakin.eq, hsession]
    rfl
  have hagain : service.verdict message (service.openSession message.header session') subscribers =
      .accepted u := verdict_again hnonce himsi hverdict
  refine ⟨⟨clock, u, hagain⟩, ?_⟩
  rintro session'' ⟨clock', u', number', hverdict', hnumber', rfl⟩
  obtain rfl := Except.ok.inj (hnumber.symm.trans hnumber')
  obtain rfl := Auth.Verdict.accepted.inj (hagain.symm.trans hverdict')
  have hopened : acceptedSession (service.openSession message.header session') u number =
      session' := by
    rw [hakin.eq, hsession]
    simp only [acceptedSession, sessionFrom, openSession, orText_orText]
  rw [show service.sessionFrom message (some session') clock' =
    service.openSession message.header session' from rfl, hopened]
  exact hakin

end Opens

theorem handled_accepted {w w' : World} {r : Except DmError (DmResponse × DmChanges)} {number : Int}
    (h : service.Handled message encode w w' r) (hnumbered : message.header.Numbered)
    (haccepts : service.Accepts message w.store.subscribers
      (w'.store.dmSessions (service.keyOf message.header)))
    (hkeyed : ∀ s ∈ w'.store.dmSessions (service.keyOf message.header),
      s.sessionId = service.keyOf message.header)
    (hnumber : service.msgNumber message.header.msgId 0 = .ok number)
    (hfew : (service.acks message).length ≤ maxAcknowledgedCommands) :
    ∃ session device, service.Opens message w.store.subscribers
        (w'.store.dmSessions (service.keyOf message.header)) session ∧
      session.sessionId = service.keyOf message.header ∧
      r = service.answer message session encode
        (currentRemainder session (w'.store.dmPending (service.keyOf message.header))).1
        (currentRemainder session (w'.store.dmPending (service.keyOf message.header))).2
        w.store.subscribers device := by
  obtain ⟨clock', username', haccepts⟩ := haccepts
  cases h with
  | unnumbered hempty => exact absurd hempty (not_or.mpr hnumbered)
  | rejected clock session reason nonce keepOrFresh _ hsession hverdict =>
    subst hsession
    rw [verdict_sessionFrom clock clock', haccepts] at hverdict
    cases hverdict
  | accepted clock session username device _ hsession hverdict =>
    have hopens : service.Opens message w.store.subscribers
        (w'.store.dmSessions (service.keyOf message.header))
        (acceptedSession session username number) :=
      ⟨clock, username, number, hsession ▸ hverdict, hnumber, hsession ▸ rfl⟩
    have hid : session.sessionId = service.keyOf message.header := hopens.sessionId hkeyed
    refine ⟨_, device, hopens, hid, ?_⟩
    unfold acceptedAnswer
    rw [hnumber, ← hid]
    exact if_neg (Nat.not_lt.mpr hfew)

theorem fair_answer {binary : Bool} {w w' : World} {tr : List (Event DmOp.Answer)}
    {r : Except DmError DmResponse} {number : Int}
    (h : Exec Fair (service.respond message binary encode).run w tr r w')
    (hnumbered : message.header.Numbered) (hown : Own (service.keyOf message.header) w)
    (haccepts : service.Accepts message w.store.subscribers
      (w.store.dmSessions (service.keyOf message.header)))
    (hunexpired : Unexpired (service.keyOf message.header) w w'.clock)
    (hnumber : service.msgNumber message.header.msgId 0 = .ok number)
    (hfew : (service.acks message).length ≤ maxAcknowledgedCommands) :
    ∃ session device, service.Opens message w.store.subscribers
        (w.store.dmSessions (service.keyOf message.header)) session ∧
      session.sessionId = service.keyOf message.header ∧
      (∀ response, r = .ok response → response.statusCode = 200 → ∃ a,
        service.answer message session encode
          (currentRemainder session (w.store.dmPending (service.keyOf message.header))).1
          (currentRemainder session (w.store.dmPending (service.keyOf message.header))).2
          w.store.subscribers device = .ok a) ∧
      ∀ a, service.answer message session encode
          (currentRemainder session (w.store.dmPending (service.keyOf message.header))).1
          (currentRemainder session (w.store.dmPending (service.keyOf message.header))).2
          w.store.subscribers device = .ok a →
        r = .ok (sent binary a.1) ∧ (a.1.statusCode = 200 →
          w'.store.dmSessions (service.keyOf message.header) = a.2.session ∧
          w'.store.dmPending (service.keyOf message.header) = a.2.pending) := by
  have hresponded := exec_respond weather_of_fair h
  cases hresponded with
  | raised _ _ _ _ hraised =>
    obtain ⟨e, -, hfaults⟩ := hraised
    exact absurd hfaults not_faults_fair
  | refused _ e _ _ hreads hhandled hsome hnone =>
    -- an exception was answered: then that is what the handler came to
    have hsame := undisturbed_of_reads hreads (Int.le_refl _) hunexpired
    rw [← hsame.1] at haccepts
    obtain ⟨session, device, hopens, hid, hr⟩ := handled_accepted hhandled hnumbered haccepts
      (hown.reads hreads).session hnumber hfew
    rw [hsame.1] at hopens
    rw [hsame.2] at hr
    refine ⟨session, device, hopens, hid, fun response hresponse h200 => ?_, fun a ha => ?_⟩
    · exact absurd h200 (refusal_status (refusal_of_ok hsome hnone hresponse))
    · rw [ha] at hr
      cases hr
  | answered w₁ tr tr' outcome changes done rest result _ hreads hhandled hwrites hcommitted =>
    rcases hcommitted.result with ⟨rfl, rfl⟩ | ⟨-, e, -, hfaults⟩
    -- the answer was sent, and all of its writes were performed
    · have hsame := undisturbed_of_reads hreads hcommitted.time hunexpired
      rw [← hsame.1] at haccepts
      obtain ⟨session, device, hopens, hid, hr⟩ := handled_accepted hhandled hnumbered haccepts
        (hown.reads hreads).session hnumber hfew
      have hanswers := answer_answers hr.symm
      have habout := answers_about hid (hown.reads hreads).pending hanswers
      rw [hsame.1] at hopens
      refine ⟨session, device, hopens, hid, fun _ _ _ => ?_, fun a ha => ?_⟩
      · rw [← hsame.2]
        exact ⟨_, hr.symm⟩
      · rw [← hsame.2, ← hr] at ha
        obtain rfl := Except.ok.inj ha
        refine ⟨rfl, fun h200 => ?_⟩
        have hne : session.sessionId ≠ "" := hid ▸ sessionKey_ne_empty _ _
        have hstore : w'.store = written changes.writes w₁.store := by
          rw [hcommitted.store, hwrites, List.append_nil]
        rw [hstore, (habout.written_writes _).1, (habout.written_writes _).2]
        exact after_answers _ hne h200 hanswers
    · exact absurd hfaults not_faults_fair

end DmService

/-! ### A message that has to be sent again -/

/-- An authenticated message that is handled while no call of the store fails and no record of its
session expires, and answered 200. -/
structure Served (service : DmService) (key : String) (t : Turn) : Prop where
  read : service.read t.payload t.contentType = .ok (t.message, t.binary, t.encode)
  exec : ∃ tr, Exec Fair (service.handle t.payload t.contentType).run t.before tr
    (.ok t.response) t.after
  answered : t.response.statusCode = 200
  keyed : service.keyOf t.message.header = key
  accepted : service.Accepts t.message t.before.store.subscribers (t.before.store.dmSessions key)
  unexpired : Unexpired key t.before t.after.clock

/-- Neither the records under the key nor the subscribers change. -/
def Calm (key : String) (w w' : World) : Prop :=
  Undisturbed key w w' ∧ w'.store.subscribers = w.store.subscribers

/-- The message is sent again and again, and each time a call of the store raises. -/
def Fails (service : DmService) (key : String) (t : Turn) : World → List Attempt → Prop
  | _, [] => True
  | w, a :: as => Calm key w a.before ∧ Attempted service key a ∧ a.payload = t.payload ∧
    a.contentType = t.contentType ∧ (∃ e, a.result = .error (.store e)) ∧
    Unexpired key a.before a.after.clock ∧ Fails service key t a.after as

def worldAfter (w : World) (as : List Attempt) : World := (as.getLast?.map Attempt.after).getD w

/-- The answer and the records are as they would be if nothing had failed. -/
structure AsServed (key : String) (t : Turn) (response : DmResponse) (w : World) : Prop where
  status : response.statusCode = 200
  body : response.body = t.response.body
  phase : (w.store.dmSessions key).map DmSession.phase =
    (t.after.store.dmSessions key).map DmSession.phase
  progress : (w.store.dmPending key).map DmPendingPackage.progress =
    (t.after.store.dmPending key).map DmPendingPackage.progress

def ClosesSplit (key : String) (t : Turn) : Prop :=
  (∃ s p, t.before.store.dmSessions key = some s ∧ s.phase = "done" ∧
    t.before.store.dmPending key = some p ∧ p.phase = "done") ∧
  t.response.metric ∈ ["DmSessionComplete", "DmSessionCompleteWithErrors"]

/-- A final package starts in a session that has already come to its last phase, and does not fit
into one message. -/
def Restarts (service : DmService) (key : String) (t : Turn) : Prop :=
  DmService.Ongoing t.message ∧
  (∃ s, t.before.store.dmSessions key = some s ∧ s.phase = "done") ∧
  (∀ p ∈ t.before.store.dmPending key, p.phase ≠ "done") ∧
  ∃ session body rest, service.Opens t.message t.before.store.subscribers
      (t.before.store.dmSessions key) session ∧
    service.nextMessage t.message session (service.acks t.message) t.encode
      (min 1 (service.acks t.message).length) (service.headerStatus session) = .ok (body, rest) ∧
    rest ≠ []

/-- Handling the message anew would come to the same. -/
structure Poised (service : DmService) (key : String) (t : Turn) (session : DmSession) (w : World) :
    Prop where
  own : Own key w
  subscribers : w.store.subscribers = t.before.store.subscribers
  accepts : service.Accepts t.message t.before.store.subscribers (w.store.dmSessions key)
  opens : ∀ session', service.Opens t.message t.before.store.subscribers (w.store.dmSessions key)
    session' → Akin session session'
  remainder : DmService.Ongoing t.message →
    (DmService.currentRemainder session (w.store.dmPending key)).1 =
      (DmService.currentRemainder session (t.before.store.dmPending key)).1

section Poised
variable {service : DmService} {key : String} {t : Turn} {session : DmSession} {w w' : World}

theorem Poised.calm (h : Poised service key t session w) (hcalm : Calm key w w') :
    Poised service key t session w' := by
  obtain ⟨⟨hsessions, hpending⟩, hsubscribers⟩ := hcalm
  refine ⟨⟨?_, ?_⟩, hsubscribers.trans h.subscribers, ?_, ?_, ?_⟩
  · rw [hsessions]
    exact h.own.session
  · rw [hpending]
    exact h.own.pending
  · rw [hsessions]
    exact h.accepts
  · rw [hsessions]
    exact h.opens
  · rw [hpending]
    exact h.remainder

theorem written_subscribers (ws : List DmWrite) (m : MemoryStore) :
    (written ws m).subscribers = m.subscribers := by
  induction ws generalizing m with
  | nil => rfl
  | cons write ws ih =>
    rw [written_cons, ih]
    cases write <;> rfl

theorem currentRemainder_congr {session' : DmSession} (hphase : session'.phase = session.phase)
    (stored : Option DmPendingPackage) :
    (DmService.currentRemainder session' stored).1 =
      (DmService.currentRemainder session stored).1 := by
  unfold DmService.currentRemainder
  cases stored with
  | none => rfl
  | some p =>
    dsimp only
    rw [hphase]
    split_ifs <;> rfl

theorem currentRemainder_none {stored : Option DmPendingPackage}
    (h : ∀ p ∈ stored, p.phase ≠ session.phase) :
    (DmService.currentRemainder session stored).1 = none := by
  cases stored with
  | none => rfl
  | some p =>
    unfold DmService.currentRemainder
    dsimp only
    rw [if_pos (h p rfl)]

theorem DmService.Starts.phase {message : SyncMlMessage} {session' : DmSession} {encode : Encoder}
    {queue rest : List Entry} {body : Bytes} {pending : Option DmPendingPackage}
    {p : DmPendingPackage}
    (h : DmService.Starts service message session' encode queue rest body pending)
    (hp : pending = some p) : rest ≠ [] ∧ p.phase = session'.phase := by
  have hrest : rest ≠ [] := fun hnil => by
    rw [h.none_of_nil hnil] at hp
    cases hp
  obtain ⟨entries, -, hpending⟩ := h.some_of_cons hrest
  exact ⟨hrest, Option.some.inj (hpending.symm.trans hp) ▸ rfl⟩

theorem currentRemainder_ne {stored : Option DmPendingPackage}
    (h : (DmService.currentRemainder session stored).1 = none) :
    ∀ p ∈ stored, p.phase ≠ session.phase := by
  intro p hp hphase
  rw [Option.mem_def.mp hp, DmService.currentRemainder_of_phase hphase] at h
  cases h

end Poised

namespace DmService

theorem written_session_of_last {key : String} {c : DmChanges} {done rest : List DmWrite}
    (hprogress : c.progressInRemainder = false) (hone : c.session = none ∨ c.deleteSessionId = "")
    (hwrites : c.writes = done ++ rest) (hrest : rest ≠ []) (m : MemoryStore) :
    (written done m).dmSessions key = m.dmSessions key := by
  have hall : c.writes =
      ((c.device.map DmWrite.putDevice).toList ++ c.saveRemainder) ++ c.saveSession := by
    simp [DmChanges.writes, hprogress]
  have hfront : ∀ write ∈ done,
      write ∈ (c.device.map DmWrite.putDevice).toList ++ c.saveRemainder := by
    have hsave : c.saveSession = [] ∨ ∃ last, c.saveSession = [last] := by
      unfold DmChanges.saveSession
      rcases hone with hnone | hempty
      · rw [hnone]
        by_cases hdelete : c.deleteSessionId = ""
        · exact Or.inl (by simp [hdelete])
        · exact Or.inr ⟨.deleteDmSession c.deleteSessionId, by simp [hdelete]⟩
      · cases hsession : c.session with
        | none => exact Or.inl (by simp [hempty])
        | some s => exact Or.inr ⟨.putDmSession s, by simp [hempty]⟩
    rcases hsave with hnil | ⟨last, hlast⟩
    · rw [hnil, List.append_nil] at hall
      intro write hwrite
      rw [← hall, hwrites]
      exact List.mem_append_left rest hwrite
    · rw [hlast] at hall
      exact mem_front (hwrites.symm.trans hall) hrest
  rcases @written_session key done m with hsame | ⟨hmem, -⟩ | ⟨s, hmem, -, -⟩
  · exact hsame
  · exact absurd (hfront _ hmem) (by simp [mem_saveRemainder_iff])
  · exact absurd (hfront _ hmem) (by simp [mem_saveRemainder_iff])

theorem found_of_done {service : DmService} {message : SyncMlMessage}
    {subscribers : String → Option Subscriber} {found : Option DmSession} {u : String}
    {session : DmSession} (hopens : service.OpensAs message subscribers found u session)
    (hdone : session.phase = "done") : ∃ s, found = some s ∧ s.phase = "done" := by
  have hfound := hopens.phase
  cases found with
  | none =>
    rw [hdone] at hfound
    exact absurd (show "done" = "init" from hfound) (by decide)
  | some s =>
    rw [hdone] at hfound
    exact ⟨s, rfl, hfound.symm⟩

/-- An attempt at the message whose writes stopped before `rest`, from records that stood as
before. -/
structure Stopped (service : DmService) (key : String) (t : Turn) (b : Attempt)
    (session session' : DmSession) (w : World) (outcome : DmResponse) (changes : DmChanges)
    (done rest : List DmWrite) : Prop where
  poised : Poised service key t session b.before
  own : Own key b.after
  subscribers : b.after.store.subscribers = t.before.store.subscribers
  commits : b.Commits key w outcome changes done rest
  same : Undisturbed key b.before w
  unwritten : rest ≠ []
  akin : Akin session session'

section Stopped
variable {service : DmService} {key : String} {t : Turn} {b : Attempt} {session session' : DmSession}
  {w : World} {outcome : DmResponse} {changes base : DmChanges} {done rest : List DmWrite}
  {device : Device} (h : Stopped service key t b session session' w outcome changes done rest)
include h

theorem Stopped.kept (hsessions : b.after.store.dmSessions key = b.before.store.dmSessions key)
    (hremainder : Ongoing t.message → (currentRemainder session (b.after.store.dmPending key)).1 =
      (currentRemainder session (t.before.store.dmPending key)).1) :
    Poised service key t session b.after := by
  refine ⟨h.own, h.subscribers, ?_, ?_, hremainder⟩
  · rw [hsessions]
    exact h.poised.accepts
  · rw [hsessions]
    exact h.poised.opens

theorem Stopped.session_kept (hprogress : changes.progressInRemainder = false)
    (hone : changes.session = none ∨ changes.deleteSessionId = "") :
    b.after.store.dmSessions key = b.before.store.dmSessions key := by
  rw [h.commits.store, written_session_of_last hprogress hone h.commits.writes h.unwritten,
    h.same.1]

theorem Stopped.starting
    (hnone : (currentRemainder session' (b.before.store.dmPending key)).1 = none)
    (hongoing : Ongoing t.message) (hnew : ∀ p, changes.pending = some p → p.phase ≠ session.phase)
    (hprogress : changes.progressInRemainder = false)
    (hone : changes.session = none ∨ changes.deleteSessionId = "") :
    Poised service key t session b.after := by
  rw [currentRemainder_congr h.akin.phase] at hnone
  refine h.kept (h.session_kept hprogress hone) fun _ => ?_
  rw [← h.poised.remainder hongoing, hnone]
  refine currentRemainder_none fun p hp => ?_
  rcases pending_of_commits h.commits p hp with hp | ⟨-, hp⟩
  · rw [h.same.2] at hp
    exact currentRemainder_ne hnone p hp
  · exact hnew p hp

theorem Stopped.inventory (hbase : base = { deletePendingId := base.deletePendingId })
    (hnone : (currentRemainder session' (b.before.store.dmPending key)).1 = none)
    (hongoing : Ongoing t.message) (hphase : session'.phase = "init")
    (hrequest : service.requestInventory t.message session' base t.encode device =
      .ok (outcome, changes)) : Poised service key t session b.after := by
  obtain ⟨rest', body, pending, hstarts, rfl, rfl⟩ := requestInventory_ok hrequest
  refine h.starting hnone hongoing (fun p hp => ?_) (by rw [hbase]) (Or.inr (by rw [hbase]))
  rw [(hstarts.phase hp).2, ← h.akin.phase, hphase]
  show "devinfo" ≠ _
  decide

theorem Stopped.configuration (hbase : base = { deletePendingId := base.deletePendingId })
    (hnone : (currentRemainder session' (b.before.store.dmPending key)).1 = none)
    (hongoing : Ongoing t.message) (hphase : session'.phase = "devinfo")
    {subscriber : Option Subscriber}
    (hpush : service.pushConfiguration t.message session' base t.encode device subscriber =
      .ok (outcome, changes)) : Poised service key t session b.after := by
  obtain ⟨values, rest', body, pending, hvalues, hstarts, rfl, rfl⟩ := pushConfiguration_ok hpush
  refine h.starting hnone hongoing (fun p hp => ?_) (by rw [hbase]) (Or.inr (by rw [hbase]))
  rw [(hstarts.phase hp).2, ← h.akin.phase, hphase]
  show "configure" ≠ _
  decide

/-- A final package that is split leaves a remainder of its phase, which the session must not have
come to already. -/
theorem Stopped.finish {u : String}
    (hopens : service.OpensAs t.message t.before.store.subscribers (t.before.store.dmSessions key) u
      session)
    (hrestarts : ¬ Restarts service key t) (hbase : base = { deletePendingId := base.deletePendingId })
    (hnone : (currentRemainder session' (b.before.store.dmPending key)).1 = none)
    (hongoing : Ongoing t.message)
    (hfinish : service.handleFinish t.message session' base t.encode = .ok (outcome, changes)) :
    Poised service key t session b.after := by
  obtain ⟨rest', body, pending, hstarts, hcases⟩ := handleFinish_ok hfinish
  have hnew : ∀ p, pending = some p → p.phase ≠ session.phase := by
    intro p hp hphase
    obtain ⟨hsplit, hdone⟩ := hstarts.phase hp
    have hdone : session.phase = "done" := hphase.symm.trans hdone
    refine hrestarts ⟨hongoing, found_of_done hopens hdone, ?_, session, body, rest',
      opens_iff.mpr ⟨u, hopens⟩, ?_, hsplit⟩
    · rw [currentRemainder_congr h.akin.phase, h.poised.remainder hongoing] at hnone
      exact hdone ▸ currentRemainder_ne hnone
    · rw [← nextMessage_akin h.akin]
      exact hstarts.next
  rcases hcases with ⟨-, rfl, rfl⟩ | ⟨hnil, hclose⟩
  · exact h.starting hnone hongoing hnew (by rw [hbase]) (Or.inr (by rw [hbase]))
  · obtain ⟨rfl, rfl⟩ := Prod.mk.inj hclose
    exact h.starting hnone hongoing hnew (by rw [hbase]) (Or.inl (by rw [hbase]))

theorem Stopped.continued {u : String} {p : DmPendingPackage}
    (hopens : service.OpensAs t.message t.before.store.subscribers (t.before.store.dmSessions key) u
      session)
    (hne : session'.sessionId ≠ "") (hstays : changes.deleteSessionId = "")
    (hsend : service.sendNext t.message session' p {} t.encode device = .ok (outcome, changes)) :
    Poised service key t session b.after := by
  have hpending : b.after.store.dmPending key = b.before.store.dmPending key := by
    rw [h.commits.store, written_pending_of_continued hsend hne hstays h.commits.writes h.unwritten,
      h.same.2]
  have hremainder : Ongoing t.message →
      (currentRemainder session (b.after.store.dmPending key)).1 =
        (currentRemainder session (t.before.store.dmPending key)).1 := by
    rw [hpending]
    exact h.poised.remainder
  rcases @written_session key done w.store with hsame | ⟨hmem, -⟩ | ⟨s, hmem, -, hsome⟩
  · exact h.kept (by rw [h.commits.store, hsame, h.same.1]) hremainder
  · obtain ⟨hdelete, -⟩ :=
      deleteDmSession_mem_writes (h.commits.writes ▸ List.mem_append_left rest hmem)
    exact absurd hstays hdelete
  · have hput := putDmSession_mem_writes (h.commits.writes ▸ List.mem_append_left rest hmem)
    have hs : s = counted t.message session' := by
      obtain ⟨unsent, body, rest', -, -, hcases⟩ := sendNext_ok hsend
      rcases hcases with ⟨-, -, hclose⟩ | ⟨-, -, -, rfl⟩ | ⟨-, -, entries, -, rfl⟩
      · obtain ⟨-, rfl⟩ := Prod.mk.inj hclose
        cases hput
      · exact (Option.some.inj hput).symm
      · exact (Option.some.inj hput).symm
    obtain ⟨haccepts, hopened⟩ :=
      opens_stored hopens (hs ▸ h.akin.trans akin_counted : Akin session s)
    have hafter : b.after.store.dmSessions key = some s := by
      rw [h.commits.store]
      exact hsome
    refine ⟨h.own, h.subscribers, ?_, ?_, hremainder⟩
    · rw [hafter]
      exact haccepts
    · rw [hafter]
      exact hopened

end Stopped

section Failed
variable {service : DmService} {key u : String} {t : Turn} {session : DmSession} {device : Device}
  {a : DmResponse × DmChanges} {b : Attempt} {number : Int}
  (hopens : service.OpensAs t.message t.before.store.subscribers (t.before.store.dmSessions key) u
    session)
  (hanswer : service.answer t.message session t.encode
    (DmService.currentRemainder session (t.before.store.dmPending key)).1
    (DmService.currentRemainder session (t.before.store.dmPending key)).2
    t.before.store.subscribers device = .ok a)
  (h200 : a.1.statusCode = 200) (hmetric : a.1.metric = t.response.metric)
  (hcloses : ¬ ClosesSplit key t) (hrestarts : ¬ Restarts service key t)
include hopens hanswer h200 hmetric hcloses

theorem served_continued (hongoing : Ongoing t.message) {session' : DmSession}
    (hakin : Akin session session') {p : DmPendingPackage}
    (hsome : (currentRemainder session (t.before.store.dmPending key)).1 = some p) :
    p.messages < maxMessagesPerPackage ∧ ∀ device' outcome changes,
      service.sendNext t.message session' p {} t.encode device' = .ok (outcome, changes) →
      changes.deleteSessionId = "" := by
  obtain ⟨hp, hpphase, hnothing⟩ := currentRemainder_some hsome
  obtain ⟨served, left⟩ := a
  have hanswers := answer_answers hanswer
  rw [hsome, hnothing] at hanswers
  cases hanswers with
  | ended _ _ _ hends => exact absurd hongoing hends
  | tooManyMessages => exact absurd (show 413 = 200 from h200) (by decide)
  | noAlert _ hnone => cases hnone
  | inventory _ _ _ hnone => cases hnone
  | configuration _ _ _ hnone => cases hnone
  | finish _ _ _ hnone => cases hnone
  | continued p' _ _ _ hp' hfew hsend =>
    obtain rfl := Option.some.inj hp'
    refine ⟨hfew, fun device' outcome changes hsend' => ?_⟩
    obtain ⟨a', ha', hsame⟩ := @sendNext_akin _ _ _ _ _ _ "" _ device' _ _ hakin hsend
    obtain rfl := Except.ok.inj (ha'.symm.trans hsend')
    rw [hsame.deleteSession]
    obtain ⟨unsent, body, rest, -, -, hcases⟩ := sendNext_ok hsend
    rcases hcases with ⟨-, hdone, heq⟩ | ⟨-, -, -, rfl⟩ | ⟨-, -, entries, -, rfl⟩
    · obtain ⟨rfl, rfl⟩ := Prod.mk.inj heq
      refine absurd ⟨?_, ?_⟩ hcloses
      · obtain ⟨s, hs, hphase⟩ := found_of_done hopens hdone
        exact ⟨s, _, hs, hphase, hp, hpphase.trans hdone⟩
      · rw [← hmetric]
        show (if _ then _ else _) ∈ _
        split_ifs <;> simp
    · rfl
    · rfl

include hrestarts

/-- An attempt at which a call of the store raises leaves the message to be handled anew. -/
theorem poised_failed (hpoised : Poised service key t session b.before)
    (hattempted : Attempted service key b) (hmessage : b.message = t.message)
    (hencode : b.encode = t.encode) (hraised : ∃ e, b.result = .error (.store e))
    (hunexpired : Unexpired key b.before b.after.clock) :
    Poised service key t session b.after := by
  have hown := own_attempted hattempted hpoised.own
  cases DmService.attempted_course hattempted hpoised.own with
  | idle _ hreads _ =>
    exact hpoised.calm ⟨undisturbed_of_reads hreads (Int.le_refl _) hunexpired, hreads.subscribers⟩
  | rejected w clock reason nonce keepOrFresh outcome done rest hverdict _ hcommits =>
    have hsame := undisturbed_of_reads hcommits.reads hcommits.time hunexpired
    obtain ⟨clock', username, haccepts⟩ := hpoised.accepts
    rw [hsame.1, hmessage, hpoised.subscribers, DmService.verdict_sessionFrom clock clock',
      haccepts] at hverdict
    cases hverdict
  | accepted w session' device' outcome changes done rest hnumbered hopens' hid' hanswers habout
      hcommits =>
    have hsame := undisturbed_of_reads hcommits.reads hcommits.time hunexpired
    have hrest : rest ≠ [] := by
      rcases hcommits.result with ⟨-, hr⟩ | ⟨hrest, -⟩
      · obtain ⟨e, he⟩ := hraised
        cases hr.symm.trans he
      · exact hrest
    rw [hsame.1, hmessage, hpoised.subscribers] at hopens'
    rw [hsame.2, hmessage, hencode, hpoised.subscribers] at hanswers
    have hakin := hpoised.opens session' hopens'
    have hne : session'.sessionId ≠ "" := by
      rw [hid', ← hattempted.keyed]
      exact sessionKey_ne_empty _ _
    have hstopped : Stopped service key t b session session' w outcome changes done rest :=
      { poised := hpoised, own := hown, commits := hcommits, same := hsame, unwritten := hrest
        akin := hakin
        subscribers := by
          rw [hcommits.store, written_subscribers, hcommits.reads.subscribers, hpoised.subscribers] }
    have hbase := currentRemainder_changes session' (b.before.store.dmPending key)
    -- a remainder that is gone on with is not the last of a session that was served
    have hcontinued : ∀ p, Ongoing t.message →
        (currentRemainder session' (b.before.store.dmPending key)).1 = some p →
        p.messages < maxMessagesPerPackage ∧ ∀ device' outcome changes,
          service.sendNext t.message session' p {} t.encode device' = .ok (outcome, changes) →
          changes.deleteSessionId = "" := by
      intro p hongoing hsome
      rw [currentRemainder_congr hakin.phase, hpoised.remainder hongoing] at hsome
      exact served_continued hopens hanswer h200 hmetric hcloses hongoing hakin hsome
    cases hanswers with
    | ended _ _ _ hends =>
      exact hstopped.kept (hstopped.session_kept (by rw [hbase]) (Or.inl (by rw [hbase])))
        fun hongoing => absurd hongoing hends
    | tooManyMessages p hongoing hsome hmany =>
      exact absurd (hcontinued p hongoing hsome).1 (Int.not_lt.mpr hmany)
    | noAlert hongoing hnone =>
      exact hstopped.starting hnone hongoing (fun p hp => by rw [hbase] at hp; cases hp)
        (by rw [hbase]) (Or.inl (by rw [hbase]))
    | inventory _ _ hongoing hnone hphase hrequest =>
      exact hstopped.inventory hbase hnone hongoing hphase hrequest
    | configuration _ _ hongoing hnone hphase hpush =>
      exact hstopped.configuration hbase hnone hongoing hphase hpush
    | finish _ _ hongoing hnone hinit hdevinfo hfinish =>
      exact hstopped.finish hopens hrestarts hbase hnone hongoing hfinish
    | continued p _ _ hongoing hsome _ hsend =>
      obtain ⟨-, -, hnothing⟩ := currentRemainder_some hsome
      rw [hnothing] at hsend
      exact hstopped.continued hopens hne ((hcontinued p hongoing hsome).2 _ _ _ hsend) hsend

theorem poised_fails {w : World} {as : List Attempt} (hread : service.read t.payload t.contentType =
      .ok (t.message, t.binary, t.encode)) (hpoised : Poised service key t session w)
    (h : Fails service key t w as) : Poised service key t session (worldAfter w as) := by
  induction as generalizing w with
  | nil => exact hpoised
  | cons b as ih =>
    obtain ⟨hcalm, hattempted, hpayload, htype, hraised, hunexpired, hrest⟩ := h
    have hread' := hattempted.read
    rw [hpayload, htype, hread] at hread'
    obtain ⟨hmessage, hencoding⟩ := Prod.mk.inj (Except.ok.inj hread')
    have hafter := poised_failed hopens hanswer h200 hmetric hcloses hrestarts (hpoised.calm hcalm)
      hattempted hmessage.symm (Prod.mk.inj hencoding).2.symm hraised hunexpired
    have hlast : worldAfter w (b :: as) = worldAfter b.after as := by
      cases as with
      | nil => rfl
      | cons c as =>
        rw [worldAfter, worldAfter, List.getLast?_cons_cons,
          List.getLast?_eq_some_getLast (List.cons_ne_nil c as)]
        rfl
    rw [hlast]
    exact ih hafter hrest

end Failed

theorem served_numbered {service : DmService} {key : String} {t : Turn}
    (h : Served service key t) : t.message.header.Numbered ∧
      (∃ number, service.msgNumber t.message.header.msgId 0 = .ok number) ∧
      (service.acks t.message).length ≤ maxAcknowledgedCommands := by
  obtain ⟨hread, ⟨tr, hexec⟩, h200, hkey, ⟨clock', username', haccepts⟩, hunexpired⟩ := h
  subst hkey
  rw [show service.handle t.payload t.contentType = service.respond t.message t.binary t.encode from
    by rw [handle, hread]] at hexec
  have hnumbered := numbered_of_exec hexec h200
  refine ⟨hnumbered, ?_⟩
  obtain ⟨w₁, tr₁, tr₂, outcome, changes, -, hhandle, hcommitted, hsent⟩ :=
    exec_respond_answered weather_of_fair hexec h200
  obtain ⟨-, hreads, hhandled⟩ := handled_of_exec weather_of_fair hhandle
  have hsame := undisturbed_of_reads hreads hcommitted.time hunexpired
  rw [hsent, sent_statusCode] at h200
  generalize hanswer : Except.ok (outcome, changes) = answer at hhandled
  cases hhandled with
  | unnumbered hempty => exact absurd hempty (not_or.mpr hnumbered)
  | rejected clock session reason nonce keepOrFresh _ hsession hverdict =>
    rw [hsession, hsame.1, verdict_sessionFrom clock clock', haccepts] at hverdict
    cases hverdict
  | accepted clock session username device _ hsession hverdict =>
    obtain ⟨number, hnumber, hanswer⟩ := Except.bind_eq_ok.mp hanswer.symm
    refine ⟨⟨number, hnumber⟩, ?_⟩
    by_contra hmany
    rw [if_pos (Nat.lt_of_not_le hmany)] at hanswer
    obtain ⟨rfl, -⟩ := Prod.mk.inj (Except.ok.inj hanswer)
    cases h200

/-- A message at which the store fails, however often and wherever, is answered in the end as if it
never had, and leaves as much of its session and its remainder. -/
theorem retry_as_served {service : DmService} {key : String} {t : Turn} (hreached : Reached t.before)
    (hserved : Served service key t) (hcloses : ¬ ClosesSplit key t)
    (hrestarts : ¬ Restarts service key t) {as : List Attempt}
    (hfails : Fails service key t t.before as) {w w' : World} {tr : List (Event DmOp.Answer)}
    {r : Except DmError DmResponse} (hcalm : Calm key (worldAfter t.before as) w)
    (hexec : Exec Fair (service.handle t.payload t.contentType).run w tr r w')
    (hunexpired : Unexpired key w w'.clock) :
    ∃ response, r = .ok response ∧ AsServed key t response w' := by
  obtain ⟨hnumbered, ⟨number, hnumber⟩, hfew⟩ := served_numbered hserved
  have hkey := hserved.keyed
  have hown : Own key t.before := hreached.own
  have hrespond : service.handle t.payload t.contentType =
      service.respond t.message t.binary t.encode := by
    rw [handle, hserved.read]
  obtain ⟨tr₀, hexec₀⟩ := hserved.exec
  rw [hrespond] at hexec hexec₀
  subst hkey
  -- what the message would be answered if it were handled now
  obtain ⟨session, device, hopens, hid, hanswered, hall⟩ := fair_answer hexec₀ hnumbered hown
    hserved.accepted hserved.unexpired hnumber hfew
  obtain ⟨a, hanswer⟩ := hanswered _ rfl hserved.answered
  obtain ⟨hresponse, hrecords⟩ := hall a hanswer
  have hresponse := Except.ok.inj hresponse
  have h200 : a.1.statusCode = 200 := by
    rw [← sent_statusCode t.binary a.1, ← hresponse]
    exact hserved.answered
  obtain ⟨hsessions, hpending⟩ := hrecords h200
  obtain ⟨u, hopensAs⟩ := opens_iff.mp hopens
  -- the failed attempts leave it to be handled as well as it was before them
  have hpoised : Poised service (service.keyOf t.message.header) t session t.before :=
    ⟨hown, rfl, hserved.accepted, fun _ h => opensAs_akin hopensAs h, fun _ => rfl⟩
  have hmetric : a.1.metric = t.response.metric := by rw [hresponse, sent_metric]
  obtain ⟨hown', hsubscribers, haccepts, hopened, hremainder⟩ :=
    (poised_fails hopensAs hanswer h200 hmetric hcloses hrestarts hserved.read hpoised hfails).calm
      hcalm
  rw [← hsubscribers] at haccepts
  obtain ⟨session', device', hopens', hid', -, hall'⟩ := fair_answer hexec hnumbered hown' haccepts
    hunexpired hnumber hfew
  rw [hsubscribers] at hopens' hall'
  have hakin := hopened session' hopens'
  rw [currentRemainder_changes] at hanswer
  -- a session that is akin, with the same remainder, is answered alike
  have hsame : Ongoing t.message →
      (currentRemainder session' (w.store.dmPending (service.keyOf t.message.header))).1 =
        (currentRemainder session
          (t.before.store.dmPending (service.keyOf t.message.header))).1 := by
    intro hongoing
    rw [currentRemainder_congr hakin.phase, hremainder hongoing]
  obtain ⟨a', hanswer', hsameAnswer⟩ := @answer_akin _ _ _ _ _ _
    (currentRemainder session'
      (w.store.dmPending (service.keyOf t.message.header))).2.deletePendingId
    _ device' _ _ _ _ hakin hsame hanswer
  rw [← currentRemainder_changes] at hanswer'
  obtain ⟨rfl, hrecords'⟩ := hall' a' hanswer'
  have h200' : a'.1.statusCode = 200 := hsameAnswer.status.trans h200
  obtain ⟨hsessions', hpending'⟩ := hrecords' h200'
  refine ⟨_, rfl, ?_, ?_, ?_, ?_⟩
  · rw [sent_statusCode]
    exact h200'
  · rw [hresponse, sent_body, sent_body]
    exact hsameAnswer.body
  · rw [hsessions', hsessions]
    exact hsameAnswer.session
  · rw [hpending', hpending]
    exact hsameAnswer.pending

/-! ### A message that is set back once -/

def lasts (key : String) (w w' : World) : Bool :=
  (w.store.dmSessions key).all (fun s => !MemoryStore.lapsed s.expiresAt w'.clock) &&
    (w.store.dmPending key).all (fun p => !MemoryStore.lapsed p.expiresAt w'.clock)

theorem unexpired_of_lasts {key : String} {w w' : World} (h : lasts key w w' = true) :
    Unexpired key w w'.clock := by
  simp only [lasts, Bool.and_eq_true, Option.all_eq_true, Bool.not_eq_true'] at h
  exact ⟨fun s hs => by simpa using h.1 s hs, fun p hp => by simpa using h.2 p hp⟩

def serves (service : DmService) (key : String) (payload : Bytes)
    (expected : World → DmResponse → Bool) (w : World) : Bool :=
  match service.read payload contentTypeXml, service.serve payload contentTypeXml w with
  | .ok (message, _, _), (.ok response, after) =>
    (match service.verdict message
        (service.sessionFrom message (w.store.dmSessions key) w.clock) w.store.subscribers with
      | .accepted _ => true
      | .rejected _ _ => false) &&
    service.keyOf message.header = key && response.statusCode = 200 && lasts key w after &&
      expected w response
  | _, _ => false

theorem served_of_serves {service : DmService} {key : String} {payload : Bytes}
    {expected : World → DmResponse → Bool} {w : World}
    (h : service.serves key payload expected w = true) :
    ∃ t, Served service key t ∧ t.before = w ∧ t.payload = payload ∧
      t.contentType = contentTypeXml ∧ expected w t.response = true := by
  unfold serves at h
  split at h
  · rename_i message binary encode response after hread hserve
    simp only [Bool.and_eq_true, decide_eq_true_eq] at h
    obtain ⟨⟨⟨⟨haccepted, hkey⟩, h200⟩, hlasts⟩, hexpected⟩ := h
    obtain ⟨tr, hexec⟩ := exec_serve service payload contentTypeXml w
    rw [hserve] at hexec
    have haccepts : service.Accepts message w.store.subscribers (w.store.dmSessions key) := by
      split at haccepted
      · exact ⟨w.clock, _, by assumption⟩
      · cases haccepted
    exact ⟨⟨w, payload, contentTypeXml, message, binary, encode, response, after⟩,
      ⟨hread, ⟨tr, hexec⟩, h200, hkey, haccepts, unexpired_of_lasts hlasts⟩, rfl, rfl, rfl, hexpected⟩
  · cases h

def setsBack (service : DmService) (key : String) (payload : Bytes)
    (expected : World → DmResponse → Bool) (w : World) (r : Except DmError DmResponse) (w' : World) :
    Bool :=
  service.serves key payload expected w && lasts key w w' &&
    match r with
    | .error (.store _) => true
    | _ => false

theorem fails_of_setsBack {service : DmService} {key : String} {payload : Bytes}
    {expected : World → DmResponse → Bool} {b : Attempt} (hattempted : Attempted service key b)
    (hpayload : b.payload = payload) (htype : b.contentType = contentTypeXml)
    (h : service.setsBack key payload expected b.before b.result b.after = true) :
    ∃ t, Served service key t ∧ t.before = b.before ∧ t.payload = payload ∧
      t.contentType = contentTypeXml ∧ expected b.before t.response = true ∧
      Fails service key t t.before [b] := by
  unfold setsBack at h
  rw [Bool.and_eq_true, Bool.and_eq_true] at h
  obtain ⟨⟨hserves, hlasts⟩, hraised⟩ := h
  obtain ⟨t, hserved, hbefore, hpayload', htype', hexpected⟩ := served_of_serves hserves
  refine ⟨t, hserved, hbefore, hpayload', htype', hexpected, ⟨⟨?_, ?_⟩, ?_⟩, hattempted,
    hpayload.trans hpayload'.symm, htype.trans htype'.symm, ?_, unexpired_of_lasts hlasts, trivial⟩
  · rw [hbefore]
  · rw [hbefore]
  · rw [hbefore]
  · split at hraised
    · exact ⟨_, by assumption⟩
    · cases hraised

def refuses (service : DmService) (key : String) (payload : Bytes) (w : World) : Bool :=
  match service.serve payload contentTypeXml w with
  | (.ok response, after) => response.statusCode ≠ 200 && lasts key w after
  | _ => false

end DmService

namespace Lab
open Xml Xml.Element

def repeats (msgId : String) : Element :=
  brief msgId (List.replicate 2 (alert alertClientInitiatedMgmt)) [atMost "800"]

def restarting : DmService := server [asks, ends, repeats "5", aborts, repeats "6"]

/-- The message that takes the configuration meets a fault at its last write. -/
def setBackRun : List DmService.Trial :=
  let begins (w : World) (_ : DmResponse) : Bool :=
    (w.store.dmSessions key).all fun s => s.phase = "devinfo"
  [{ payload := sent asks, expected := DmService.answers200 "DmInventoryRequested" "get:1" },
   { payload := sent ends, ahead := faultAfter 5
     expected w r w' := failing.setsBack key (sent ends) begins w r w' &&
       failing.serves key (sent ends) (fun _ _ => true) w' }]

/-- The last package is split, and deleted while its session is not. It starts again, and meets a
fault at its last write. -/
def restartedRun : List DmService.Trial :=
  let starts (w : World) (_ : DmResponse) : Bool := (w.store.dmPending key).isNone
  [{ payload := sent asks, expected := DmService.answers200 "DmInventoryRequested" "get:1" },
   { payload := sent ends
     expected := DmService.answers200 "DmConfigPushed" "add:1 replace:1" },
   { payload := sent (repeats "5")
     expected := DmService.answers200 "DmPackageContinued" "pending:1" },
   { payload := sent aborts, ahead := faultAfter 3, expected := DmService.raises },
   { payload := sent (repeats "6"), ahead := faultAfter 3
     expected w r w' := restarting.setsBack key (sent (repeats "6")) starts w r w' &&
       restarting.refuses key (sent (repeats "6")) w' }]

end Lab

/-- The message that takes the configuration is set back at its last write, and sent again. -/
theorem retry_as_served_once : ∃ t b response w', Served Lab.failing Lab.key t ∧
    Fails Lab.failing Lab.key t t.before [b] ∧ AsServed Lab.key t response w' := by
  have htries : Lab.failing.tries Lab.key Lab.world Lab.setBackRun = true := by
    decide +kernel
  obtain ⟨_, hrun, hstraight, hmeets⟩ := DmService.straight_of_tries htries
  obtain ⟨a, _, h₁, hmeets₁, rfl⟩ := List.forall₂_cons_right_iff.mp hmeets
  obtain ⟨b, _, h₂, hmeets₂, rfl⟩ := List.forall₂_cons_right_iff.mp hmeets₁
  obtain rfl := List.forall₂_nil_right_iff.mp hmeets₂
  obtain ⟨-, hattempted₁, -, hattempted₂, -⟩ := hrun
  obtain ⟨hbefore₁, hbefore₂, -⟩ := hstraight
  have hexpected := h₂.expected
  dsimp only at hexpected
  rw [Bool.and_eq_true] at hexpected
  obtain ⟨hsetsBack, hserves⟩ := hexpected
  obtain ⟨t, hserved, hbefore, hpayload, htype, hphase, hfails⟩ :=
    DmService.fails_of_setsBack hattempted₂ h₂.payload h₂.contentType hsetsBack
  obtain ⟨t', hserved', hbefore', hpayload', htype', -⟩ := DmService.served_of_serves hserves
  have hdevinfo : ∀ s, t.before.store.dmSessions Lab.key = some s → s.phase ≠ "done" := by
    intro s hs hdone
    rw [← hbefore, Option.all_eq_true] at hphase
    exact absurd (hdone.symm.trans (by simpa using hphase s hs)) (by decide)
  have hreached : Reached t.before := by
    rw [hbefore, hbefore₂]
    exact DmService.reached_attempted hattempted₁ (hbefore₁ ▸ .start rfl rfl)
  obtain ⟨tr, hexec⟩ := hserved'.exec
  rw [hpayload', htype', ← show t.payload = Lab.sent Lab.ends from hpayload, ← htype] at hexec
  obtain ⟨response, -, hanswered⟩ := DmService.retry_as_served hreached hserved
    (fun ⟨⟨s, _, hs, hdone, _⟩, _⟩ => hdevinfo s hs hdone)
    (fun ⟨_, ⟨s, hs, hdone⟩, _⟩ => hdevinfo s hs hdone) hfails
    (hbefore' ▸ ⟨⟨rfl, rfl⟩, rfl⟩ : Calm Lab.key (worldAfter t.before [b]) t'.before) hexec
    hserved'.unexpired
  exact ⟨t, b, response, t'.after, hserved, hfails, hanswered⟩

/-- A last package that starts again and is set back is taken for one to go on with, and the message
that was set back is refused. -/
theorem retry_refused : ∃ t b w w' tr response, Reached t.before ∧ Served Lab.restarting Lab.key t ∧
    ¬ ClosesSplit Lab.key t ∧ Fails Lab.restarting Lab.key t t.before [b] ∧
    Calm Lab.key (worldAfter t.before [b]) w ∧
    Exec Fair (Lab.restarting.handle t.payload t.contentType).run w tr (.ok response) w' ∧
    Unexpired Lab.key w w'.clock ∧ ¬ AsServed Lab.key t response w' := by
  have htries : Lab.restarting.tries Lab.key Lab.world Lab.restartedRun = true := by
    decide +kernel
  obtain ⟨_, hrun, hstraight, hmeets⟩ := DmService.straight_of_tries htries
  obtain ⟨a₁, _, h₁, hmeets₁, rfl⟩ := List.forall₂_cons_right_iff.mp hmeets
  obtain ⟨a₂, _, h₂, hmeets₂, rfl⟩ := List.forall₂_cons_right_iff.mp hmeets₁
  obtain ⟨a₃, _, h₃, hmeets₃, rfl⟩ := List.forall₂_cons_right_iff.mp hmeets₂
  obtain ⟨a₄, _, h₄, hmeets₄, rfl⟩ := List.forall₂_cons_right_iff.mp hmeets₃
  obtain ⟨b, _, h₅, hmeets₅, rfl⟩ := List.forall₂_cons_right_iff.mp hmeets₄
  obtain rfl := List.forall₂_nil_right_iff.mp hmeets₅
  obtain ⟨-, hattempted₁, -, hattempted₂, -, hattempted₃, -, hattempted₄, -, hattempted₅, -⟩ := hrun
  obtain ⟨hbefore₁, hbefore₂, hbefore₃, hbefore₄, hbefore₅, -⟩ := hstraight
  have hexpected := h₅.expected
  dsimp only at hexpected
  rw [Bool.and_eq_true] at hexpected
  obtain ⟨hsetsBack, hrefuses⟩ := hexpected
  obtain ⟨t, hserved, hbefore, hpayload, htype, hnone, hfails⟩ :=
    DmService.fails_of_setsBack hattempted₅ h₅.payload h₅.contentType hsetsBack
  have hreached : Reached t.before := by
    rw [hbefore, hbefore₅]
    refine DmService.reached_attempted hattempted₄ (hbefore₄ ▸ ?_)
    refine DmService.reached_attempted hattempted₃ (hbefore₃ ▸ ?_)
    refine DmService.reached_attempted hattempted₂ (hbefore₂ ▸ ?_)
    exact DmService.reached_attempted hattempted₁ (hbefore₁ ▸ .start rfl rfl)
  have hcloses : ¬ ClosesSplit Lab.key t := by
    rintro ⟨⟨_, p, -, -, hp, -⟩, -⟩
    rw [← hbefore, hp] at hnone
    cases hnone
  obtain ⟨tr, hexec⟩ := exec_serve Lab.restarting t.payload t.contentType b.after
  unfold DmService.refuses at hrefuses
  split at hrefuses
  · rename_i response after hserve
    rw [hpayload, htype] at hexec
    rw [Bool.and_eq_true, decide_eq_true_eq] at hrefuses
    rw [hserve, ← hpayload, ← htype] at hexec
    exact ⟨t, b, b.after, after, tr, response, hreached, hserved, hcloses, hfails, ⟨⟨rfl, rfl⟩, rfl⟩,
      hexec, DmService.unexpired_of_lasts hrefuses.2, fun h => hrefuses.1 h.status⟩
  · cases hrefuses

end Acs.Omadm
