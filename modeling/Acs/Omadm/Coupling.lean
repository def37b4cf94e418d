import Acs.Interleave.Coupling
import Acs.Omadm.Forecast
import Acs.Omadm.SessionSteps

/-! Two runs of one message side by side, up to the verdict on its credentials. -/

namespace Acs.Omadm
open Interleave

/-- A relation between sessions that the header and a rejection of a message respect, and that
shows in nothing but the phase and the failures. -/
structure Kinship (service : DmService) (K : DmSession → DmSession → Prop) : Prop where
  refl : ∀ s, K s s
  face : ∀ s t, K s t →
    t = { s with phase := t.phase, reportedFailures := t.reportedFailures }
  opened : ∀ s t header, K s t → K (service.openSession header s) (service.openSession header t)
  rejected : ∀ s t nonce, K s t →
    K { s with nonce, authenticated := false } { t with nonce, authenticated := false }

/-- Two futures at the same time and with the same draws, that agree in their sessions. -/
structure Alike (K : DmSession → DmSession → Prop) (subs subs' : String → Option Subscriber)
    (f f' : Forecast) : Prop where
  clock : f.world.clock = f'.world.clock
  ahead : f.ahead = f'.ahead
  subscribers : f.world.store.subscribers = subs
  subscribers' : f'.world.store.subscribers = subs'
  sessions : ∀ id, Option.Rel K (f.world.store.dmSessions id) (f'.world.store.dmSessions id)

theorem getDmSession_subscribers (m : MemoryStore) (id : String) (clock : Clock) :
    (m.getDmSession id clock).2.subscribers = m.subscribers := by
  rcases getDmSession_cases m id clock with ⟨-, h⟩ | ⟨-, h, -⟩
  · rw [h]
  · rw [h]
    rfl

section Coupled
variable {service : DmService} {K : DmSession → DmSession → Prop} (hK : Kinship service K)
  {subs subs' : String → Option Subscriber} {f f' : Forecast} (h : Alike K subs subs' f f')
include hK

theorem related_getDmSession {m m' : MemoryStore}
    (hsessions : ∀ id, Option.Rel K (m.dmSessions id) (m'.dmSessions id)) (id : String)
    (clock : Clock) :
    Option.Rel K (m.getDmSession id clock).1 (m'.getDmSession id clock).1 ∧
      ∀ key, Option.Rel K ((m.getDmSession id clock).2.dmSessions key)
        ((m'.getDmSession id clock).2.dmSessions key) := by
  have hid := hsessions id
  unfold MemoryStore.getDmSession
  generalize hm : m.dmSessions id = found at hid
  generalize hm' : m'.dmSessions id = found' at hid
  cases hid with
  | none => exact ⟨.none, hsessions⟩
  | @some s t hst =>
    have hexpires : t.expiresAt = s.expiresAt := by rw [hK.face s t hst]
    dsimp only
    rw [hexpires]
    split_ifs
    · refine ⟨.none, fun key => ?_⟩
      by_cases hkey : key = id
      · subst hkey
        simp only [MemoryStore.deleteDmSession_dmSessions, Function.update_self]
        exact .none
      · simp only [MemoryStore.deleteDmSession_dmSessions, Function.update_of_ne hkey]
        exact hsessions key
    · exact ⟨.some hst, hsessions⟩

omit hK
include h

theorem Alike.pass (store store' : MemoryStore)
    (hsubs : store.subscribers = subs) (hsubs' : store'.subscribers = subs')
    (hsessions : ∀ id, Option.Rel K (store.dmSessions id) (store'.dmSessions id)) :
    Alike K subs subs'
      ⟨⟨store, Clock.after f.world.clock (f.ahead.headD {}).elapsed⟩, f.ahead.tail⟩
      ⟨⟨store', Clock.after f'.world.clock (f'.ahead.headD {}).elapsed⟩, f'.ahead.tail⟩ := by
  constructor
  · rw [h.clock, h.ahead]
  · rw [h.ahead]
  · exact hsubs
  · exact hsubs'
  · exact hsessions

theorem coupled_getSubscriber (imsi : String) :
    Coupled DmOp.foresee (Alike K subs subs') (Dm.getSubscriber imsi).run
      (Dm.getSubscriber imsi).run f f' (Agreed fun a b => a = subs imsi ∧ b = subs' imsi) := by
  change Agreed _ ((DmOp.foresee (.getSubscriber imsi) f).1.mapError DmError.store)
      ((DmOp.foresee (.getSubscriber imsi) f').1.mapError DmError.store) ∧
    Alike K subs subs' (DmOp.foresee (.getSubscriber imsi) f).2
      (DmOp.foresee (.getSubscriber imsi) f').2
  have hpass := h.pass _ _ h.subscribers h.subscribers' h.sessions
  cases hfault : (f.ahead.headD {}).fault with
  | none =>
    rw [foresee_calm hfault, foresee_calm (h.ahead ▸ hfault)]
    exact ⟨.ok ⟨by rw [h.subscribers], by rw [h.subscribers']⟩, hpass⟩
  | some e =>
    rw [foresee_fault hfault rfl, foresee_fault (h.ahead ▸ hfault) rfl]
    exact ⟨.error _, hpass⟩

include hK in
theorem coupled_getDmSession (id : String) :
    Coupled DmOp.foresee (Alike K subs subs') (Dm.getDmSession id).run (Dm.getDmSession id).run
      f f' (Agreed fun a b => Option.Rel K a b ∧
        ∃ clock, f.world.clock.now ≤ clock.now ∧ a = (f.world.store.getDmSession id clock).1 ∧
          b = (f'.world.store.getDmSession id clock).1) := by
  change Agreed _ ((DmOp.foresee (.getDmSession id) f).1.mapError DmError.store)
      ((DmOp.foresee (.getDmSession id) f').1.mapError DmError.store) ∧
    Alike K subs subs' (DmOp.foresee (.getDmSession id) f).2 (DmOp.foresee (.getDmSession id) f').2
  cases hfault : (f.ahead.headD {}).fault with
  | none =>
    have hclock : Clock.after f'.world.clock (f'.ahead.headD {}).elapsed =
        Clock.after f.world.clock (f.ahead.headD {}).elapsed := by rw [h.clock, h.ahead]
    have hread := related_getDmSession hK h.sessions id
      (Clock.after f.world.clock (f.ahead.headD {}).elapsed)
    have hpass := h.pass (f.world.store.getDmSession id
        (Clock.after f.world.clock (f.ahead.headD {}).elapsed)).2
      (f'.world.store.getDmSession id
        (Clock.after f'.world.clock (f'.ahead.headD {}).elapsed)).2
      (by rw [getDmSession_subscribers, h.subscribers])
      (by rw [getDmSession_subscribers, h.subscribers'])
      (by rw [hclock]; exact hread.2)
    rw [foresee_calm hfault, foresee_calm (h.ahead ▸ hfault)]
    refine ⟨.ok ⟨?_, Clock.after f.world.clock (f.ahead.headD {}).elapsed, ?_, rfl, ?_⟩, hpass⟩
    · rw [hclock]
      exact hread.1
    · exact Clock.le_after
    · rw [hclock]
  | some e =>
    rw [foresee_fault hfault rfl, foresee_fault (h.ahead ▸ hfault) rfl]
    exact ⟨.error _, h.pass _ _ h.subscribers h.subscribers' h.sessions⟩

theorem coupled_now :
    Coupled DmOp.foresee (Alike K subs subs') Dm.now.run Dm.now.run f f'
      (Agreed fun a b => a = b) := by
  change Agreed _ (Except.ok (DmOp.foresee .now f).1) (Except.ok (DmOp.foresee .now f').1) ∧
    Alike K subs subs' (DmOp.foresee .now f).2 (DmOp.foresee .now f').2
  rw [foresee_sure fun _ => rfl, foresee_sure fun _ => rfl]
  refine ⟨.ok ?_, h.pass _ _ h.subscribers h.subscribers' h.sessions⟩
  change Clock.after _ _ = Clock.after _ _
  rw [h.clock, h.ahead]

theorem coupled_makeNonce :
    Coupled DmOp.foresee (Alike K subs subs') Dm.makeNonce.run Dm.makeNonce.run f f'
      (Agreed fun a b => a = b) := by
  change Agreed _ (Except.ok (DmOp.foresee .makeNonce f).1)
      (Except.ok (DmOp.foresee .makeNonce f').1) ∧
    Alike K subs subs' (DmOp.foresee .makeNonce f).2 (DmOp.foresee .makeNonce f').2
  rw [foresee_sure fun _ => rfl, foresee_sure fun _ => rfl]
  refine ⟨.ok ?_, h.pass _ _ h.subscribers h.subscribers' h.sessions⟩
  change Moment.nonce _ = Moment.nonce _
  rw [h.ahead]

include hK in
theorem coupled_putDmSession {s t : DmSession} (hst : K s t) :
    Coupled DmOp.foresee (Alike K subs subs') (Dm.write (.putDmSession s)).run
      (Dm.write (.putDmSession t)).run f f' (Agreed fun a b => a = b) := by
  change Agreed _ ((DmOp.foresee (.write (.putDmSession s)) f).1.mapError DmError.store)
      ((DmOp.foresee (.write (.putDmSession t)) f').1.mapError DmError.store) ∧
    Alike K subs subs' (DmOp.foresee (.write (.putDmSession s)) f).2
      (DmOp.foresee (.write (.putDmSession t)) f').2
  cases hfault : (f.ahead.headD {}).fault with
  | none =>
    rw [foresee_calm hfault, foresee_calm (h.ahead ▸ hfault)]
    refine ⟨.ok rfl, h.pass _ _ h.subscribers h.subscribers' ?_⟩
    intro id
    have hid : t.sessionId = s.sessionId := by rw [hK.face s t hst]
    change Option.Rel K (Function.update f.world.store.dmSessions s.sessionId (some s) id)
      (Function.update f'.world.store.dmSessions t.sessionId (some t) id)
    rw [hid]
    by_cases hkey : id = s.sessionId
    · subst hkey
      rw [Function.update_self, Function.update_self]
      exact .some hst
    · rw [Function.update_of_ne hkey, Function.update_of_ne hkey]
      exact h.sessions id
  | some e =>
    rw [foresee_fault hfault rfl, foresee_fault (h.ahead ▸ hfault) rfl]
    exact ⟨.error _, h.pass _ _ h.subscribers h.subscribers' h.sessions⟩

variable (message : SyncMlMessage)

include hK in
theorem coupled_loadSession :
    Coupled DmOp.foresee (Alike K subs subs') (service.loadSession message.header).run
      (service.loadSession message.header).run f f' (Agreed fun a b => K a b ∧
        service.Loads message f.world a ∧ service.Loads message f'.world b) := by
  apply Coupled.bind_fallible (coupled_getDmSession hK h _)
  rintro found found' g g' ⟨hfound, clock, hclock, hread, hread'⟩ hg
  have hclock' : f'.world.clock.now ≤ clock.now := h.clock ▸ hclock
  cases hfound with
  | @some s t hst =>
    refine Coupled.pure_fallible ⟨hK.opened s t _ hst, ?_, ?_⟩ hg
    · refine ⟨clock, clock, hclock, ?_⟩
      rw [DmService.keyOf, ← hread]
      rfl
    · refine ⟨clock, clock, hclock', ?_⟩
      rw [DmService.keyOf, ← hread']
      rfl
  | none =>
    apply Coupled.bind_fallible (coupled_now hg)
    rintro now _ g₂ g₂' rfl hg₂
    refine Coupled.pure_fallible ⟨hK.refl _, ?_, ?_⟩ hg₂
    · refine ⟨clock, now, hclock, ?_⟩
      rw [DmService.keyOf, ← hread]
      rfl
    · refine ⟨clock, now, hclock', ?_⟩
      rw [DmService.keyOf, ← hread']
      rfl

omit hK in
theorem coupled_lookupPassword (username : String) :
    Coupled DmOp.foresee (Alike K subs subs') (DmService.lookupPassword username).run
      (DmService.lookupPassword username).run f f'
      (Agreed fun a b => a = passwordOf subs username ∧ b = passwordOf subs' username) := by
  unfold DmService.lookupPassword passwordOf
  split_ifs with hname
  · exact Coupled.pure_fallible ⟨rfl, rfl⟩ h
  · apply Coupled.bind_fallible (coupled_getSubscriber h username)
    rintro _ _ g g' ⟨rfl, rfl⟩ hg
    cases subs username with
    | none =>
      cases subs' username with
      | none => exact Coupled.pure_fallible ⟨rfl, rfl⟩ hg
      | some s' =>
        simp only [Option.bind_some]
        split_ifs
        · exact Coupled.pure_fallible ⟨rfl, rfl⟩ hg
        · exact Coupled.pure_fallible ⟨rfl, rfl⟩ hg
    | some s =>
      cases subs' username with
      | none =>
        simp only [Option.bind_some]
        split_ifs
        · exact Coupled.pure_fallible ⟨rfl, rfl⟩ hg
        · exact Coupled.pure_fallible ⟨rfl, rfl⟩ hg
      | some s' =>
        simp only [Option.bind_some]
        split_ifs
        · exact Coupled.pure_fallible ⟨rfl, rfl⟩ hg
        · exact Coupled.pure_fallible ⟨rfl, rfl⟩ hg
        · exact Coupled.pure_fallible ⟨rfl, rfl⟩ hg
        · exact Coupled.pure_fallible ⟨rfl, rfl⟩ hg

include hK in
theorem coupled_authenticate {s t : DmSession} (hst : K s t) :
    Coupled DmOp.foresee (Alike K subs subs') (service.authenticate message s).run
      (service.authenticate message t).run f f' (Agreed fun a b =>
        a = service.verdict message s subs ∧ b = service.verdict message t subs') := by
  have hface := hK.face s t hst
  have himsi : t.imsi = s.imsi := by rw [hface]
  have hnonce : t.nonce = s.nonce := by rw [hface]
  unfold DmService.authenticate DmService.verdict
  dsimp only
  rw [himsi, hnonce]
  split_ifs
  · exact Coupled.pure_fallible ⟨rfl, rfl⟩ h
  · cases message.header.credentials.filter (·.type = authMd5) with
    | some c =>
      apply Coupled.bind_fallible (coupled_lookupPassword h _)
      rintro _ _ g g' ⟨rfl, rfl⟩ hg
      exact Coupled.pure_fallible ⟨rfl, rfl⟩ hg
    | none =>
      dsimp only
      cases Auth.basicUser service.crypto message.header.credentials with
      | none => exact Coupled.pure_fallible ⟨rfl, rfl⟩ h
      | some username =>
        apply Coupled.bind_fallible (coupled_lookupPassword h _)
        rintro _ _ g g' ⟨rfl, rfl⟩ hg
        exact Coupled.pure_fallible ⟨rfl, rfl⟩ hg

end Coupled

def DmService.afterVerdict (service : DmService) (message : SyncMlMessage) (encode : Encoder)
    (session : DmSession) : Auth.Verdict → DmProgram (DmResponse × DmChanges)
  | .rejected reason keepOrFresh => do
    if keepOrFresh = .keep ∧ session.nonce ≠ "" then
      Dm.ofExcept (service.rejectMessage message session reason session.nonce encode)
    else
      let nonce ← Dm.makeNonce
      Dm.ofExcept (service.rejectMessage message session reason nonce encode)
  | .accepted username => do
    let lastMsgId ← Dm.ofExcept (service.msgNumber message.header.msgId 0)
    service.handleAuthenticated message (acceptedSession session username lastMsgId) encode

theorem handleMessage_eq (service : DmService) (message : SyncMlMessage) (encode : Encoder)
    (h : (message.header.sessionId = "" || message.header.msgId = "") = false) :
    service.handleMessage message encode = (do
      let session ← service.loadSession message.header
      let verdict ← service.authenticate message session
      service.afterVerdict message encode session verdict) := by
  unfold DmService.handleMessage
  dsimp only
  rw [if_neg (by simpa using h)]
  rfl

/-- The same answer, and at most the session to be written, which may differ as kin do. -/
def SameReply (K : DmSession → DmSession → Prop) (a b : DmResponse × DmChanges) : Prop :=
  a.1 = b.1 ∧ (a.2 = {} ∧ b.2 = {} ∨
    ∃ s t, K s t ∧ a.2 = { session := some s } ∧ b.2 = { session := some t })

section Verdict
variable {service : DmService} {K : DmSession → DmSession → Prop} (hK : Kinship service K)
  {subs subs' : String → Option Subscriber} {f f' : Forecast} (h : Alike K subs subs' f f')
  {message : SyncMlMessage} {encode : Encoder}
include hK

theorem agreed_rejectMessage {s t : DmSession} (hst : K s t) (reason nonce : String) :
    Agreed (SameReply K) (service.rejectMessage message s reason nonce encode)
      (service.rejectMessage message t reason nonce encode) := by
  have hsame : service.unauthorised message { t with nonce, authenticated := false } reason encode =
      service.unauthorised message { s with nonce, authenticated := false } reason encode := by
    rw [hK.face s t hst]
    rfl
  unfold DmService.rejectMessage
  dsimp only
  rw [hsame]
  cases service.unauthorised message { s with nonce, authenticated := false } reason encode with
  | error e => exact .error e
  | ok response => exact .ok ⟨rfl, Or.inr ⟨_, _, hK.rejected s t nonce hst, rfl, rfl⟩⟩

include h

theorem coupled_handleMessage
    (hverdict : ∀ s t g g', K s t → service.Loads message f.world s →
      service.Loads message f'.world t → Alike K subs subs' g g' →
      Coupled DmOp.foresee (Alike K subs subs')
        (service.afterVerdict message encode s (service.verdict message s subs)).run
        (service.afterVerdict message encode t (service.verdict message t subs')).run g g'
        (Agreed (SameReply K))) :
    Coupled DmOp.foresee (Alike K subs subs') (service.handleMessage message encode).run
      (service.handleMessage message encode).run f f' (Agreed (SameReply K)) := by
  cases hnumbered : (message.header.sessionId = "" || message.header.msgId = "" : Bool) with
  | true =>
    unfold DmService.handleMessage
    dsimp only
    rw [if_pos hnumbered]
    exact Coupled.pure_fallible ⟨rfl, Or.inl ⟨rfl, rfl⟩⟩ h
  | false =>
    rw [handleMessage_eq service message encode hnumbered]
    apply Coupled.bind_fallible (coupled_loadSession hK h message)
    rintro s t g g' ⟨hst, hloads, hloads'⟩ hg
    apply Coupled.bind_fallible (coupled_authenticate hK hg message hst)
    rintro _ _ g₂ g₂' ⟨rfl, rfl⟩ hg₂
    exact hverdict s t g₂ g₂' hst hloads hloads' hg₂

theorem coupled_rejected {s t : DmSession} (hst : K s t) (reason : String)
    (keepOrFresh : Auth.ChallengeNonce) :
    Coupled DmOp.foresee (Alike K subs subs')
      (service.afterVerdict message encode s (.rejected reason keepOrFresh)).run
      (service.afterVerdict message encode t (.rejected reason keepOrFresh)).run f f'
      (Agreed (SameReply K)) := by
  have hnonce : t.nonce = s.nonce := by rw [hK.face s t hst]
  unfold DmService.afterVerdict
  dsimp only
  rw [hnonce]
  split_ifs
  · exact ⟨agreed_rejectMessage hK hst reason s.nonce, h⟩
  · apply Coupled.bind_fallible (coupled_makeNonce h)
    rintro nonce _ g g' rfl hg
    exact ⟨agreed_rejectMessage hK hst reason nonce, hg⟩

omit h in
theorem coupled_respond (binary : Bool)
    (hhandle : Coupled DmOp.foresee (Alike K subs subs') (service.handleMessage message encode).run
      (service.handleMessage message encode).run f f' (Agreed (SameReply K))) :
    Coupled DmOp.foresee (Alike K subs subs') (service.respond message binary encode).run
      (service.respond message binary encode).run f f' fun r r' => r = r' := by
  unfold DmService.respond
  apply Coupled.bind hhandle
  intro r r' g g' hr hg
  cases hr with
  | error e =>
    dsimp only
    cases DmService.refusal e with
    | none => exact ⟨rfl, hg⟩
    | some response => exact ⟨rfl, hg⟩
  | @ok a b hab =>
    obtain ⟨outcome, changes⟩ := a
    obtain ⟨outcome', changes'⟩ := b
    obtain ⟨hsame, hchanges⟩ := hab
    obtain rfl : outcome = outcome' := hsame
    have hcommit : Coupled DmOp.foresee (Alike K subs subs') changes.commit.run
        changes'.commit.run g g' (Agreed fun a b => a = b) := by
      rcases hchanges with ⟨rfl, rfl⟩ | ⟨s, t, hst, rfl, rfl⟩
      · exact Coupled.pure_fallible rfl hg
      · apply Coupled.bind_fallible (coupled_putDmSession hK hg hst)
        rintro _ _ g₂ g₂' - hg₂
        exact Coupled.pure_fallible rfl hg₂
    apply Coupled.mono (Q := Agreed fun a b => a = b) _ fun _ _ => Agreed.eq
    apply Coupled.bind_fallible hcommit
    rintro _ _ g₂ g₂' - hg₂
    exact Coupled.pure_fallible rfl hg₂

end Verdict
end Acs.Omadm
