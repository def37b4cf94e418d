import Acs.Omadm.Handlers

/-! One walk over the handlers: what handling a message keeps, whatever its reads are promised. -/

namespace Acs.Omadm
open Interleave

def DmOp.Asks : DmOp → Prop
  | .getSubscriber _ => True
  | .now => True
  | .makeNonce => True
  | _ => False

/-- Changes of the records under one key, and of a device that satisfies `Noted`. -/
structure DmChanges.About (key : String) (Noted : Device → Prop) (c : DmChanges) : Prop where
  session : ∀ s ∈ c.session, s.sessionId = key
  device : ∀ d ∈ c.device, Noted d
  pending : ∀ p ∈ c.pending, p.sessionId = key
  deletePending : c.deletePendingId ≠ "" → c.deletePendingId = key
  deleteSession : c.deleteSessionId ≠ "" → c.deleteSessionId = key

section About
variable {key : String} {Noted : Device → Prop} {service : DmService} {message : SyncMlMessage}
  {session : DmSession} {encode : Encoder} {outcome : DmResponse} {changes changes' : DmChanges}
  {device : Device}

theorem none_about : DmChanges.About key Noted {} :=
  ⟨by simp, by simp, by simp, fun h => absurd rfl h, fun h => absurd rfl h⟩

theorem starts_about {queue rest : List Entry} {body : Bytes} {pending : Option DmPendingPackage}
    (h : DmService.Starts service message session encode queue rest body pending)
    (hkey : session.sessionId = key) : ∀ p ∈ pending, p.sessionId = key := by
  intro p hp
  by_cases hrest : rest = []
  · rw [h.none_of_nil hrest] at hp
    cases hp
  · obtain ⟨entries, -, hsome⟩ := h.some_of_cons hrest
    rw [hsome] at hp
    exact Option.some.inj hp ▸ hkey

theorem requestInventory_about
    (h : service.requestInventory message session changes encode device = .ok (outcome, changes'))
    (hkey : session.sessionId = key) (hdevice : Noted device) (hchanges : changes.About key Noted) :
    changes'.About key Noted := by
  obtain ⟨rest, body, pending, hstarts, -, hresult⟩ := DmService.requestInventory_ok h
  rw [hresult]
  exact { hchanges with
    device := fun d hd => Option.some.inj hd ▸ hdevice
    pending := starts_about hstarts hkey
    session := fun s hs => Option.some.inj hs ▸ hkey }

theorem pushConfiguration_about {subscriber : Option Subscriber}
    (h : service.pushConfiguration message session changes encode device subscriber =
      .ok (outcome, changes'))
    (hkey : session.sessionId = key) (hdevice : Noted device) (hchanges : changes.About key Noted) :
    changes'.About key Noted := by
  obtain ⟨values, rest, body, pending, -, hstarts, -, hresult⟩ := DmService.pushConfiguration_ok h
  rw [hresult]
  exact { hchanges with
    device := fun d hd => Option.some.inj hd ▸ hdevice
    pending := starts_about hstarts hkey
    session := fun s hs => Option.some.inj hs ▸ hkey }

theorem handleFinish_about
    (h : service.handleFinish message session changes encode = .ok (outcome, changes'))
    (hkey : session.sessionId = key) (hchanges : changes.About key Noted) :
    changes'.About key Noted := by
  obtain ⟨rest, body, pending, hstarts, hcases⟩ := DmService.handleFinish_ok h
  have hpending := starts_about hstarts hkey
  rcases hcases with ⟨-, -, hresult⟩ | ⟨-, hresult⟩
  · rw [hresult]
    exact { hchanges with
      pending := hpending
      session := fun s hs => Option.some.inj hs ▸ hkey }
  · obtain ⟨-, hresult⟩ := Prod.mk.inj hresult
    rw [hresult]
    exact { hchanges with pending := hpending, deleteSession := fun _ => hkey }

theorem sendNext_about {pending : DmPendingPackage}
    (h : service.sendNext message session pending changes encode device = .ok (outcome, changes'))
    (hkey : session.sessionId = key) (hpending : pending.sessionId = key) (hdevice : Noted device)
    (hchanges : changes.About key Noted) : changes'.About key Noted := by
  have hcounted : (DmService.counted message session).sessionId = key := by
    rw [DmService.counted_sessionId, hkey]
  have hnoted : ∀ d ∈ some device, Noted d := fun d hd => Option.some.inj hd ▸ hdevice
  obtain ⟨unsent, body, rest, -, -, hcases⟩ := DmService.sendNext_ok h
  rcases hcases with ⟨-, -, hresult⟩ | ⟨-, -, -, hresult⟩ | ⟨-, -, entries, -, hresult⟩
  · obtain ⟨-, hresult⟩ := Prod.mk.inj hresult
    rw [hresult]
    exact { hchanges with
      device := hnoted, deletePending := fun _ => hkey, deleteSession := fun _ => hcounted }
  · rw [hresult]
    exact { hchanges with
      device := hnoted
      deletePending := fun _ => hkey
      session := fun s hs => Option.some.inj hs ▸ hcounted }
  · rw [hresult]
    exact { hchanges with
      device := hnoted
      pending := fun p' hp' => Option.some.inj hp' ▸ hpending
      session := fun s hs => Option.some.inj hs ▸ hcounted }

theorem endSession_about {metric detail : String}
    (h : service.endSession message session changes encode metric detail = .ok (outcome, changes'))
    (hkey : session.sessionId = key) (hchanges : changes.About key Noted) :
    changes'.About key Noted := by
  obtain ⟨body, -, -, hresult⟩ := DmService.endSession_ok h
  rw [hresult]
  exact { hchanges with deleteSession := fun _ => hkey }

theorem rejectMessage_about {reason nonce : String}
    (h : service.rejectMessage message session reason nonce encode = .ok (outcome, changes'))
    (hkey : session.sessionId = key) : changes'.About key Noted := by
  obtain ⟨body, rest, -, -, hresult⟩ := DmService.rejectMessage_ok h
  rw [hresult]
  exact { none_about with session := fun s hs => Option.some.inj hs ▸ hkey }

theorem currentRemainder_about {stored : Option DmPendingPackage} (hkey : session.sessionId = key)
    (hstored : ∀ p ∈ stored, p.sessionId = key) :
    (∀ p ∈ (DmService.currentRemainder session stored).1, p.sessionId = key) ∧
      (DmService.currentRemainder session stored).2.About key Noted := by
  unfold DmService.currentRemainder
  cases stored with
  | none => exact ⟨hstored, none_about⟩
  | some p =>
    dsimp only
    split_ifs
    · exact ⟨by simp, { none_about with deletePending := fun _ => hkey }⟩
    · exact ⟨hstored, none_about⟩

end About

section Asks
variable {service : DmService} {message : SyncMlMessage} {session : DmSession}

theorem uses_lookupPassword (username : String) :
    (DmService.lookupPassword username).run.Uses DmOp.Asks := by
  unfold DmService.lookupPassword
  split_ifs
  · trivial
  · refine ⟨trivial, fun ans => ?_⟩
    rcases ans with e | _ | subscriber
    · trivial
    · trivial
    · change ((if subscriber.dmPassword = "" then pure none
        else pure (some subscriber.dmPassword) : DmProgram (Option String))).run.Uses DmOp.Asks
      split_ifs <;> trivial

theorem uses_authenticate : (service.authenticate message session).run.Uses DmOp.Asks := by
  have hlookup : ∀ username (f : Option String → Auth.Verdict),
      ((do return f (← DmService.lookupPassword username)) : DmProgram Auth.Verdict).run.Uses
        DmOp.Asks := by
    intro username f
    refine (uses_lookupPassword username).bind fun found => ?_
    cases found <;> trivial
  unfold DmService.authenticate
  dsimp only
  split_ifs
  · trivial
  · split
    · exact hlookup _ _
    · split
      · exact hlookup _ _
      · trivial

theorem uses_subscriberOf : (DmService.subscriberOf session).run.Uses DmOp.Asks := by
  unfold DmService.subscriberOf
  split_ifs
  · trivial
  · exact ⟨trivial, fun _ => trivial⟩

theorem uses_now : Dm.now.run.Uses DmOp.Asks := ⟨trivial, fun _ => trivial⟩

theorem uses_makeNonce : Dm.makeNonce.run.Uses DmOp.Asks := ⟨trivial, fun _ => trivial⟩

end Asks

section Walk
variable {R : Effect DmOp DmOp.Answer World} {I : World → Prop} {Q : DmOp → Prop} {key : String}
  {Noted : Device → Prop} {service : DmService} {message : SyncMlMessage} {session : DmSession}
  {encode : Encoder} {changes : DmChanges}
  (hasks : ∀ op : DmOp, op.Asks → Q op ∧ ∀ w ans w', I w → R op w ans w' → I w')
  (hsession : Keeps R I Q (Dm.getDmSession key) fun found => ∀ s ∈ found, s.sessionId = key)
  (hpending : Keeps R I Q (Dm.getDmPending key) fun found => ∀ p ∈ found, p.sessionId = key)
  (hdevice : ∀ session, Keeps R I Q (service.absorbDeviceValues message session) Noted)

include hdevice in
theorem keeps_handleInit (hkey : session.sessionId = key) (hchanges : changes.About key Noted) :
    Keeps R I Q (service.handleInit message session changes encode) fun a =>
      a.2.About key Noted := by
  unfold DmService.handleInit
  split_ifs
  · exact Keeps.pure hchanges
  · exact (hdevice session).bind fun device hnoted =>
      Keeps.result fun _ h => requestInventory_about h hkey hnoted hchanges

include hasks hdevice in
theorem keeps_handleDevinfo (hkey : session.sessionId = key) (hchanges : changes.About key Noted) :
    Keeps R I Q (service.handleDevinfo message session changes encode) fun a =>
      a.2.About key Noted :=
  (hdevice session).bind fun _ hnoted => (Keeps.of_uses uses_subscriberOf hasks).bind fun _ _ =>
    Keeps.result fun _ h => pushConfiguration_about h hkey hnoted hchanges

include hdevice in
theorem keeps_continuePackage {pending : DmPendingPackage} (hkey : session.sessionId = key)
    (hp : pending.sessionId = key) (hchanges : changes.About key Noted) :
    Keeps R I Q (service.continuePackage message session pending changes encode) fun a =>
      a.2.About key Noted := by
  unfold DmService.continuePackage
  split_ifs
  · exact Keeps.pure { hchanges with deleteSession := fun _ => hkey }
  · exact (hdevice session).bind fun _ hnoted =>
      Keeps.result fun _ h => sendNext_about h hkey hp hnoted hchanges

include hasks hdevice in
theorem keeps_dispatch {pending : Option DmPendingPackage} (hkey : session.sessionId = key)
    (hp : ∀ p ∈ pending, p.sessionId = key) (hchanges : changes.About key Noted) :
    Keeps R I Q (service.dispatch message session pending changes encode) fun a =>
      a.2.About key Noted := by
  unfold DmService.dispatch
  split_ifs
  · exact Keeps.result fun _ h => endSession_about h hkey hchanges
  · exact Keeps.result fun _ h => endSession_about h hkey hchanges
  all_goals
    cases pending with
    | some p => exact keeps_continuePackage hdevice hkey (hp p rfl) hchanges
    | none => ?_
  · exact keeps_handleInit hdevice hkey hchanges
  · exact keeps_handleDevinfo hasks hdevice hkey hchanges
  · exact Keeps.result fun _ h => handleFinish_about h hkey hchanges

include hasks hpending hdevice in
theorem keeps_handleAuthenticated (hkey : session.sessionId = key) :
    Keeps R I Q (service.handleAuthenticated message session encode) fun a =>
      a.2.About key Noted := by
  unfold DmService.handleAuthenticated
  split_ifs
  · exact Keeps.pure none_about
  · subst hkey
    refine hpending.bind fun stored hstored => ?_
    obtain ⟨hp, hchanges⟩ := currentRemainder_about rfl hstored
    exact keeps_dispatch hasks hdevice rfl hp hchanges

include hasks hsession in
theorem keeps_loadSession (hkey : service.keyOf message.header = key) :
    Keeps R I Q (service.loadSession message.header) fun session => session.sessionId = key := by
  subst hkey
  unfold DmService.loadSession
  refine Keeps.bind hsession fun found hfound => ?_
  cases found with
  | some s => exact Keeps.pure (hfound s rfl)
  | none => exact (Keeps.of_uses uses_now hasks).bind fun _ _ => Keeps.pure rfl

include hasks hsession hpending hdevice in
theorem keeps_handleMessage (hkey : service.keyOf message.header = key) :
    Keeps R I Q (service.handleMessage message encode) fun a => a.2.About key Noted := by
  unfold DmService.handleMessage
  dsimp only
  split_ifs
  · exact Keeps.pure none_about
  · refine (keeps_loadSession hasks hsession hkey).bind fun session hsessionId => ?_
    refine (Keeps.of_uses uses_authenticate hasks).bind fun verdict _ => ?_
    cases verdict with
    | rejected reason keepOrFresh =>
      dsimp only
      split_ifs
      · exact Keeps.result fun _ h => rejectMessage_about h hsessionId
      · exact (Keeps.of_uses uses_makeNonce hasks).bind fun _ _ =>
          Keeps.result fun _ h => rejectMessage_about h hsessionId
    | accepted username =>
      have hnumber : Keeps R I Q (Dm.ofExcept (service.msgNumber message.header.msgId 0))
          fun _ => True := Keeps.result fun _ _ => trivial
      exact hnumber.bind fun _ _ => keeps_handleAuthenticated hasks hpending hdevice hsessionId

end Walk
end Acs.Omadm
