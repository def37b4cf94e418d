import Acs.Omadm.Completion

/-! A device is sent no configuration but that of its own subscriber, unless another one speaks in its
session while some of its configuration is unsent. -/

namespace Acs.Omadm
open Interleave Package

/-! ### Who a message is answered as -/

namespace DmService
variable (service : DmService)

def OpensAs (message : SyncMlMessage) (subscribers : String → Option Subscriber)
    (found : Option DmSession) (u : String) (session : DmSession) : Prop :=
  ∃ clock number,
    service.verdict message (service.sessionFrom message found clock) subscribers = .accepted u ∧
    service.msgNumber message.header.msgId 0 = .ok number ∧
    session = acceptedSession (service.sessionFrom message found clock) u number

/-- What an accepted message is answered from, and how many of the entries the answer must hold. -/
def replyQueue (message : SyncMlMessage) (session : DmSession)
    (pending : Option DmPendingPackage) (subscribers : String → Option Subscriber) :
    Except DmError (List Entry × Nat) :=
  if message.hasAlert alertSessionAbort || message.hasAlert alertEndOfSession then
    .ok (service.acks message, (service.acks message).length)
  else service.answerQueue message session pending subscribers

def Told (a : Attempt) (u : String) (part : List Entry) : Prop :=
  ∃ response w session queue required rest, a.Answered response ∧
    Weathered (service.keyOf a.message.header) a.before w a.trace ∧
    service.OpensAs a.message a.before.store.subscribers
      (w.store.dmSessions (service.keyOf a.message.header)) u session ∧
    service.replyQueue a.message session
      (currentRemainder session (w.store.dmPending (service.keyOf a.message.header))).1
      a.before.store.subscribers = .ok (queue, required) ∧
    service.nextMessage a.message session queue a.encode required (service.headerStatus session) =
      .ok (response.body, rest) ∧
    queue = part ++ rest

/-- While the message was handled as one of `u`, its configuration was rendered to this package. -/
def RendersFor (a : Attempt) (u : String) (package : List Entry) : Prop :=
  ∃ w session values, Weathered (service.keyOf a.message.header) a.before w a.trace ∧
    service.OpensAs a.message a.before.store.subscribers
      (w.store.dmSessions (service.keyOf a.message.header)) u session ∧
    session.phase = "devinfo" ∧
    service.configurationValues session (ownSubscriber session a.before.store.subscribers) =
      .ok values ∧
    package = service.configurationQueue a.message values

def RenderedFor (as : List Attempt) (u : String) (e : Entry) : Prop :=
  ∃ a ∈ as, ∃ package, service.RendersFor a u package ∧ e ∈ package

/-- Whoever the message authenticated as was told no configuration but what was rendered for
them. -/
def Isolated (as : List Attempt) (a : Attempt) : Prop :=
  ∀ u part, service.Told a u part → ∀ i, .item i ∈ part → i.command ∈ ["Add", "Replace"] →
    service.RenderedFor as u (.item i)

/-- An answer of 200 is a challenge, or is told to whom the message authenticated as. -/
def Addressed (a : Attempt) : Prop :=
  ∀ response, a.Answered response → response.metric ≠ "DmAuthRejected" →
    ∃ u part, service.Told a u part

/-- Messages from any clients, one after another; whatever else happens in between leaves the
sessions and remainders alone. -/
def Traffic : World → List Attempt → Prop
  | _, [] => True
  | w, a :: as => a.before.store.dmSessions = w.store.dmSessions ∧
    a.before.store.dmPending = w.store.dmPending ∧
    Attempted service (service.keyOf a.message.header) a ∧ Traffic a.after as

/-- A message of one subscriber comes in the session of another, some of whose configuration is
unsent. -/
def Intrudes (a : Attempt) : Prop :=
  ∃ s p unsent i u, Ongoing a.message ∧
    a.before.store.dmSessions (service.keyOf a.message.header) = some s ∧ s.phase = "configure" ∧
    a.before.store.dmPending (service.keyOf a.message.header) = some p ∧ p.phase = "configure" ∧
    fromStored p.entries = .ok unsent ∧ .item i ∈ unsent ∧ i.command ∈ ["Add", "Replace"] ∧
    service.verdict a.message (service.openSession a.message.header s) a.before.store.subscribers =
      .accepted u ∧ u ≠ s.imsi

end DmService

/-- A remainder holds an `Add` or a `Replace` only while a configuration is being sent, and one that
the session stored with it is to be sent was rendered for its subscriber. -/
structure Traced (service : DmService) (as : List Attempt) (stored : Option DmSession)
    (p : DmPendingPackage) : Prop where
  phase : p.phase ∈ ["devinfo", "configure", "done"]
  unsent : ∀ unsent, fromStored p.entries = .ok unsent → Known unsent ∧
    ∀ i, .item i ∈ unsent → i.command ∈ ["Add", "Replace"] → p.phase = "configure" ∧
      ∀ s ∈ stored, s.phase = "configure" → service.RenderedFor as s.imsi (.item i)

/-- Every remainder that is stored is that of a package of its session. -/
def Attributed (service : DmService) (as : List Attempt) (w : World) : Prop :=
  ∀ key, ∀ p ∈ w.store.dmPending key, Traced service as (w.store.dmSessions key) p

section Traced
variable {service : DmService} {as as' : List Attempt} {stored stored' : Option DmSession}
  {p : DmPendingPackage} {a : Attempt} {u : String} {e : Entry}

theorem renderedFor_mono (h : service.RenderedFor as u e) (hsub : as ⊆ as') :
    service.RenderedFor as' u e := by
  obtain ⟨a, ha, package, hrenders, he⟩ := h
  exact ⟨a, hsub ha, package, hrenders, he⟩

theorem Traced.mono (h : Traced service as stored p) (hsub : as ⊆ as') :
    Traced service as' stored p := by
  refine ⟨h.phase, fun unsent hunsent => ?_⟩
  obtain ⟨hknown, hitems⟩ := h.unsent unsent hunsent
  refine ⟨hknown, fun i hi hcommand => ?_⟩
  obtain ⟨hphase, hrendered⟩ := hitems i hi hcommand
  exact ⟨hphase, fun s hs hconfigure => renderedFor_mono (hrendered s hs hconfigure) hsub⟩

theorem Traced.of_stored (h : Traced service as stored p)
    (hstored : ∀ s ∈ stored', s.phase = "configure" →
      ∃ s₀ ∈ stored, s₀.phase = "configure" ∧ s₀.imsi = s.imsi) :
    Traced service as stored' p := by
  refine ⟨h.phase, fun unsent hunsent => ?_⟩
  obtain ⟨hknown, hitems⟩ := h.unsent unsent hunsent
  refine ⟨hknown, fun i hi hcommand => ?_⟩
  obtain ⟨hphase, hrendered⟩ := hitems i hi hcommand
  refine ⟨hphase, fun s hs hconfigure => ?_⟩
  obtain ⟨s₀, hs₀, hconfigure₀, himsi⟩ := hstored s hs hconfigure
  exact himsi ▸ hrendered s₀ hs₀ hconfigure₀

theorem traced_started {message : SyncMlMessage} {session : DmSession} {encode : Encoder}
    {queue rest : List Entry} {body : Bytes} {pending : Option DmPendingPackage}
    (h : DmService.Starts service message session encode queue rest body pending) (hp : p ∈ pending)
    (hknown : Known queue) (hphase : session.phase ∈ ["devinfo", "configure", "done"])
    (hitems : ∀ i, .item i ∈ queue → i.command ∈ ["Add", "Replace"] →
      session.phase = "configure" ∧
        ∀ s ∈ stored, s.phase = "configure" → service.RenderedFor as s.imsi (.item i)) :
    Traced service as stored p := by
  obtain ⟨part, rfl⟩ := DmService.nextMessage_split h.next
  have hrest : rest ≠ [] := fun hnil => by
    rw [h.none_of_nil hnil] at hp
    cases hp
  obtain ⟨entries, hentries, hpending⟩ := h.some_of_cons hrest
  obtain rfl := Option.some.inj (hpending.symm.trans hp)
  refine ⟨hphase, fun unsent hunsent => ?_⟩
  have hknown' : Known rest := fun e he => hknown e (List.mem_append_right _ he)
  obtain rfl := Except.ok.inj ((fromStored_toStored hknown' hentries).symm.trans hunsent)
  exact ⟨hknown', fun i hi hcommand => hitems i (List.mem_append_right _ hi) hcommand⟩

end Traced

namespace DmService
variable {service : DmService} {as : List Attempt} {a : Attempt} {message : SyncMlMessage}
  {subscribers : String → Option Subscriber} {found : Option DmSession} {u : String}
  {session : DmSession} {key : String}

theorem opens_iff : service.Opens message subscribers found session ↔
    ∃ u, service.OpensAs message subscribers found u session := by
  constructor
  · rintro ⟨clock, u, number, h⟩
    exact ⟨u, clock, number, h⟩
  · rintro ⟨u, clock, number, h⟩
    exact ⟨clock, u, number, h⟩

theorem authenticateMd5_accepted {py : PyText} {crypto : DmCrypto} {c : Credentials}
    {username nonce : String} {expected : Option String}
    (h : Auth.authenticateMd5 py crypto c username expected nonce = .accepted u) :
    u = username ∧ expected ≠ none := by
  unfold Auth.authenticateMd5 at h
  split_ifs at h
  cases expected with
  | none => cases h
  | some p =>
    dsimp only at h
    split_ifs at h
    exact ⟨(Auth.Verdict.accepted.inj h).symm, Option.some_ne_none p⟩

theorem authenticate_accepted {crypto : DmCrypto} {credentials : Option Credentials}
    {expected : Option String} (h : Auth.authenticate crypto credentials expected = .accepted u) :
    Auth.basicUser crypto credentials = some u ∧ expected ≠ none := by
  cases credentials with
  | none => cases h
  | some c =>
    unfold Auth.authenticate at h
    unfold Auth.basicUser
    dsimp only at h ⊢
    split_ifs at h
    cases hdecoded : Auth.decodeBasic crypto c with
    | none =>
      rw [hdecoded] at h
      cases h
    | some login =>
      rw [hdecoded] at h
      cases expected with
      | none => cases h
      | some p =>
        dsimp only at h
        split_ifs at h
        exact ⟨congrArg some (Auth.Verdict.accepted.inj h), Option.some_ne_none p⟩

theorem accepted_ne_empty (hscheme : service.settings.dmAuthScheme ≠ .none)
    (h : service.verdict message session subscribers = .accepted u) : u ≠ "" := by
  have hpassword : passwordOf subscribers "" = none := if_pos rfl
  rintro rfl
  unfold verdict at h
  dsimp only at h
  rw [if_neg hscheme] at h
  split at h
  · obtain ⟨hname, hsome⟩ := authenticateMd5_accepted h
    rw [← hname] at hsome
    exact hsome hpassword
  · obtain ⟨hname, hsome⟩ := authenticate_accepted h
    rw [hname, Option.bind_some] at hsome
    exact hsome hpassword

theorem OpensAs.imsi (hscheme : service.settings.dmAuthScheme ≠ .none)
    (h : service.OpensAs message subscribers found u session) : session.imsi = u := by
  obtain ⟨clock, number, hverdict, -, rfl⟩ := h
  exact if_pos (accepted_ne_empty hscheme hverdict)

theorem OpensAs.phase (h : service.OpensAs message subscribers found u session) :
    session.phase = (found.map DmSession.phase).getD "init" :=
  (opens_iff.mpr ⟨u, h⟩).phase

/-! ### What a message leaves -/

theorem written_elsewhere {c : DmChanges} {done rest : List DmWrite} {other : String}
    (hc : c.About key fun _ => True) (hwrites : c.writes = done ++ rest) (hne : other ≠ key)
    (m : MemoryStore) : (written done m).dmSessions other = m.dmSessions other ∧
      (written done m).dmPending other = m.dmPending other := by
  constructor
  · rcases @written_session other done m with hsame | ⟨hmem, -⟩ | ⟨s, hmem, hs, -⟩
    · exact hsame
    · obtain ⟨hdelete, hid⟩ := deleteDmSession_mem_writes (hwrites ▸ List.mem_append_left rest hmem)
      exact absurd (hid.trans (hc.deleteSession hdelete)) hne
    · have hput := putDmSession_mem_writes (hwrites ▸ List.mem_append_left rest hmem)
      exact absurd (hs.symm.trans (hc.session s hput)) hne
  · rcases @written_pending other done m with hsame | ⟨hmem, -⟩ | ⟨p, hmem, hp, -⟩
    · exact hsame
    · obtain ⟨hid, hdelete⟩ := deleteDmPending_mem_writes (hwrites ▸ List.mem_append_left rest hmem)
      rcases hdelete with hdelete | hdelete
      · exact absurd (hdelete.trans (hc.deletePending (hdelete ▸ hid))) hne
      · exact absurd (hdelete.trans (hc.deleteSession (hdelete ▸ hid))) hne
    · have hput := putDmPending_mem_writes (hwrites ▸ List.mem_append_left rest hmem)
      exact absurd (hp.symm.trans (hc.pending p hput)) hne

theorem attributed_reads {w w' : World} (h : Attributed service as w) (hreads : Reads w w') :
    Attributed service as w' := by
  intro key p hp
  rcases hreads.pending key with hsame | ⟨hnone, -⟩
  · refine (h key p (hsame ▸ hp)).of_stored fun s hs hphase => ?_
    rcases hreads.sessions key with hsame' | ⟨hnone, -⟩
    · exact ⟨s, hsame' ▸ hs, hphase, rfl⟩
    · rw [hnone] at hs
      cases hs
  · rw [hnone] at hp
    cases hp

theorem attributed_commits {w : World} {outcome : DmResponse} {changes : DmChanges}
    {done rest : List DmWrite} (h : Attributed service as w)
    (hc : changes.About key fun _ => True) (hcommits : a.Commits key w outcome changes done rest)
    (hkey : ∀ p ∈ a.after.store.dmPending key,
      Traced service (as ++ [a]) (a.after.store.dmSessions key) p) :
    Attributed service (as ++ [a]) a.after := by
  intro other p hp
  by_cases hother : other = key
  · subst hother
    exact hkey p hp
  · obtain ⟨hsessions, hpending⟩ := written_elsewhere hc hcommits.writes hother w.store
    rw [hcommits.store] at hp ⊢
    rw [hpending] at hp
    rw [hsessions]
    exact (h other p hp).mono (List.subset_append_left as [a])

theorem acks_no_item {i : Item} : .item i ∉ service.acks message := by
  intro hi
  obtain ⟨command, -, hstatus⟩ := List.mem_map.mp hi
  cases hstatus

theorem inventoryQueue_gets {i : Item} (hi : .item i ∈ service.inventoryQueue message) :
    i.command = "Get" := by
  obtain ⟨uri, -, hitem⟩ := List.mem_map.mp ((List.mem_append.mp hi).resolve_left acks_no_item)
  exact Entry.item.inj hitem ▸ rfl

theorem counted_imsi : (counted message session).imsi = session.imsi := by
  unfold counted
  split_ifs
  · rfl
  · rfl

section Accepted
variable {w : World} {device : Device} {outcome : DmResponse} {changes : DmChanges}
  {done rest : List DmWrite}

theorem traced_old (h : ∀ p ∈ w.store.dmPending key, Traced service as (w.store.dmSessions key) p)
    {stored : Option DmSession} {p : DmPendingPackage} (hp : p ∈ w.store.dmPending key)
    (hstored : ∀ s ∈ stored, s ∈ w.store.dmSessions key ∨ s.phase ≠ "configure") :
    Traced service (as ++ [a]) stored p := by
  refine ((h p hp).of_stored fun s hs hphase => ?_).mono (List.subset_append_left as [a])
  exact ⟨s, (hstored s hs).resolve_right (not_not.mpr hphase), hphase, rfl⟩

structure Handles (service : DmService) (key : String) (a : Attempt) (w : World) (u : String)
    (session : DmSession) : Prop where
  keyed : service.keyOf a.message.header = key
  weathered : Weathered key a.before w a.trace
  numbered : a.message.header.Numbered
  opens : service.OpensAs a.message a.before.store.subscribers (w.store.dmSessions key) u session
  sessionId : session.sessionId = key

section Leaves
variable (hcommits : a.Commits key w outcome changes done rest)
  (h : ∀ p ∈ w.store.dmPending key, Traced service as (w.store.dmSessions key) p) {base : DmChanges}
include hcommits h

theorem traced_untouched (hsession : changes.session = none) (hpending : changes.pending = none) :
    ∀ p ∈ a.after.store.dmPending key,
      Traced service (as ++ [a]) (a.after.store.dmSessions key) p := by
  intro p hp
  have hp := (pending_of_commits hcommits p hp).resolve_right (by simp [hpending])
  refine traced_old h hp fun s hs => ?_
  exact (session_of_commits hcommits s hs).imp_right (by simp [hsession])

theorem traced_past {p : DmPendingPackage} (hp : p ∈ w.store.dmPending key)
    (hphase : ∀ s ∈ changes.session, s.phase ≠ "configure") :
    Traced service (as ++ [a]) (a.after.store.dmSessions key) p := by
  refine traced_old h hp fun s hs => ?_
  exact (session_of_commits hcommits s hs).imp_right fun hput => hphase s hput.2

theorem traced_inventory (hnumbered : a.message.header.Numbered)
    (hrequest : service.requestInventory a.message session base a.encode device =
      .ok (outcome, changes)) :
    ∀ p ∈ a.after.store.dmPending key,
      Traced service (as ++ [a]) (a.after.store.dmSessions key) p := by
  obtain ⟨rest', body, pending, hstarts, rfl, rfl⟩ := requestInventory_ok hrequest
  intro p hp
  rcases pending_of_commits hcommits p hp with hp | ⟨-, hp⟩
  · refine traced_past hcommits h hp fun s hs => ?_
    obtain rfl := Option.some.inj hs
    show "devinfo" ≠ _
    decide
  · refine traced_started hstarts hp (fun e he => (inventoryQueue_plain hnumbered e he).1)
      List.mem_cons_self fun i hi hcommand => ?_
    rw [inventoryQueue_gets hi] at hcommand
    exact absurd hcommand (by decide)

theorem traced_finish (hnumbered : a.message.header.Numbered) (hbase : base.session = none)
    (hfinish : service.handleFinish a.message session base a.encode = .ok (outcome, changes)) :
    ∀ p ∈ a.after.store.dmPending key,
      Traced service (as ++ [a]) (a.after.store.dmSessions key) p := by
  obtain ⟨rest', body, pending, hstarts, ⟨-, rfl, rfl⟩ | ⟨hnil, hclose⟩⟩ := handleFinish_ok hfinish
  · intro p hp
    rcases pending_of_commits hcommits p hp with hp | ⟨-, hp⟩
    · refine traced_past hcommits h hp fun s hs => ?_
      obtain rfl := Option.some.inj hs
      show "done" ≠ _
      decide
    · exact traced_started hstarts hp (fun e he => (acks_plain hnumbered e he).1)
        (show "done" ∈ _ by decide) fun i hi => absurd hi acks_no_item
  · obtain ⟨rfl, rfl⟩ := Prod.mk.inj hclose
    exact traced_untouched hcommits h hbase (hstarts.none_of_nil hnil)

variable (himsi : session.imsi = u) (hhandles : Handles service key a w u session)
include himsi hhandles

theorem traced_configuration (habout : changes.About key fun _ => True)
    (hnone : (currentRemainder session (w.store.dmPending key)).1 = none)
    (hphase : session.phase = "devinfo")
    (hpush : service.pushConfiguration a.message session
      { deletePendingId := (currentRemainder session (w.store.dmPending key)).2.deletePendingId }
      a.encode device (ownSubscriber session a.before.store.subscribers) = .ok (outcome, changes)) :
    ∀ p ∈ a.after.store.dmPending key,
      Traced service (as ++ [a]) (a.after.store.dmSessions key) p := by
  have hne : session.sessionId ≠ "" := by
    rw [hhandles.sessionId, ← hhandles.keyed]
    exact sessionKey_ne_empty _ _
  obtain ⟨values, rest', body, pending, hvalues, hstarts, rfl, rfl⟩ := pushConfiguration_ok hpush
  obtain ⟨-, -, hreplace⟩ := configurationValues_ok hvalues
  have hnew : ∀ p, pending = some p →
      Traced service (as ++ [a]) (a.after.store.dmSessions key) p := by
    intro p hp
    refine traced_started hstarts hp
      (fun e he => (configurationQueue_plain hhandles.numbered hreplace e he).1)
      (List.mem_cons_of_mem _ List.mem_cons_self) fun i hi _ => ⟨rfl, fun s hs hconfigure => ?_⟩
    rcases session_of_commits hcommits s hs with hs | ⟨-, hs⟩
    · have hsphase := hhandles.opens.phase
      rw [hphase, Option.mem_def.mp hs] at hsphase
      exact absurd (hsphase.trans hconfigure) (by decide)
    · obtain rfl := Option.some.inj hs
      obtain rfl := hhandles.keyed
      show service.RenderedFor _ session.imsi _
      rw [himsi]
      exact ⟨a, List.mem_append_right _ (List.mem_singleton_self a), _,
        ⟨w, session, values, hhandles.weathered, hhandles.opens, hphase, hvalues, rfl⟩, hi⟩
  intro p hp
  by_cases hput : ∃ s, .putDmSession s ∈ done
  · -- the session is written last, so the remainder is the new one
    obtain ⟨s, hput⟩ := hput
    have hall := rest_of_putDmSession hcommits.writes rfl rfl hput
    have hafter : a.after.store.dmPending key = pending := by
      rw [hcommits.store, ← List.append_nil done, ← hall, ← hcommits.writes,
        (habout.written_writes _).2]
      exact pendingAfter_started hnone hne rfl rfl
    exact hnew p (hafter ▸ hp)
  · rcases pending_of_commits hcommits p hp with hp | ⟨-, hp⟩
    · exact traced_old h hp fun s hs =>
        (session_of_commits hcommits s hs).imp_right fun hs' => absurd ⟨s, hs'.1⟩ hput
    · exact hnew p hp

theorem unsent_rendered {p₀ : DmPendingPackage} {unsent : List Entry} (hongoing : Ongoing a.message)
    (hintrudes : ¬ service.Intrudes a) (hp₀ : w.store.dmPending key = some p₀)
    (hphase : p₀.phase = session.phase) (hunsent : fromStored p₀.entries = .ok unsent)
    (hstored : ∀ s ∈ changes.session, s.imsi = session.imsi) :
    ∀ i, .item i ∈ unsent → i.command ∈ ["Add", "Replace"] →
      p₀.phase = "configure" ∧ ∀ s ∈ a.after.store.dmSessions key, s.phase = "configure" →
        service.RenderedFor (as ++ [a]) s.imsi (.item i) := by
  intro i hi hcommand
  obtain ⟨hconfigure, hrendered⟩ := ((h p₀ hp₀).unsent unsent hunsent).2 i hi hcommand
  have hsphase := hhandles.opens.phase
  rw [← hphase, hconfigure] at hsphase
  cases hfound : w.store.dmSessions key with
  | none =>
    rw [hfound] at hsphase
    exact absurd (show "configure" = "init" from hsphase) (by decide)
  | some s₀ =>
    rw [hfound] at hsphase
    have hs₀ : s₀.phase = "configure" := hsphase.symm
    obtain ⟨clock, number, hverdict, -, -⟩ := hhandles.opens
    rw [hfound] at hverdict
    have hu : u = s₀.imsi := by
      by_contra hu
      obtain rfl := hhandles.keyed
      exact hintrudes ⟨s₀, p₀, unsent, i, u, hongoing, hhandles.weathered.session_of_some hfound,
        hs₀, hhandles.weathered.pending_of_some hp₀, hconfigure, hunsent, hi, hcommand, hverdict, hu⟩
    have hfor := renderedFor_mono (hrendered s₀ hfound hs₀) (List.subset_append_left as [a])
    refine ⟨hconfigure, fun s hs _ => ?_⟩
    rcases session_of_commits hcommits s hs with hs | ⟨-, hs⟩
    · obtain rfl := Option.some.inj (hfound.symm.trans hs)
      exact hfor
    · rw [hstored s hs, himsi, hu]
      exact hfor

theorem traced_continued {p₀ : DmPendingPackage} (hongoing : Ongoing a.message)
    (hintrudes : ¬ service.Intrudes a) (hp₀ : w.store.dmPending key = some p₀)
    (hphase : p₀.phase = session.phase)
    (hsend : service.sendNext a.message session p₀ { deletePendingId := base.deletePendingId }
      a.encode device = .ok (outcome, changes)) :
    ∀ p ∈ a.after.store.dmPending key,
      Traced service (as ++ [a]) (a.after.store.dmSessions key) p := by
  obtain ⟨unsent, body, rest', hunsent, hnext, hcases⟩ := sendNext_ok hsend
  have hknown := ((h p₀ hp₀).unsent unsent hunsent).1
  have hstored : ∀ s ∈ changes.session, s.imsi = session.imsi := by
    intro s hs
    rcases hcases with ⟨-, -, heq⟩ | ⟨-, -, -, rfl⟩ | ⟨-, -, entries, -, rfl⟩
    · obtain ⟨-, rfl⟩ := Prod.mk.inj heq
      cases hs
    · exact Option.some.inj hs ▸ counted_imsi
    · exact Option.some.inj hs ▸ counted_imsi
  have hrendered := unsent_rendered hcommits h himsi hhandles hongoing hintrudes hp₀ hphase hunsent
    hstored
  intro p hp
  rcases pending_of_commits hcommits p hp with hp | ⟨-, hp⟩
  · obtain rfl := Option.some.inj (hp₀.symm.trans hp)
    refine ⟨(h p₀ hp₀).phase, fun unsent' hunsent' => ?_⟩
    obtain rfl := Except.ok.inj (hunsent.symm.trans hunsent')
    exact ⟨hknown, hrendered⟩
  · rcases hcases with ⟨-, -, heq⟩ | ⟨-, -, -, rfl⟩ | ⟨hrest, -, entries, hentries, rfl⟩
    · obtain ⟨-, rfl⟩ := Prod.mk.inj heq
      cases hp
    · cases hp
    · obtain rfl := Option.some.inj hp
      obtain ⟨part, hsplit⟩ := nextMessage_split hnext
      have hsub : ∀ e ∈ rest', e ∈ service.acks a.message ++ unsent := fun e he =>
        hsplit ▸ List.mem_append_right part he
      have hknown' : Known rest' := by
        intro e he
        rcases List.mem_append.mp (hsub e he) with hack | hmem
        · exact (acks_plain hhandles.numbered e hack).1
        · exact hknown e hmem
      refine ⟨(h p₀ hp₀).phase, fun unsent' hunsent' => ?_⟩
      obtain rfl := Except.ok.inj ((fromStored_toStored hknown' hentries).symm.trans hunsent')
      refine ⟨hknown', fun i hi => hrendered i ?_⟩
      exact (List.mem_append.mp (hsub _ hi)).resolve_left acks_no_item

end Leaves

theorem traced_accepted (hscheme : service.settings.dmAuthScheme ≠ .none)
    (hhandles : Handles service key a w u session)
    (hanswers : Answers service a.message session a.encode
      (currentRemainder session (w.store.dmPending key)).1
      (currentRemainder session (w.store.dmPending key)).2 a.before.store.subscribers device
      outcome changes)
    (habout : changes.About key fun _ => True)
    (hcommits : a.Commits key w outcome changes done rest) (hintrudes : ¬ service.Intrudes a)
    (h : ∀ p ∈ w.store.dmPending key, Traced service as (w.store.dmSessions key) p) :
    ∀ p ∈ a.after.store.dmPending key,
      Traced service (as ++ [a]) (a.after.store.dmSessions key) p := by
  have hnumbered := hhandles.numbered
  have himsi : session.imsi = u := hhandles.opens.imsi hscheme
  rw [currentRemainder_changes] at hanswers
  cases hanswers with
  | ended => exact traced_untouched hcommits h rfl rfl
  | tooManyMessages => exact traced_untouched hcommits h rfl rfl
  | noAlert => exact traced_untouched hcommits h rfl rfl
  | inventory _ _ _ _ _ hrequest => exact traced_inventory hcommits h hnumbered hrequest
  | configuration _ _ _ hnone hphase hpush =>
    exact traced_configuration hcommits h himsi hhandles habout hnone hphase hpush
  | finish _ _ _ _ _ _ hfinish => exact traced_finish hcommits h hnumbered rfl hfinish
  | continued p₀ _ _ hongoing hsome _ hsend =>
    obtain ⟨hp₀, hphase, -⟩ := currentRemainder_some hsome
    exact traced_continued hcommits h himsi hhandles hongoing hintrudes hp₀ hphase hsend

theorem traced_rejected {clock : Clock} {nonce : String}
    (hcommits : a.Commits key w outcome
      { session := some { service.sessionFrom a.message (w.store.dmSessions key) clock with
          nonce, authenticated := false } } done rest)
    (h : ∀ p ∈ w.store.dmPending key, Traced service as (w.store.dmSessions key) p) :
    ∀ p ∈ a.after.store.dmPending key,
      Traced service (as ++ [a]) (a.after.store.dmSessions key) p := by
  intro p hp
  have hp := (pending_of_commits hcommits p hp).resolve_right fun hput => nomatch hput.2
  refine ((h p hp).of_stored fun s hs hphase => ?_).mono (List.subset_append_left as [a])
  rcases session_of_commits hcommits s hs with hs | ⟨-, hput⟩
  · exact ⟨s, hs, hphase, rfl⟩
  · obtain rfl := Option.some.inj hput
    cases hfound : w.store.dmSessions key with
    | none =>
      rw [hfound] at hphase
      exact absurd (show "init" = "configure" from hphase) (by decide)
    | some s₀ =>
      rw [hfound] at hphase
      exact ⟨s₀, rfl, hphase, rfl⟩

end Accepted

/-- Every message leaves all remainders to the subscribers of their sessions. -/
theorem attributed_attempted (hscheme : service.settings.dmAuthScheme ≠ .none)
    (h : Attempted service (service.keyOf a.message.header) a) (hkeyed : Keyed a.before.store)
    (hintrudes : ¬ service.Intrudes a) (hattributed : Attributed service as a.before) :
    Attributed service (as ++ [a]) a.after := by
  have hown : Own (service.keyOf a.message.header) a.before := hkeyed.own
  cases attempted_course h hown with
  | idle _ hreads =>
    intro key p hp
    exact (attributed_reads hattributed hreads key p hp).mono (List.subset_append_left as [a])
  | rejected w clock _ nonce _ outcome done rest _ _ hcommits =>
    have hw := attributed_reads hattributed hcommits.reads
    refine attributed_commits hw ?_ hcommits (traced_rejected hcommits (hw _))
    have hid : (service.sessionFrom a.message
        (w.store.dmSessions (service.keyOf a.message.header)) clock).sessionId =
          service.keyOf a.message.header := by
      cases hfound : w.store.dmSessions (service.keyOf a.message.header) with
      | none => rfl
      | some s => exact (hown.reads hcommits.reads).session s hfound
    exact { none_about with session := fun s hs => Option.some.inj hs ▸ hid }
  | accepted w session device outcome changes done rest hnumbered hopens hid hanswers habout
      hcommits =>
    have hw := attributed_reads hattributed hcommits.reads
    obtain ⟨u, hopens⟩ := opens_iff.mp hopens
    exact attributed_commits hw habout hcommits (traced_accepted hscheme
      ⟨rfl, hcommits.weathered, hnumbered, hopens, hid⟩ hanswers habout hcommits hintrudes (hw _))

theorem isolated_attempted (hintrudes : ¬ service.Intrudes a)
    (hattributed : Attributed service as a.before) : service.Isolated (as ++ [a]) a := by
  rintro u part ⟨response, w, session, queue, required, rest, -, hweathered, hopens, hqueue, -, rfl⟩
    i hi hcommand
  have hi' : .item i ∈ part ++ rest := List.mem_append_left rest hi
  unfold replyQueue at hqueue
  split_ifs at hqueue with hends
  -- the session ends: there are acknowledgements only
  · rw [← (Prod.mk.inj (Except.ok.inj hqueue)).1] at hi'
    exact absurd hi' acks_no_item
  · have hongoing : Ongoing a.message := by
      simpa [Ongoing] using hends
    cases hcurrent : (currentRemainder session
        (w.store.dmPending (service.keyOf a.message.header))).1 with
    | none =>
      -- a package starts: only that of the phase `devinfo` holds a configuration
      rw [hcurrent, answerQueue] at hqueue
      obtain ⟨queue, hpackage, hqueue⟩ := Except.bind_eq_ok.mp hqueue
      obtain ⟨rfl, -⟩ := Prod.mk.inj (Except.ok.inj hqueue)
      unfold packageQueue at hpackage
      split_ifs at hpackage with hinit hdevinfo
      · rw [← Except.ok.inj hpackage] at hi'
        rw [inventoryQueue_gets hi'] at hcommand
        exact absurd hcommand (by decide)
      · cases hvalues : service.configurationValues session
          (ownSubscriber session a.before.store.subscribers) with
        | error e =>
          rw [hvalues] at hpackage
          cases hpackage
        | ok values =>
          rw [hvalues] at hpackage
          obtain hpackage := Except.ok.inj hpackage
          exact ⟨a, List.mem_append_right _ (List.mem_singleton_self a), part ++ rest,
            ⟨w, session, values, hweathered, hopens, hdevinfo, hvalues, hpackage.symm⟩, hi'⟩
      · rw [← Except.ok.inj hpackage] at hi'
        exact absurd hi' acks_no_item
    | some p =>
      -- a remainder goes on: it was rendered for the subscriber of the session, who is the sender
      obtain ⟨hp, hphase, -⟩ := currentRemainder_some hcurrent
      rw [hcurrent, answerQueue] at hqueue
      obtain ⟨unsent, hunsent, hqueue⟩ := Except.bind_eq_ok.mp hqueue
      have hsplit := (Prod.mk.inj (Except.ok.inj hqueue)).1
      have hmem : .item i ∈ unsent := by
        rw [← hsplit] at hi'
        exact (List.mem_append.mp hi').resolve_left acks_no_item
      have hp' := hweathered.pending_of_some hp
      obtain ⟨hconfigure, hrendered⟩ :=
        ((hattributed _ p hp').unsent unsent hunsent).2 i hmem hcommand
      cases hfound : w.store.dmSessions (service.keyOf a.message.header) with
      | none =>
        have hinit := hopens.phase
        rw [hfound, ← hphase, hconfigure] at hinit
        exact absurd (show "configure" = "init" from hinit) (by decide)
      | some s =>
        have hs := hweathered.session_of_some hfound
        have hsphase := hopens.phase
        rw [hfound, ← hphase, hconfigure] at hsphase
        have hsphase : s.phase = "configure" := hsphase.symm
        obtain ⟨clock, number, hverdict, -, -⟩ := hopens
        rw [hfound] at hverdict
        have hu : u = s.imsi := by
          by_contra hu
          exact hintrudes ⟨s, p, unsent, i, u, hongoing, hs, hsphase, hp', hconfigure, hunsent, hmem,
            hcommand, hverdict, hu⟩
        rw [hu]
        exact renderedFor_mono (hrendered s hs hsphase) (List.subset_append_left as [a])

theorem told_of_carries {response : DmResponse} {part : List Entry} (hanswer : a.Answered response)
    (h : service.Carries (service.keyOf a.message.header) a response.body part) :
    ∃ u, service.Told a u part := by
  obtain ⟨w, session, queue, required, rest, hweathered, hongoing, hopens, hqueue, hnext, hsplit⟩ := h
  obtain ⟨u, hopens⟩ := opens_iff.mp hopens
  refine ⟨u, response, w, session, queue, required, rest, hanswer, hweathered, hopens, ?_, hnext,
    hsplit⟩
  rw [replyQueue, hongoing.1, hongoing.2]
  exact hqueue

theorem answered_told {response : DmResponse}
    (h : Attempted service (service.keyOf a.message.header) a) (hkeyed : Keyed a.before.store)
    (hanswer : a.Answered response) (hmetric : response.metric ≠ "DmAuthRejected") :
    ∃ u part, service.Told a u part := by
  have hown : Own (service.keyOf a.message.header) a.before := hkeyed.own
  cases attempted_course h hown with
  | idle _ _ hnot => exact absurd hanswer (hnot response)
  | rejected w clock _ nonce _ outcome done rest _ hrejected hcommits =>
    rcases hcommits.result with ⟨-, hr⟩ | ⟨-, e, hr⟩
    · obtain rfl := Except.ok.inj (hr.symm.trans hanswer.1)
      exact absurd ((sent_metric ..).trans hrejected) hmetric
    · cases hr.symm.trans hanswer.1
  | accepted w session device outcome changes done rest hnumbered hopens hid hanswers habout
      hcommits =>
    obtain ⟨rfl, rfl, h200, -, -⟩ := commits_answered hcommits habout hanswer
    -- whatever the handler, its answer holds a part of what it was taken from
    have htold : ∀ {part : List Entry},
        service.Carries (service.keyOf a.message.header) a outcome.body part →
        ∃ u part, service.Told a u part := by
      intro part hcarries
      obtain ⟨u, htold⟩ := told_of_carries hanswer ((sent_body a.binary outcome).symm ▸ hcarries)
      exact ⟨u, part, htold⟩
    cases hanswers with
    | ended metric detail body hends hnext =>
      obtain ⟨u, hopens⟩ := opens_iff.mp hopens
      refine ⟨u, service.acks a.message, _, w, session, service.acks a.message,
        (service.acks a.message).length, [], hanswer, hcommits.weathered, hopens, ?_, ?_,
        (List.append_nil _).symm⟩
      · refine if_pos ?_
        simpa only [Ongoing, not_and_or, Bool.not_eq_false, Bool.or_eq_true] using hends
      · rw [sent_body]
        exact hnext
    | tooManyMessages => exact absurd h200 (by decide)
    | noAlert => exact absurd h200 (by decide)
    | inventory _ _ hongoing hnone hphase hrequest =>
      obtain ⟨rest, body, pending, hstarts, rfl, -⟩ := requestInventory_ok hrequest
      obtain ⟨part, -, hcarries⟩ := carries_starts hcommits.weathered hongoing hopens hnone
        (by rw [packageQueue, if_pos hphase]) hstarts rfl rfl
      exact htold hcarries
    | configuration _ _ hongoing hnone hphase hpush =>
      obtain ⟨values, rest, body, pending, hvalues, hstarts, rfl, -⟩ := pushConfiguration_ok hpush
      have hqueue : service.packageQueue a.message session a.before.store.subscribers =
          .ok (service.configurationQueue a.message values) := by
        rw [packageQueue, if_neg (by rw [hphase]; decide), if_pos hphase, hvalues]
        rfl
      obtain ⟨part, -, hcarries⟩ := carries_starts hcommits.weathered hongoing hopens hnone
        hqueue hstarts rfl rfl
      exact htold hcarries
    | finish _ _ hongoing hnone hinit hdevinfo hfinish =>
      obtain ⟨rest, body, pending, hstarts, hfinishes⟩ := handleFinish_ok hfinish
      have hqueue : service.packageQueue a.message session a.before.store.subscribers =
          .ok (service.acks a.message) := by
        rw [packageQueue, if_neg hinit, if_neg hdevinfo]
      obtain ⟨part, -, hcarries⟩ := carries_starts hcommits.weathered hongoing hopens hnone
        hqueue hstarts rfl rfl
      exact htold (hfinishes.body_eq.symm ▸ hcarries)
    | continued p _ _ hongoing hsome _ hsend =>
      obtain ⟨unsent, body, rest, hunsent, hnext, hcontinues⟩ := sendNext_ok hsend
      obtain ⟨part, -, hcarries⟩ :=
        carries_continued hcommits.weathered hongoing hopens hsome hunsent hnext
      exact htold (hcontinues.body_eq.symm ▸ hcarries)

theorem reached_attempted (h : Attempted service key a) (hreached : Reached a.before) :
    Reached a.after :=
  hreached.exec (fun _ _ _ _ hop => hop) h.exec

theorem isolated_traffic (hscheme : service.settings.dmAuthScheme ≠ .none) {w : World}
    {earlier front later : List Attempt} (hreached : Reached w)
    (hattributed : Attributed service earlier w) (h : service.Traffic w (front ++ a :: later))
    (hintrudes : ∀ a' ∈ front ++ a :: later, ¬ service.Intrudes a') :
    service.Addressed a ∧ service.Isolated (earlier ++ front ++ [a]) a := by
  induction front generalizing w earlier with
  | nil =>
    obtain ⟨hsessions, hpending, hattempted, -⟩ := h
    have hattributed' : Attributed service earlier a.before := by
      unfold Attributed
      rwa [hsessions, hpending]
    rw [List.append_nil]
    exact ⟨fun response hanswer hmetric =>
        answered_told hattempted (hreached.elsewhere hsessions hpending).keyed hanswer hmetric,
      isolated_attempted (hintrudes a List.mem_cons_self) hattributed'⟩
  | cons b front ih =>
    obtain ⟨hsessions, hpending, hattempted, hrest⟩ := h
    obtain ⟨hintrude, hintrudes⟩ := List.forall_mem_cons.mp hintrudes
    have hreached' : Reached b.before := hreached.elsewhere hsessions hpending
    have hattributed' : Attributed service earlier b.before := by
      unfold Attributed
      rwa [hsessions, hpending]
    have hisolated := ih (reached_attempted hattempted hreached')
      (attributed_attempted hscheme hattempted hreached'.keyed hintrude hattributed') hrest hintrudes
    rwa [List.append_assoc earlier, List.singleton_append] at hisolated

/-- No message is answered with the configuration of another subscriber, in every run from an empty
store in which none comes while some of that is unsent in its session. -/
theorem configuration_isolated {w : World} (hscheme : service.settings.dmAuthScheme ≠ .none)
    (hsessions : w.store.dmSessions = fun _ => none) (hpending : w.store.dmPending = fun _ => none)
    {earlier later : List Attempt} (h : service.Traffic w (earlier ++ a :: later))
    (hintrudes : ∀ a' ∈ earlier ++ a :: later, ¬ service.Intrudes a') :
    service.Addressed a ∧ service.Isolated (earlier ++ [a]) a := by
  have hattributed : Attributed service [] w := by
    intro key p hp
    rw [hpending] at hp
    cases hp
  exact isolated_traffic hscheme (.start hsessions hpending) hattributed h hintrudes

/-! ### Two subscribers in one session -/

theorem traffic_of_straight {w : World} (h : Attempts service key w as) (hstraight : Straight w as) :
    service.Traffic w as := by
  induction as generalizing w with
  | nil => trivial
  | cons a as ih =>
    obtain ⟨-, hattempted, hrest⟩ := h
    obtain ⟨rfl, hstraight⟩ := hstraight
    exact ⟨rfl, rfl, hattempted.keyed.symm ▸ hattempted, ih hrest hstraight⟩

theorem found_of_unexpired (h : Attempted service key a)
    (hunexpired : Unexpired key a.before a.after.clock) :
    ∃ w, Weathered key a.before w a.trace ∧ Undisturbed key a.before w := by
  rcases attempted_cases h with ⟨hweathered, hreads, -⟩ |
    ⟨w, tr, outcome, changes, done, rest, -, -, hcommits⟩
  · exact ⟨a.after, hweathered, undisturbed_of_reads hreads (Int.le_refl _) hunexpired⟩
  · exact ⟨w, hcommits.weathered, undisturbed_of_reads hcommits.reads hcommits.time hunexpired⟩

theorem told_shares {part : List Entry} {s : DmSession}
    (h : Attempted service (service.keyOf a.message.header) a) (hongoing : Ongoing a.message)
    (hunexpired : Unexpired (service.keyOf a.message.header) a.before a.after.clock)
    (hs : a.before.store.dmSessions (service.keyOf a.message.header) = some s)
    (htold : service.Told a u part) :
    service.verdict a.message (service.openSession a.message.header s) a.before.store.subscribers =
        .accepted u ∧
      ∃ rest, service.shares a.message a.encode a.before.store.subscribers s
        (a.before.store.dmPending (service.keyOf a.message.header)) = some (part ++ rest, rest) := by
  obtain ⟨response, w, session, queue, required, rest, -, hweathered, hopens, hqueue, hnext, hsplit⟩ :=
    htold
  obtain ⟨w', hweathered', hsame⟩ := found_of_unexpired h hunexpired
  obtain ⟨hsessions, hpending⟩ := hweathered'.unique hweathered
  rw [hsessions, hsame.1, hs] at hopens
  rw [hpending, hsame.2] at hqueue
  constructor
  · obtain ⟨clock, number, hverdict, -, -⟩ := hopens
    exact hverdict
  · refine ⟨rest, ?_⟩
    have hqueue : service.answerQueue a.message session (currentRemainder session
        (a.before.store.dmPending (service.keyOf a.message.header))).1 a.before.store.subscribers =
          .ok (queue, required) := by
      rw [replyQueue, hongoing.1, hongoing.2] at hqueue
      exact hqueue
    rw [shares, openedFrom_of_opens (opens_iff.mpr ⟨u, hopens⟩), ← hsplit]
    show ((service.answerQueue _ _ _ _).toOption.bind fun _ => _) = _
    rw [hqueue]
    show ((service.nextMessage _ _ _ _ _ _).toOption.bind fun _ => _) = _
    rw [hnext]
    rfl

def leaks (service : DmService) (key other : String) (payload : Bytes) (w w' : World) : Bool :=
  match service.read payload contentTypeXml, w.store.dmSessions key, w.store.dmPending key with
  | .ok (message, _, encode), some s, some p =>
    !message.hasAlert alertSessionAbort && !message.hasAlert alertEndOfSession &&
      s.phase = "configure" && !MemoryStore.lapsed s.expiresAt w'.clock &&
      !MemoryStore.lapsed p.expiresAt w'.clock &&
      service.verdict message (service.openSession message.header s) w.store.subscribers =
        .accepted other &&
      match service.shares message encode w.store.subscribers s (some p) with
      | some (queue, rest) => (queue.take (queue.length - rest.length)).any fun
        | .item i => i.command ∈ ["Add", "Replace"]
        | .status _ => false
      | none => false
  | _, _, _ => false

theorem leaked {response : DmResponse} {other : String}
    (h : Attempted service (service.keyOf a.message.header) a) (hkeyed : Keyed a.before.store)
    (htype : a.contentType = contentTypeXml) (hanswer : a.Answered response)
    (hmetric : response.metric ≠ "DmAuthRejected")
    (hleaks : service.leaks (service.keyOf a.message.header) other a.payload a.before a.after = true) :
    ∃ part i, service.Told a other part ∧ .item i ∈ part ∧ i.command ∈ ["Add", "Replace"] ∧
      ∀ u package, ¬ service.RendersFor a u package := by
  have hread := h.read
  rw [htype] at hread
  unfold leaks at hleaks
  rw [hread] at hleaks
  split at hleaks
  · rename_i message binary encode s p hmessage hs hp
    obtain ⟨rfl, -, rfl⟩ := Except.ok.inj hmessage
    simp only [Bool.and_eq_true, decide_eq_true_eq, Bool.not_eq_true'] at hleaks
    obtain ⟨⟨⟨⟨⟨⟨habort, hend⟩, hphase⟩, hsession⟩, hpending⟩, hverdict⟩, hitem⟩ := hleaks
    have hunexpired : Unexpired (service.keyOf a.message.header) a.before a.after.clock := by
      constructor
      · intro s' hs'
        obtain rfl := Option.some.inj (hs.symm.trans hs')
        simpa using hsession
      · intro p' hp'
        obtain rfl := Option.some.inj (hp.symm.trans hp')
        simpa using hpending
    obtain ⟨u, part, htold⟩ := answered_told h hkeyed hanswer hmetric
    obtain ⟨hverdict', rest, hshares⟩ := told_shares h ⟨habort, hend⟩ hunexpired hs htold
    obtain rfl := Auth.Verdict.accepted.inj (hverdict'.symm.trans hverdict)
    rw [hp] at hshares
    rw [hshares] at hitem
    obtain ⟨e, he, hcommand⟩ := List.any_eq_true.mp hitem
    rw [List.length_append, Nat.add_sub_cancel, List.take_left] at he
    cases e with
    | status => cases hcommand
    | item i =>
      refine ⟨part, i, htold, he, of_decide_eq_true hcommand, ?_⟩
      rintro u' package ⟨w, session, values, hweathered, hopens, hdevinfo, -, -⟩
      obtain ⟨w', hweathered', hsame⟩ := found_of_unexpired h hunexpired
      have hsphase := hopens.phase
      rw [(hweathered'.unique hweathered).1, hsame.1, hs, hdevinfo] at hsphase
      exact absurd (show "devinfo" = s.phase from hsphase) (by rw [hphase]; decide)
  · cases hleaks

end DmService

namespace Lab
open Xml Xml.Element

def otherImsi : String := "450059999999999"

def otherLogin : String := "NDUwMDU5OTk5OTk5OTk5OnB3LTk5OTk="

def takesOver : Element := brief "2" [] [cred otherLogin, atMost "1000"]

def meets : Element := brief "3" [] [cred otherLogin]

def shared : DmService :=
  let own := server [enters, halves, takesOver, meets] .basic
  { own with crypto := { own.crypto with
      decodeBase64 := fun s =>
        if s = otherLogin then some (otherImsi ++ ":" ++ "pw-9999") else own.crypto.decodeBase64 s } }

def sharedWorld : World :=
  { world with store := { world.store with
      subscribers := Function.update world.store.subscribers otherImsi
        (some { subscriber with imsi := otherImsi, dmPassword := "pw-9999" }) } }

def letsIn (service : DmService) (key user : String) (payload : Bytes) (w : World) : Bool :=
  match service.read payload contentTypeXml with
  | .ok (message, _, _) => service.verdict message
      (service.sessionFrom message (w.store.dmSessions key) w.clock) w.store.subscribers =
        .accepted user
  | .error _ => false

/-- A handset takes half of its configuration, and the other subscriber asks for the rest. -/
def sharedRun : List DmService.Trial :=
  [{ payload := sent enters
     expected := DmService.answers200 "DmInventoryRequested" "get:1" },
   { payload := sent halves
     expected w r w' := letsIn shared key imsi (sent halves) w &&
       DmService.answers200 "DmConfigPushed" "add:1 replace:1" w r w' },
   { payload := sent meets
     expected w r w' := shared.leaks key otherImsi (sent meets) w w' &&
       DmService.answers200 "DmPackageContinued" "pending:0" w r w' }]

def owned (user : String) (w : World) : Bool :=
  (w.store.dmSessions key).all (fun s => s.imsi = user) && (w.store.dmPending key).isSome

/-- The other subscriber speaks before any of the configuration is sent, and takes its own in two
messages. -/
def takenOverRun : List DmService.Trial :=
  [{ payload := sent enters
     expected w r w' := (w.store.dmPending key).isNone &&
       DmService.answers200 "DmInventoryRequested" "get:1" w r w' },
   { payload := sent takesOver
     expected w r w' := (w.store.dmPending key).isNone &&
       DmService.answers200 "DmConfigPushed" "add:1 replace:1" w r w' },
   { payload := sent meets
     expected w r w' := letsIn shared key otherImsi (sent meets) w && (owned otherImsi w &&
       DmService.answers200 "DmPackageContinued" "pending:0" w r w') }]

end Lab

section Renders
variable {service : DmService} {a : Attempt} {u user : String} {package : List Entry}

theorem not_renders_of_fresh
    (h : a.before.store.dmSessions (service.keyOf a.message.header) = none) :
    ¬ service.RendersFor a u package := by
  rintro ⟨w, session, values, hweathered, hopens, hphase, -, -⟩
  have hnone : w.store.dmSessions (service.keyOf a.message.header) = none := by
    cases hfound : w.store.dmSessions (service.keyOf a.message.header) with
    | none => rfl
    | some s => cases h.symm.trans (hweathered.session_of_some hfound)
  have hinit := hopens.phase
  rw [hnone, hphase] at hinit
  exact absurd (show "devinfo" = "init" from hinit) (by decide)

theorem not_renders_of_letsIn (hread : service.read a.payload contentTypeXml =
      .ok (a.message, a.binary, a.encode))
    (h : Lab.letsIn service (service.keyOf a.message.header) user a.payload a.before = true)
    (hne : user ≠ u) : ¬ service.RendersFor a u package := by
  rintro ⟨w, session, values, hweathered, hopens, hphase, -, -⟩
  unfold Lab.letsIn at h
  rw [hread] at h
  have hverdict := of_decide_eq_true h
  cases hfound : w.store.dmSessions (service.keyOf a.message.header) with
  | none =>
    have hinit := hopens.phase
    rw [hfound, hphase] at hinit
    exact absurd (show "devinfo" = "init" from hinit) (by decide)
  | some s =>
    obtain ⟨clock, number, hverdict', -, -⟩ := hopens
    rw [hweathered.session_of_some hfound] at hverdict
    rw [hfound, DmService.verdict_sessionFrom clock a.before.clock, hverdict] at hverdict'
    exact hne (Auth.Verdict.accepted.inj hverdict')

theorem not_intrudes_of_isNone
    (h : (a.before.store.dmPending (service.keyOf a.message.header)).isNone = true) :
    ¬ service.Intrudes a := by
  rintro ⟨s, p, unsent, i, u, -, -, -, hp, -⟩
  rw [hp] at h
  cases h

theorem not_intrudes_of_letsIn (hread : service.read a.payload contentTypeXml =
      .ok (a.message, a.binary, a.encode))
    (h : Lab.letsIn service (service.keyOf a.message.header) user a.payload a.before = true)
    (himsi : ∀ s ∈ a.before.store.dmSessions (service.keyOf a.message.header), s.imsi = user) :
    ¬ service.Intrudes a := by
  rintro ⟨s, p, unsent, i, u, -, hs, -, -, -, -, -, -, hverdict, hne⟩
  unfold Lab.letsIn at h
  rw [hread] at h
  have haccepted := of_decide_eq_true h
  rw [hs] at haccepted
  have huser : user = u := Auth.Verdict.accepted.inj (haccepted.symm.trans hverdict)
  exact hne (huser.symm.trans (himsi s hs).symm)

end Renders

/-- A second subscriber takes a session over, and is sent its own configuration in two messages. -/
theorem configuration_isolated_takenOver : ∃ w earlier a,
    Lab.shared.Traffic w (earlier ++ [a]) ∧ a.before.store.dmPending Lab.key ≠ none ∧
      Lab.letsIn Lab.shared Lab.key Lab.otherImsi a.payload a.before = true ∧
      Lab.shared.Addressed a ∧ Lab.shared.Isolated (earlier ++ [a]) a := by
  have htries : Lab.shared.tries Lab.key Lab.sharedWorld Lab.takenOverRun = true := by
    decide +kernel
  obtain ⟨_, hrun, hstraight, hmeets⟩ := DmService.straight_of_tries htries
  obtain ⟨a₁, _, h₁, hmeets₁, rfl⟩ := List.forall₂_cons_right_iff.mp hmeets
  obtain ⟨a₂, _, h₂, hmeets₂, rfl⟩ := List.forall₂_cons_right_iff.mp hmeets₁
  obtain ⟨a₃, _, h₃, hmeets₃, rfl⟩ := List.forall₂_cons_right_iff.mp hmeets₂
  obtain rfl := List.forall₂_nil_right_iff.mp hmeets₃
  obtain ⟨hnone₁, -⟩ := Bool.and_eq_true_iff.mp h₁.expected
  obtain ⟨hnone₂, -⟩ := Bool.and_eq_true_iff.mp h₂.expected
  have hexpected₃ := h₃.expected
  dsimp only at hexpected₃
  rw [Bool.and_eq_true, Bool.and_eq_true, Lab.owned, Bool.and_eq_true] at hexpected₃
  obtain ⟨hletsIn, ⟨himsi, hsome⟩, -⟩ := hexpected₃
  rw [← show a₃.payload = Lab.sent Lab.meets from h₃.payload] at hletsIn
  have htraffic : Lab.shared.Traffic Lab.sharedWorld ([a₁, a₂] ++ a₃ :: []) :=
    DmService.traffic_of_straight hrun hstraight
  have hattempted := hrun.attempted
  simp only [List.forall_mem_cons] at hattempted
  obtain ⟨hattempted₁, hattempted₂, hattempted₃, -⟩ := hattempted
  have hread₃ := hattempted₃.read
  rw [h₃.contentType] at hread₃
  have hlets₃ := hletsIn
  rw [← hattempted₃.keyed] at hlets₃
  have hintrudes : ∀ a ∈ [a₁, a₂] ++ a₃ :: [], ¬ Lab.shared.Intrudes a := by
    simp only [List.cons_append, List.nil_append, List.forall_mem_cons]
    refine ⟨not_intrudes_of_isNone (hattempted₁.keyed ▸ hnone₁),
      not_intrudes_of_isNone (hattempted₂.keyed ▸ hnone₂), ?_, fun _ h => (by cases h)⟩
    refine not_intrudes_of_letsIn hread₃ hlets₃ fun s hs => ?_
    rw [hattempted₃.keyed] at hs
    rw [hs] at himsi
    exact of_decide_eq_true himsi
  refine ⟨_, [a₁, a₂], a₃, htraffic, fun hnone => ?_, hletsIn,
    DmService.configuration_isolated (by decide) rfl rfl htraffic hintrudes⟩
  rw [hnone] at hsome
  cases hsome

/-- A subscriber that names the session of another is answered with the rest of the configuration of
that one. -/
theorem configuration_leaks : ∃ w earlier a,
    Lab.shared.settings.dmAuthScheme ≠ .none ∧ (w.store.dmSessions = fun _ => none) ∧
      (w.store.dmPending = fun _ => none) ∧ Lab.shared.Traffic w (earlier ++ [a]) ∧
      ¬ Lab.shared.Isolated (earlier ++ [a]) a := by
  have htries : Lab.shared.tries Lab.key Lab.sharedWorld Lab.sharedRun = true := by
    decide +kernel
  obtain ⟨_, hrun, hstraight, hmeets⟩ := DmService.straight_of_tries htries
  obtain ⟨a₁, _, h₁, hmeets₁, rfl⟩ := List.forall₂_cons_right_iff.mp hmeets
  obtain ⟨a₂, _, h₂, hmeets₂, rfl⟩ := List.forall₂_cons_right_iff.mp hmeets₁
  obtain ⟨a₃, _, h₃, hmeets₃, rfl⟩ := List.forall₂_cons_right_iff.mp hmeets₂
  obtain rfl := List.forall₂_nil_right_iff.mp hmeets₃
  have hexpected₂ := h₂.expected
  have hexpected₃ := h₃.expected
  dsimp only at hexpected₂ hexpected₃
  rw [Bool.and_eq_true] at hexpected₂ hexpected₃
  obtain ⟨hletsIn, -⟩ := hexpected₂
  obtain ⟨hleaks, hanswers⟩ := hexpected₃
  obtain ⟨response, hanswer, hmetric, -⟩ := DmService.answered_of_answers200 hanswers
  refine ⟨_, [a₁, a₂], a₃, by decide, rfl, rfl, DmService.traffic_of_straight hrun hstraight, ?_⟩
  obtain ⟨⟨-, -⟩, hattempted₁, -, hattempted₂, -, hattempted₃, -⟩ := hrun
  obtain ⟨hbefore₁, hbefore₂, hbefore₃, -⟩ := hstraight
  have hreached₂ : Reached a₂.before := by
    rw [hbefore₂]
    exact DmService.reached_attempted hattempted₁ (hbefore₁ ▸ .start rfl rfl)
  have hreached₃ : Reached a₃.before := by
    rw [hbefore₃]
    exact DmService.reached_attempted hattempted₂ hreached₂
  rw [← show a₂.payload = Lab.sent Lab.halves from h₂.payload, ← hattempted₂.keyed] at hletsIn
  rw [← show a₃.payload = Lab.sent Lab.meets from h₃.payload, ← hattempted₃.keyed] at hleaks
  obtain ⟨part, i, htold, hi, hcommand, hrenders⟩ := DmService.leaked
    (hattempted₃.keyed.symm ▸ hattempted₃) hreached₃.keyed h₃.contentType hanswer
    (by rw [hmetric]; decide) hleaks
  intro hisolated
  obtain ⟨a, ha, package, hfor, -⟩ := hisolated _ part htold i hi hcommand
  simp only [List.cons_append, List.nil_append, List.mem_cons, List.not_mem_nil, or_false] at ha
  rcases ha with rfl | rfl | rfl
  · exact not_renders_of_fresh (by rw [hbefore₁]; rfl) hfor
  · have hread := hattempted₂.read
    rw [h₂.contentType] at hread
    exact not_renders_of_letsIn hread hletsIn (show Lab.imsi ≠ Lab.otherImsi by decide +kernel) hfor
  · exact hrenders _ _ hfor

end Acs.Omadm
