import Acs.Omadm.Failures
import Acs.Omadm.Portions

/-! A session is reported complete when all of its configuration has been sent, unless its remainder
was lost. -/

namespace Acs.Omadm
open Interleave Package

namespace Attempt

def Pushes (a : Attempt) : Prop :=
  ∃ response, a.Answered response ∧ response.metric = "DmConfigPushed"

def Completes (a : Attempt) : Prop :=
  ∃ response, a.Answered response ∧
    response.metric ∈ ["DmSessionComplete", "DmSessionCompleteWithErrors"]

end Attempt

def Sent (service : DmService) (key : String) (a : Attempt) (e : Entry) : Prop :=
  ∃ response part, a.Answered response ∧ service.Carries key a response.body part ∧ e ∈ part

def PackageOf (service : DmService) (key : String) (a : Attempt) (package : List Entry) : Prop :=
  ∃ w session values, Weathered key a.before w a.trace ∧
    service.Opens a.message a.before.store.subscribers (w.store.dmSessions key) session ∧
    session.phase = "devinfo" ∧
    service.configurationValues session (ownSubscriber session a.before.store.subscribers) =
      .ok values ∧
    package = service.configurationQueue a.message values

/-- Of the configuration that was pushed last, only these entries have not been sent. -/
def Outstanding (service : DmService) (key : String) (as : List Attempt) (unsent : List Entry) :
    Prop :=
  ∃ before pushed since package, as = before ++ pushed :: since ∧ pushed.Pushes ∧
    PackageOf service key pushed package ∧ (∀ a ∈ since, ¬ a.Pushes) ∧
    ∀ i, .item i ∈ package → (∃ a ∈ pushed :: since, Sent service key a (.item i)) ∨ .item i ∈ unsent

/-- Attempts at the messages of a session that starts with the first of them. -/
structure SessionRun (service : DmService) (key : String) (w : World) (as : List Attempt) :
    Prop where
  own : Own key w
  fresh : w.store.dmSessions key = none
  run : Attempts service key w as

def Owes (key : String) (w : World) : Prop :=
  ∃ s p unsent i, w.store.dmSessions key = some s ∧ s.phase = "configure" ∧
    w.store.dmPending key = some p ∧ p.phase = "configure" ∧
    fromStored p.entries = .ok unsent ∧ .item i ∈ unsent

/-- The remainder was found to have lapsed, and the session, which is read before it, was not. -/
def Torn (key : String) (a : Attempt) : Prop :=
  ⟨.getDmPending key, .ok none⟩ ∈ a.trace ∧ ⟨.getDmSession key, .ok none⟩ ∉ a.trace

/-- The remainder was deleted with a session that was to end, and the session was not. -/
def HalfEnded (key : String) (a : Attempt) : Prop :=
  ⟨.write (.deleteDmPending key), .ok ()⟩ ∈ a.trace ∧
    ∃ e, ⟨.write (.deleteDmSession key), .error e⟩ ∈ a.trace

def Loses (key : String) (a : Attempt) : Prop := Owes key a.before ∧ (Torn key a ∨ HalfEnded key a)

theorem Owes.weathered {key : String} {w w' : World} {tr : List (Event DmOp.Answer)}
    (h : Owes key w') (hweathered : Weathered key w w' tr) : Owes key w := by
  obtain ⟨s, p, unsent, i, hs, hphase, hp, hrest⟩ := h
  exact ⟨s, p, unsent, i, hweathered.session_of_some hs, hphase, hweathered.pending_of_some hp, hrest⟩

/-! ### What a session owes -/

structure Remains (key : String) (w : World) (unsent : List Entry) : Prop where
  pending : ∃ p, w.store.dmPending key = some p ∧ p.phase = "configure" ∧
    fromStored p.entries = .ok unsent
  known : Known unsent

/-- A session has not pushed its configuration yet, or all of that has been sent but for the
remainder stored. -/
inductive Accounted (service : DmService) (key : String) (as : List Attempt) (w : World)
    (phase : String) : Prop
  | opening : phase ∈ ["init", "devinfo"] → Accounted service key as w phase
  | settled : phase ∈ ["configure", "done"] → Outstanding service key as [] →
    Accounted service key as w phase
  | owing (unsent : List Entry) : phase = "configure" → Remains key w unsent →
    Outstanding service key as unsent → Accounted service key as w phase

section Outstanding
variable {service : DmService} {key : String} {as : List Attempt} {a : Attempt}
  {unsent rest : List Entry} {w w' : World} {phase : String}

theorem Outstanding.of_no_items (h : Outstanding service key as unsent)
    (hnone : ∀ i, .item i ∉ unsent) : Outstanding service key as [] := by
  obtain ⟨before, pushed, since, package, has, hpushes, hpackage, hsince, hitems⟩ := h
  refine ⟨before, pushed, since, package, has, hpushes, hpackage, hsince, fun i hi => ?_⟩
  exact Or.inl ((hitems i hi).resolve_right (hnone i))

theorem Outstanding.concat (h : Outstanding service key as unsent) (hpushes : ¬ a.Pushes)
    (hsent : ∀ i, .item i ∈ unsent → Sent service key a (.item i) ∨ .item i ∈ rest) :
    Outstanding service key (as ++ [a]) rest := by
  obtain ⟨before, pushed, since, package, rfl, hpushed, hpackage, hsince, hitems⟩ := h
  refine ⟨before, pushed, since ++ [a], package, by simp, hpushed, hpackage, ?_, fun i hi => ?_⟩
  · exact List.forall_mem_append.mpr ⟨hsince, List.forall_mem_singleton.mpr hpushes⟩
  · rcases hitems i hi with ⟨b, hb, hsentBefore⟩ | hunsent
    · refine Or.inl ⟨b, ?_, hsentBefore⟩
      rw [← List.cons_append]
      exact List.mem_append_left _ hb
    · rcases hsent i hunsent with hnow | hrest
      · exact Or.inl ⟨a, by simp, hnow⟩
      · exact Or.inr hrest

theorem Outstanding.later (h : Outstanding service key as unsent) (hpushes : ¬ a.Pushes) :
    Outstanding service key (as ++ [a]) unsent := h.concat hpushes fun _ => Or.inr

theorem outstanding_pushed {package part : List Entry} (hpushes : a.Pushes)
    (hpackage : PackageOf service key a package) (hsplit : package = part ++ rest)
    (hsent : ∀ e ∈ part, Sent service key a e) : Outstanding service key (as ++ [a]) rest := by
  refine ⟨as, a, [], package, rfl, hpushes, hpackage, fun _ h => (by cases h), fun i hi => ?_⟩
  rw [hsplit] at hi
  rcases List.mem_append.mp hi with hpart | hrest
  · exact Or.inl ⟨a, List.mem_cons_self, hsent _ hpart⟩
  · exact Or.inr hrest

theorem Accounted.later (h : Accounted service key as w phase) (hpushes : ¬ a.Pushes) :
    Accounted service key (as ++ [a]) w phase := by
  cases h with
  | opening hphase => exact .opening hphase
  | settled hphase h => exact .settled hphase (h.later hpushes)
  | owing unsent hphase hremains h => exact .owing unsent hphase hremains (h.later hpushes)

theorem Accounted.of_pending (h : Accounted service key as w phase)
    (hpending : w'.store.dmPending key = w.store.dmPending key) :
    Accounted service key as w' phase := by
  cases h with
  | opening hphase => exact .opening hphase
  | settled hphase h => exact .settled hphase h
  | owing unsent hphase hremains h =>
    exact .owing unsent hphase ⟨hpending ▸ hremains.pending, hremains.known⟩ h

end Outstanding

namespace DmService

/-- Every session under the key is accounted for. -/
def Kept (service : DmService) (key : String) (as : List Attempt) (w : World) : Prop :=
  ∀ s ∈ w.store.dmSessions key, Accounted service key as w s.phase

variable {service : DmService} {key : String} {as : List Attempt} {a : Attempt} {w : World}
  {session : DmSession} {device : Device} {outcome response : DmResponse} {changes : DmChanges}
  {done rest : List DmWrite}

theorem kept_weathered (h : service.Kept key as a.before) (hloses : ¬ Loses key a)
    (hweathered : Weathered key a.before w a.trace) : service.Kept key as w := by
  intro s hs
  have hsession : ⟨.getDmSession key, .ok none⟩ ∉ a.trace := fun hgone => by
    rw [hweathered.sessionGone hgone] at hs
    cases hs
  rw [hweathered.sessionKept hsession] at hs
  have haccounted := h s hs
  by_cases hpending : ⟨.getDmPending key, .ok none⟩ ∈ a.trace
  · cases haccounted with
    | opening hphase => exact .opening hphase
    | settled hphase h => exact .settled hphase h
    | owing unsent hphase hremains h =>
      obtain ⟨p, hp, hpphase, hunsent⟩ := hremains.pending
      refine .settled (hphase ▸ List.mem_cons_self) (h.of_no_items fun i hi => hloses ?_)
      exact ⟨⟨s, p, unsent, i, hs, hphase, hp, hpphase, hunsent, hi⟩, Or.inl ⟨hpending, hsession⟩⟩
  · exact haccounted.of_pending (hweathered.pendingKept hpending)

theorem opens_accounted {found : Option DmSession} {message : SyncMlMessage}
    {subscribers : String → Option Subscriber}
    (hopens : service.Opens message subscribers found session)
    (h : ∀ s ∈ found, Accounted service key as w s.phase) :
    Accounted service key as w session.phase := by
  rw [hopens.phase]
  cases found with
  | none => exact .opening List.mem_cons_self
  | some s => exact h s rfl

theorem currentRemainder_of_phase {p : DmPendingPackage} (hphase : p.phase = session.phase) :
    currentRemainder session (some p) = (some p, {}) := by
  unfold currentRemainder
  exact if_neg (not_not.mpr hphase)

theorem written_pending_of_continued {p : DmPendingPackage} {message : SyncMlMessage}
    {encode : Encoder} (h : service.sendNext message session p {} encode device =
      .ok (outcome, changes)) (hne : session.sessionId ≠ "") (hstays : changes.deleteSessionId = "")
    (hwrites : changes.writes = done ++ rest) (hrest : rest ≠ []) (m : MemoryStore) :
    (written done m).dmPending key = m.dmPending key := by
  have hlast : ∃ last : DmWrite, changes.writes =
      [.putDevice device, .putDmSession (counted message session)] ++ [last] := by
    obtain ⟨unsent, body, rest', -, -, hcases⟩ := sendNext_ok h
    rcases hcases with ⟨-, -, heq⟩ | ⟨-, -, -, rfl⟩ | ⟨-, -, entries, -, rfl⟩
    · obtain ⟨-, rfl⟩ := Prod.mk.inj heq
      exact absurd (counted_sessionId.symm.trans hstays) hne
    · refine ⟨.deleteDmPending session.sessionId, ?_⟩
      simp [DmChanges.writes, DmChanges.saveSession, DmChanges.saveRemainder, hne]
    · refine ⟨.putDmPending { p with entries, messages := p.messages + 1 }, ?_⟩
      simp [DmChanges.writes, DmChanges.saveSession, DmChanges.saveRemainder]
  obtain ⟨last, hlast⟩ := hlast
  have hdone := mem_front (hwrites.symm.trans hlast) hrest
  rcases @written_pending key done m with hsame | ⟨hmem, -⟩ | ⟨p, hmem, -, -⟩
  · exact hsame
  · exact absurd (hdone _ hmem) (by simp)
  · exact absurd (hdone _ hmem) (by simp)

theorem session_left
    (hopens : service.Opens a.message a.before.store.subscribers (w.store.dmSessions key) session)
    (hanswers : Answers service a.message session a.encode
      (currentRemainder session (w.store.dmPending key)).1
      (currentRemainder session (w.store.dmPending key)).2 a.before.store.subscribers device
      outcome changes)
    (hcommits : a.Commits key w outcome changes done rest)
    (hanswer : ∀ response, ¬ a.Answered response) :
    ∀ s ∈ a.after.store.dmSessions key, s.phase = session.phase := by
  intro s hs
  rcases session_of_commits hcommits s hs with hs | ⟨hmem, hput⟩
  · rw [hopens.phase, Option.mem_def.mp hs]
    rfl
  · -- it was written before a write that raised
    have h200 := answers_status rfl (currentRemainder_changes session _ ▸ hanswers) hput
    obtain ⟨hrest, -⟩ := commits_unanswered hcommits h200 hanswer
    rw [unfinished_session hanswers hcommits.writes hrest hmem, counted_phase]

/-- The session is accounted for after the message, which completes none that owes some of its
configuration. -/
def Upheld (service : DmService) (key : String) (as : List Attempt) (a : Attempt)
    (metric : String) : Prop :=
  service.Kept key (as ++ [a]) a.after ∧
    (metric ∈ ["DmSessionComplete", "DmSessionCompleteWithErrors"] → Outstanding service key as [])

section Answered
variable (hanswer : a.Answered (sent a.binary outcome))
  (hsessions : a.after.store.dmSessions key = changes.session)
  (hpending : a.after.store.dmPending key = changes.pending)
  (haccounted : Accounted service key as w session.phase) {base : DmChanges}

include hanswer in
theorem not_pushes_of_metric (hmetric : outcome.metric ≠ "DmConfigPushed") : ¬ a.Pushes := by
  rintro ⟨response', hanswer', hpushed⟩
  obtain rfl := Except.ok.inj (hanswer.1.symm.trans hanswer'.1)
  exact hmetric ((sent_metric ..).symm.trans hpushed)

include hanswer in
theorem sent_of_carries {part : List Entry} (hcarries : service.Carries key a outcome.body part) :
    ∀ e ∈ part, Sent service key a e :=
  fun _ he => ⟨_, _, hanswer, (sent_body a.binary outcome).symm ▸ hcarries, he⟩

include hsessions in
theorem inventory_upheld
    (h : service.requestInventory a.message session base a.encode device = .ok (outcome, changes)) :
    Upheld service key as a outcome.metric := by
  obtain ⟨rest, body, pending, -, rfl, rfl⟩ := requestInventory_ok h
  refine ⟨fun s hs => ?_, fun hcompletes =>
    absurd (show "DmInventoryRequested" ∈ _ from hcompletes) (by decide)⟩
  rw [hsessions] at hs
  obtain rfl := Option.some.inj hs
  exact .opening (List.mem_cons_of_mem _ (List.mem_singleton_self _))

include hanswer hsessions haccounted in
theorem finish_upheld (hnone : (currentRemainder session (w.store.dmPending key)).1 = none)
    (hinit : session.phase ≠ "init") (hdevinfo : session.phase ≠ "devinfo")
    (hbase : base.session = none)
    (h : service.handleFinish a.message session base a.encode = .ok (outcome, changes)) :
    Upheld service key as a outcome.metric := by
  have hsettled : Outstanding service key as [] := by
    cases haccounted with
    | opening hphase => exact absurd hphase (by simp [hinit, hdevinfo])
    | settled _ h => exact h
    | owing unsent hphase hremains =>
      obtain ⟨p, hp, hpphase, -⟩ := hremains.pending
      rw [hp, currentRemainder_of_phase (hpphase.trans hphase.symm)] at hnone
      cases hnone
  refine ⟨fun s hs => ?_, fun _ => hsettled⟩
  rw [hsessions] at hs
  obtain ⟨rest, body, pending, -, ⟨-, rfl, rfl⟩ | ⟨-, hclose⟩⟩ := handleFinish_ok h
  · obtain rfl := Option.some.inj hs
    have hnot : ¬ a.Pushes := not_pushes_of_metric hanswer
      (show "DmPackageContinued" ≠ "DmConfigPushed" by decide)
    exact .settled (List.mem_cons_of_mem _ (List.mem_singleton_self _)) (hsettled.later hnot)
  · obtain ⟨rfl, rfl⟩ := Prod.mk.inj hclose
    cases hbase.symm.trans hs

variable (hweathered : Weathered key a.before w a.trace)
  (hopens : service.Opens a.message a.before.store.subscribers (w.store.dmSessions key) session)
  (hongoing : Ongoing a.message) (hnumbered : a.message.header.Numbered)
include hanswer hsessions hpending hweathered hopens hongoing hnumbered

theorem configuration_upheld
    (hnone : (currentRemainder session (w.store.dmPending key)).1 = none)
    (hphase : session.phase = "devinfo")
    (h : service.pushConfiguration a.message session base a.encode device
      (ownSubscriber session a.before.store.subscribers) = .ok (outcome, changes)) :
    Upheld service key as a outcome.metric := by
  obtain ⟨values, rest, body, pending, hvalues, hstarts, rfl, rfl⟩ := pushConfiguration_ok h
  refine ⟨fun s hs => ?_, fun hcompletes =>
    absurd (show "DmConfigPushed" ∈ _ from hcompletes) (by decide)⟩
  rw [hsessions] at hs
  obtain rfl := Option.some.inj hs
  have hqueue : service.packageQueue a.message session a.before.store.subscribers =
      .ok (service.configurationQueue a.message values) := by
    rw [packageQueue, if_neg (by rw [hphase]; decide), if_pos hphase, hvalues]
    rfl
  obtain ⟨part, hsplit, hcarries⟩ := carries_starts hweathered hongoing hopens hnone hqueue hstarts
    rfl rfl
  have houtstanding : Outstanding service key (as ++ [a]) rest :=
    outstanding_pushed ⟨_, hanswer, sent_metric ..⟩
      ⟨w, session, values, hweathered, hopens, hphase, hvalues, rfl⟩ hsplit
      (sent_of_carries hanswer hcarries)
  by_cases hrest : rest = []
  · exact .settled List.mem_cons_self (hrest ▸ houtstanding)
  · obtain ⟨entries, hentries, rfl⟩ := hstarts.some_of_cons hrest
    obtain ⟨-, -, hreplace⟩ := configurationValues_ok hvalues
    have hknown : Known rest := fun e he =>
      (configurationQueue_plain hnumbered hreplace e (hsplit ▸ List.mem_append_right _ he)).1
    exact .owing rest rfl
      ⟨⟨_, hpending, rfl, fromStored_toStored hknown hentries⟩, hknown⟩ houtstanding

include haccounted

theorem continued_upheld {p : DmPendingPackage}
    (hsome : (currentRemainder session (w.store.dmPending key)).1 = some p)
    (h : service.sendNext a.message session p {} a.encode device = .ok (outcome, changes)) :
    Upheld service key as a outcome.metric := by
  obtain ⟨hp, hpphase, -⟩ := currentRemainder_some hsome
  obtain ⟨unsent, body, rest, hunsent, hnext, hcontinues⟩ := sendNext_ok h
  obtain ⟨part, hsplit, hcarries⟩ :=
    carries_continued hweathered hongoing hopens hsome hunsent hnext
  have hnot : ¬ a.Pushes := not_pushes_of_metric hanswer hcontinues.metric_ne
  have hremains : ∀ {unsent' : List Entry}, Remains key w unsent' → unsent' = unsent := by
    intro unsent' hremains
    obtain ⟨p', hp', -, hunsent'⟩ := hremains.pending
    obtain rfl := Option.some.inj (hp.symm.trans hp')
    exact Except.ok.inj (hunsent'.symm.trans hunsent)
  have hcarried : Outstanding service key as unsent → Outstanding service key (as ++ [a]) rest := by
    refine fun h => h.concat hnot fun i hi => ?_
    have hmem : Entry.item i ∈ part ++ rest := hsplit ▸ List.mem_append_right _ hi
    exact (List.mem_append.mp hmem).imp_left
      (sent_of_carries hanswer (hcontinues.body_eq ▸ hcarries) _)
  -- what the session is in its phase, the remainder aside
  have hphase : ∀ {w'}, (∀ unsent', session.phase = "configure" → Remains key w unsent' →
      Outstanding service key as unsent' → Accounted service key (as ++ [a]) w' session.phase) →
      Accounted service key (as ++ [a]) w' session.phase := by
    intro w' howing
    cases haccounted with
    | opening hphase => exact .opening hphase
    | settled hphase h => exact .settled hphase (h.later hnot)
    | owing unsent' hphase hremains h => exact howing unsent' hphase hremains h
  rcases hcontinues with ⟨-, hdone, hclose⟩ | ⟨hnil, -, rfl, rfl⟩ | ⟨-, rfl, entries, hentries, rfl⟩
  · obtain ⟨rfl, rfl⟩ := Prod.mk.inj hclose
    refine ⟨fun s hs => ?_, fun _ => ?_⟩
    · rw [hsessions] at hs
      cases hs
    · rw [hdone] at haccounted
      cases haccounted with
      | opening hphase => exact absurd hphase (by decide)
      | settled _ h => exact h
      | owing unsent' hphase => exact absurd hphase (by decide)
  · refine ⟨fun s hs => ?_, fun hcompletes =>
      absurd (show "DmPackageContinued" ∈ _ from hcompletes) (by decide)⟩
    rw [hsessions] at hs
    obtain rfl := Option.some.inj hs
    rw [counted_phase]
    refine hphase fun unsent' hconfigure hremains' h => ?_
    obtain rfl := hremains hremains'
    exact .settled (hconfigure ▸ List.mem_cons_self) (hnil ▸ hcarried h)
  · refine ⟨fun s hs => ?_, fun hcompletes =>
      absurd (show "DmPackageContinued" ∈ _ from hcompletes) (by decide)⟩
    rw [hsessions] at hs
    obtain rfl := Option.some.inj hs
    rw [counted_phase]
    refine hphase fun unsent' hconfigure hremains' h => ?_
    obtain rfl := hremains hremains'
    have hknown : Known rest := by
      intro e he
      have hmem : e ∈ service.acks a.message ++ unsent' := hsplit ▸ List.mem_append_right _ he
      rcases List.mem_append.mp hmem with hack | hmem
      · exact (acks_plain hnumbered e hack).1
      · exact hremains'.known e hmem
    exact .owing rest hconfigure ⟨⟨_, hpending, hpphase.trans hconfigure,
      fromStored_toStored hknown hentries⟩, hknown⟩ (hcarried h)

end Answered

section Handling
variable (hattempted : Attempted service key a)
  (hopens : service.Opens a.message a.before.store.subscribers (w.store.dmSessions key) session)
  (hid : session.sessionId = key)
  (hanswers : Answers service a.message session a.encode
    (currentRemainder session (w.store.dmPending key)).1
    (currentRemainder session (w.store.dmPending key)).2 a.before.store.subscribers device outcome
    changes)
  (hcommits : a.Commits key w outcome changes done rest)
  (hkept : service.Kept key as w)
include hattempted hopens hid hanswers hcommits hkept

/-- A message that is not answered leaves a session accounted for: a remainder that is still owed is
written last, or deleted before the session. -/
theorem kept_unanswered (hloses : ¬ Loses key a) (hanswer : ∀ response, ¬ a.Answered response) :
    service.Kept key as a.after := by
  have hne : session.sessionId ≠ "" := by
    rw [hid, ← hattempted.keyed]
    exact sessionKey_ne_empty _ _
  have haccounted : Accounted service key as w session.phase := opens_accounted hopens hkept
  intro s hs
  rw [session_left hopens hanswers hcommits hanswer s hs]
  cases haccounted with
  | opening hphase => exact .opening hphase
  | settled hphase h => exact .settled hphase h
  | owing unsent hphase hremains h =>
    obtain ⟨p, hp, hpphase, hunsent⟩ := hremains.pending
    have hcurrent := currentRemainder_of_phase (hpphase.trans hphase.symm)
    rw [hp, hcurrent] at hanswers
    have hkeptPending : a.after.store.dmPending key = w.store.dmPending key →
        Accounted service key as a.after session.phase := fun hsame =>
      (Accounted.owing unsent hphase hremains h).of_pending hsame
    -- the end of the session deletes the remainder first
    have hends : changes = { deleteSessionId := session.sessionId } →
        Accounted service key as a.after session.phase := by
      rintro rfl
      have hwrites : [.deleteDmPending key, .deleteDmSession key] = done ++ rest := by
        rw [← hcommits.writes, ← hid]
        simp [DmChanges.writes, DmChanges.saveSession, DmChanges.saveRemainder, hne]
      rcases done with _ | ⟨first, _ | ⟨second, done⟩⟩
      · exact hkeptPending (by rw [hcommits.store, written_nil])
      · obtain ⟨rfl, hrest⟩ := List.cons.inj hwrites
        obtain rfl : rest = [.deleteDmSession key] := hrest.symm
        have hhalf : HalfEnded key a :=
          ⟨hcommits.done _ List.mem_cons_self, (hcommits.raised _).mp rfl⟩
        have hs' : w.store.dmSessions key = some s := by
          rw [hcommits.store] at hs
          exact hs
        have hsphase : s.phase = "configure" := by
          rw [← hphase, hopens.phase, hs']
          rfl
        refine .settled (hphase ▸ List.mem_cons_self) (h.of_no_items fun i hi => hloses ?_)
        exact ⟨Owes.weathered ⟨s, p, unsent, i, hs', hsphase, hp, hpphase, hunsent, hi⟩
          hcommits.weathered, Or.inr hhalf⟩
      · obtain ⟨rfl, hrest⟩ := List.cons.inj hwrites
        obtain ⟨rfl, hnil⟩ := List.cons.inj hrest
        obtain ⟨rfl, rfl⟩ := List.append_eq_nil_iff.mp hnil.symm
        rw [hcommits.store, written_cons, written_cons, written_nil] at hs
        exact absurd hs (by simp [DmWrite.apply])
    cases hanswers with
    | ended => exact hends rfl
    | tooManyMessages => exact hends rfl
    | noAlert _ hnone => cases hnone
    | inventory _ _ _ hnone => cases hnone
    | configuration _ _ _ hnone => cases hnone
    | finish _ _ _ hnone => cases hnone
    | continued p' _ _ _ hsome _ hsend =>
      have hundone : session.phase ≠ "done" := by
        rw [hphase]
        decide
      have hstays : outcome.statusCode = 200 ∧ changes.deleteSessionId = "" := by
        obtain ⟨unsent, body, rest', -, -, hcases⟩ := sendNext_ok hsend
        rcases hcases with ⟨-, hdone, -⟩ | ⟨-, -, rfl, rfl⟩ | ⟨-, rfl, entries, -, rfl⟩
        · exact absurd hdone hundone
        · exact ⟨rfl, rfl⟩
        · exact ⟨rfl, rfl⟩
      have hrest := (commits_unanswered hcommits hstays.1 hanswer).1
      refine hkeptPending ?_
      rw [hcommits.store]
      exact written_pending_of_continued hsend hne hstays.2 hcommits.writes hrest _

theorem kept_answered (hnumbered : a.message.header.Numbered)
    (habout : changes.About key fun _ => True) (hanswer : a.Answered response) :
    Upheld service key as a response.metric := by
  have hne : session.sessionId ≠ "" := by
    rw [hid, ← hattempted.keyed]
    exact sessionKey_ne_empty _ _
  have haccounted : Accounted service key as w session.phase := opens_accounted hopens hkept
  obtain ⟨hsessions, hpending⟩ := records_answered hne hanswers hcommits habout hanswer
  obtain ⟨rfl, rfl, h200, -, -⟩ := commits_answered hcommits habout hanswer
  rw [sent_metric]
  have hbase := currentRemainder_changes session (w.store.dmPending key)
  cases hanswers with
  | ended metric detail body _ _ hmetric =>
    refine ⟨fun s hs => ?_, fun hcompletes => ?_⟩
    · rw [hsessions, hbase] at hs
      cases hs
    · simp only [List.mem_cons, List.not_mem_nil, or_false] at hmetric hcompletes
      rcases hmetric with rfl | rfl <;> exact absurd hcompletes (by decide)
  | tooManyMessages => exact absurd h200 (by decide)
  | noAlert => exact absurd h200 (by decide)
  | inventory _ _ _ _ _ hrequest => exact inventory_upheld hsessions hrequest
  | configuration _ _ hongoing hnone hphase hpush =>
    exact configuration_upheld hanswer hsessions hpending hcommits.weathered hopens hongoing
      hnumbered hnone hphase hpush
  | finish _ _ _ hnone hinit hdevinfo hfinish =>
    exact finish_upheld hanswer hsessions haccounted hnone hinit hdevinfo (by rw [hbase]) hfinish
  | continued p _ _ hongoing hsome _ hsend =>
    obtain ⟨-, -, hnothing⟩ := currentRemainder_some hsome
    exact continued_upheld hanswer hsessions hpending haccounted hcommits.weathered hopens hongoing
      hnumbered hsome (hnothing ▸ hsend)

end Handling

theorem kept_rejected {clock : Clock} {nonce : String} (hkept : service.Kept key as w)
    (h : a.Commits key w outcome
      { session := some { service.sessionFrom a.message (w.store.dmSessions key) clock with
          nonce, authenticated := false } } done rest) :
    service.Kept key as a.after := by
  have hpending : a.after.store.dmPending key = w.store.dmPending key := by
    rw [h.store]
    rcases @written_pending key done w.store with hsame | ⟨hmem, -⟩ | ⟨p, hmem, -, -⟩
    · exact hsame
    · obtain ⟨hne, hid⟩ := deleteDmPending_mem_writes (h.writes ▸ List.mem_append_left rest hmem)
      exact absurd (or_self_iff.mp hid) hne
    · cases putDmPending_mem_writes (h.writes ▸ List.mem_append_left rest hmem)
  intro s hs
  refine Accounted.of_pending ?_ hpending
  rcases session_of_commits h s hs with hs | ⟨-, hput⟩
  · exact hkept s hs
  · obtain rfl := Option.some.inj hput
    show Accounted service key as w (service.sessionFrom a.message (w.store.dmSessions key) clock).phase
    cases hfound : w.store.dmSessions key with
    | none => exact .opening List.mem_cons_self
    | some found => exact hkept found hfound

theorem Kept.undisturbed {w' : World} (h : service.Kept key as w) (hsame : Undisturbed key w w') :
    service.Kept key as w' := fun s hs => (h s (hsame.1 ▸ hs)).of_pending hsame.2

theorem Kept.later (h : service.Kept key as w) (hpushes : ¬ a.Pushes) :
    service.Kept key (as ++ [a]) w := fun s hs => (h s hs).later hpushes

/-- Every attempt leaves the session accounted for, unless it loses the remainder. -/
theorem kept_attempted (h : Attempted service key a) (hown : Own key a.before)
    (hloses : ¬ Loses key a) (hkept : service.Kept key as a.before) :
    service.Kept key (as ++ [a]) a.after ∧ (a.Completes → Outstanding service key as []) := by
  cases attempted_course h hown with
  | idle hweathered _ hnot =>
    refine ⟨(kept_weathered hkept hloses hweathered).later ?_, ?_⟩
    · exact fun ⟨response, hanswer, _⟩ => hnot response hanswer
    · exact fun ⟨response, hanswer, _⟩ => absurd hanswer (hnot response)
  | rejected w clock _ nonce _ outcome done rest _ hmetric hcommits =>
    have hanswered : ∀ response, a.Answered response → response.metric = "DmAuthRejected" := by
      rintro response ⟨hr, -⟩
      rcases hcommits.result with ⟨-, hok⟩ | ⟨-, e, herror⟩
      · obtain rfl := Except.ok.inj (hok.symm.trans hr)
        exact (sent_metric ..).trans hmetric
      · cases herror.symm.trans hr
    refine ⟨(kept_rejected (kept_weathered hkept hloses hcommits.weathered) hcommits).later ?_, ?_⟩
    · rintro ⟨response, hanswer, hpushed⟩
      exact absurd ((hanswered response hanswer).symm.trans hpushed) (by decide)
    · rintro ⟨response, hanswer, hcompletes⟩
      rw [hanswered response hanswer] at hcompletes
      exact absurd hcompletes (by decide)
  | accepted w session device outcome changes done rest hnumbered hopens hid hanswers habout
      hcommits =>
    have hkept' := kept_weathered hkept hloses hcommits.weathered
    by_cases hanswered : ∃ response, a.Answered response
    · obtain ⟨response, hanswer⟩ := hanswered
      obtain ⟨hafter, hcompletes⟩ :=
        kept_answered h hopens hid hanswers hcommits hkept' hnumbered habout hanswer
      refine ⟨hafter, fun ⟨response', hanswer', hmetric⟩ => hcompletes ?_⟩
      obtain rfl := Except.ok.inj (hanswer.1.symm.trans hanswer'.1)
      exact hmetric
    · rw [not_exists] at hanswered
      refine ⟨(kept_unanswered h hopens hid hanswers hcommits hkept' hloses hanswered).later ?_, ?_⟩
      · exact fun ⟨response, hanswer, _⟩ => hanswered response hanswer
      · exact fun ⟨response, hanswer, _⟩ => absurd hanswer (hanswered response)

theorem completed_attempts {closing : Attempt} {earlier : List Attempt} (hown : Own key w)
    (hkept : service.Kept key earlier w) (h : Attempts service key w (as ++ [closing]))
    (hloses : ∀ a ∈ as ++ [closing], ¬ Loses key a) (hcompletes : closing.Completes) :
    Outstanding service key (earlier ++ as) [] := by
  induction as generalizing w earlier with
  | nil =>
    obtain ⟨hsame, hattempted, -⟩ := h
    rw [List.append_nil]
    exact (kept_attempted hattempted (hown.of_undisturbed hsame) (hloses _ List.mem_cons_self)
      (hkept.undisturbed hsame)).2 hcompletes
  | cons a as ih =>
    obtain ⟨hsame, hattempted, hrest⟩ := h
    obtain ⟨hlose, hloses⟩ := List.forall_mem_cons.mp hloses
    have hown' : Own key a.before := hown.of_undisturbed hsame
    have hafter := (kept_attempted hattempted hown' hlose (hkept.undisturbed hsame)).1
    have hcompleted := ih (own_attempted hattempted hown') hafter hrest hloses
    rwa [List.append_assoc, List.singleton_append] at hcompleted

/-- A session that is reported complete has sent every `Add` and `Replace` of its configuration, in
every run in which no remainder is lost while some of them are in it. -/
theorem completion_true {closing : Attempt}
    (h : SessionRun service key w (as ++ [closing]))
    (hloses : ∀ a ∈ as ++ [closing], ¬ Loses key a) (hcompletes : closing.Completes) :
    Outstanding service key as [] := by
  have hkept : service.Kept key [] w := fun s hs => by
    rw [h.fresh] at hs
    cases hs
  exact completed_attempts h.own hkept h.run hloses hcompletes

/-! ### A remainder that was lost -/

def openedFrom (service : DmService) (message : SyncMlMessage)
    (subscribers : String → Option Subscriber) (s : DmSession) : Option DmSession :=
  let session := service.openSession message.header s
  match service.verdict message session subscribers, service.msgNumber message.header.msgId 0 with
  | .accepted username, .ok number => some (acceptedSession session username number)
  | _, _ => none

def shares (service : DmService) (message : SyncMlMessage) (encode : Encoder)
    (subscribers : String → Option Subscriber) (s : DmSession)
    (pending : Option DmPendingPackage) : Option (List Entry × List Entry) := do
  let session ← service.openedFrom message subscribers s
  let (queue, required) ← (service.answerQueue message session
    (currentRemainder session pending).1 subscribers).toOption
  let (_, rest) ← (service.nextMessage message session queue encode required
    (service.headerStatus session)).toOption
  return (queue, rest)

def withholds (service : DmService) (key : String) (payload : Bytes) (w : World) : Bool :=
  match service.read payload contentTypeXml, w.store.dmSessions key with
  | .ok (message, _, encode), some s =>
    match service.shares message encode w.store.subscribers s none with
    | some (queue, rest) => rest.any fun
      | .item i => i.command = "Replace" && .item i ∉ queue.take (queue.length - rest.length)
      | .status _ => false
    | none => false
  | _, _ => false

theorem openedFrom_of_opens {message : SyncMlMessage} {subscribers : String → Option Subscriber}
    {s : DmSession} (h : service.Opens message subscribers (some s) session) :
    service.openedFrom message subscribers s = some session := by
  obtain ⟨clock, username, number, hverdict, hnumber, rfl⟩ := h
  have hverdict' : service.verdict message (service.openSession message.header s) subscribers =
      .accepted username := hverdict
  unfold openedFrom
  dsimp only
  rw [hverdict', hnumber]
  rfl

theorem carries_cases {body : Bytes} {part : List Entry}
    (hpending : a.before.store.dmPending key = none) (h : service.Carries key a body part) :
    (∀ i, .item i ∈ part → i.command = "Get") ∨
      ∃ s rest, a.before.store.dmSessions key = some s ∧
        service.shares a.message a.encode a.before.store.subscribers s none =
          some (part ++ rest, rest) := by
  obtain ⟨w, session, queue, required, rest, hweathered, -, hopens, hqueue, hnext, hsplit⟩ := h
  have hnone : w.store.dmPending key = none := by
    by_cases hgone : ⟨.getDmPending key, .ok none⟩ ∈ a.trace
    · exact hweathered.pendingGone hgone
    · exact (hweathered.pendingKept hgone).trans hpending
  rw [hnone] at hqueue
  have hqueue : service.answerQueue a.message session none a.before.store.subscribers =
      .ok (queue, required) := hqueue
  cases hfound : w.store.dmSessions key with
  | none =>
    refine Or.inl fun i hi => ?_
    have hinit : session.phase = "init" := by
      rw [hopens.phase, hfound]
      rfl
    rw [answerQueue, packageQueue, if_pos hinit] at hqueue
    obtain ⟨rfl, -⟩ := Prod.mk.inj (Except.ok.inj hqueue)
    have hmem : .item i ∈ service.inventoryQueue a.message := hsplit ▸ List.mem_append_left rest hi
    rcases List.mem_append.mp hmem with hack | hget
    · obtain ⟨command, -, hstatus⟩ := List.mem_map.mp hack
      cases hstatus
    · obtain ⟨uri, -, hitem⟩ := List.mem_map.mp hget
      exact Entry.item.inj hitem ▸ rfl
  | some s =>
    rw [hfound] at hopens
    refine Or.inr ⟨s, rest, hweathered.session_of_some hfound, ?_⟩
    rw [shares, openedFrom_of_opens hopens, ← hsplit]
    show ((service.answerQueue _ _ none _).toOption.bind fun _ => _) = _
    rw [hqueue]
    show ((service.nextMessage _ _ _ _ _ _).toOption.bind fun _ => _) = _
    rw [hnext]
    rfl

theorem shares_split {encode : Encoder} {message : SyncMlMessage}
    {subscribers : String → Option Subscriber} {s : DmSession} {queue rest : List Entry}
    {pending : Option DmPendingPackage}
    (h : service.shares message encode subscribers s pending = some (queue, rest)) :
    ∃ part, queue = part ++ rest := by
  obtain ⟨session, -, h⟩ := Option.bind_eq_some_iff.mp h
  obtain ⟨⟨queue', required⟩, -, h⟩ := Option.bind_eq_some_iff.mp h
  obtain ⟨⟨body, rest'⟩, hnext, heq⟩ := Option.bind_eq_some_iff.mp h
  obtain ⟨rfl, rfl⟩ := Prod.mk.inj (Option.some.inj heq)
  cases hresult : service.nextMessage message session queue' encode required
    (service.headerStatus session) with
  | error e =>
    rw [hresult] at hnext
    cases hnext
  | ok answer =>
    rw [hresult] at hnext
    obtain rfl := Option.some.inj hnext
    exact nextMessage_split hresult

theorem package_shares {package queue rest : List Entry} {s : DmSession}
    (h : PackageOf service key a package) (hs : a.before.store.dmSessions key = some s)
    (hshares : service.shares a.message a.encode a.before.store.subscribers s none =
      some (queue, rest)) : package = queue := by
  obtain ⟨w, session, values, hweathered, hopens, hphase, hvalues, rfl⟩ := h
  have hfound : w.store.dmSessions key = some s := by
    rw [← hs]
    refine hweathered.sessionKept fun hgone => ?_
    rw [hopens.phase, hweathered.sessionGone hgone] at hphase
    exact absurd (show "init" = "devinfo" from hphase) (by decide)
  rw [hfound] at hopens
  obtain ⟨session', hsession, hshares⟩ := Option.bind_eq_some_iff.mp hshares
  obtain rfl := Option.some.inj ((openedFrom_of_opens hopens).symm.trans hsession)
  obtain ⟨⟨queue', required⟩, hqueue, hshares⟩ := Option.bind_eq_some_iff.mp hshares
  obtain ⟨⟨body, rest'⟩, -, heq⟩ := Option.bind_eq_some_iff.mp hshares
  rw [currentRemainder, answerQueue, packageQueue, if_neg (by rw [hphase]; decide), if_pos hphase,
    hvalues] at hqueue
  exact (Prod.mk.inj (Option.some.inj hqueue)).1.trans (Prod.mk.inj (Option.some.inj heq)).1

theorem withheld (hattempted : Attempted service key a) (htype : a.contentType = contentTypeXml)
    (hpending : a.before.store.dmPending key = none)
    (h : service.withholds key a.payload a.before = true) :
    ∃ i, (∀ package, PackageOf service key a package → .item i ∈ package) ∧
      ∀ body part, service.Carries key a body part → .item i ∉ part := by
  have hread := hattempted.read
  rw [htype] at hread
  unfold withholds at h
  rw [hread] at h
  split at h
  · rename_i message binary encode s hmessage hs
    obtain ⟨rfl, -, rfl⟩ := Except.ok.inj hmessage
    split at h
    · rename_i queue rest hshares
      obtain ⟨e, he, hwithheld⟩ := List.any_eq_true.mp h
      cases e with
      | status => cases hwithheld
      | item i =>
        simp only [Bool.and_eq_true, decide_eq_true_eq] at hwithheld
        obtain ⟨hreplace, hnot⟩ := hwithheld
        refine ⟨i, fun package hpackage => ?_, fun body part hcarries hi => ?_⟩
        · obtain ⟨part, rfl⟩ := shares_split hshares
          rw [package_shares hpackage hs hshares]
          exact List.mem_append_right part he
        · rcases carries_cases hpending hcarries with hget | ⟨s', rest', hs', hshares'⟩
          · rw [hget i hi] at hreplace
            exact absurd hreplace (by decide)
          · obtain rfl := Option.some.inj (hs.symm.trans hs')
            obtain ⟨rfl, rfl⟩ := Prod.mk.inj (Option.some.inj (hshares.symm.trans hshares'))
            rw [List.length_append, Nat.add_sub_cancel, List.take_left] at hnot
            exact hnot hi
    · cases h
  · cases h

theorem not_loses_of_continued {response : DmResponse} (h : Attempted service key a)
    (hown : Own key a.before) (hanswer : a.Answered response)
    (hmetric : response.metric = "DmPackageContinued")
    (hundone : ∀ s ∈ a.after.store.dmSessions key, s.phase ≠ "done") : ¬ Loses key a := by
  cases attempted_course h hown with
  | idle _ _ hnot => exact absurd hanswer (hnot response)
  | rejected w clock _ nonce _ outcome done rest _ hrejected hcommits =>
    rcases hcommits.result with ⟨-, hok⟩ | ⟨-, e, herror⟩
    · obtain rfl := Except.ok.inj (hok.symm.trans hanswer.1)
      rw [sent_metric, hrejected] at hmetric
      exact absurd hmetric (by decide)
    · cases herror.symm.trans hanswer.1
  | accepted w session device outcome changes done rest _ hopens hid hanswers habout hcommits =>
    have hne : session.sessionId ≠ "" := by
      rw [hid, ← h.keyed]
      exact sessionKey_ne_empty _ _
    obtain ⟨hsessions, -⟩ := records_answered hne hanswers hcommits habout hanswer
    obtain ⟨rfl, rfl, h200, -, -⟩ := commits_answered hcommits habout hanswer
    rw [sent_metric] at hmetric
    -- no other answer has this metric but that of a final package, which is of phase done
    have hfound : ∃ p, w.store.dmPending key = some p := by
      cases hanswers with
      | ended metric _ _ _ _ hended =>
        rw [show metric = _ from hmetric] at hended
        exact absurd hended (by decide)
      | tooManyMessages => exact absurd h200 (by decide)
      | noAlert => exact absurd h200 (by decide)
      | inventory _ _ _ _ _ hrequest =>
        obtain ⟨rest, body, pending, -, rfl, -⟩ := requestInventory_ok hrequest
        exact absurd (show "DmInventoryRequested" = _ from hmetric) (by decide)
      | configuration _ _ _ _ _ hpush =>
        obtain ⟨values, rest, body, pending, -, -, rfl, -⟩ := pushConfiguration_ok hpush
        exact absurd (show "DmConfigPushed" = _ from hmetric) (by decide)
      | finish _ _ _ _ _ _ hfinish =>
        obtain ⟨rest, body, pending, -, ⟨-, -, rfl⟩ | ⟨-, hclose⟩⟩ := handleFinish_ok hfinish
        · exact absurd rfl (hundone _ hsessions)
        · have hcloses := metric_close body { recordFailures a.message session with phase := "done" }
            changes
          rw [(Prod.mk.inj hclose).1] at hmetric
          rw [show (close body _ changes).1.metric = _ from hmetric] at hcloses
          exact absurd hcloses (by decide)
      | continued p _ _ _ hsome => exact ⟨p, (currentRemainder_some hsome).1⟩
    rintro ⟨-, ⟨hgone, -⟩ | ⟨-, hraised⟩⟩
    · obtain ⟨p, hp⟩ := hfound
      cases hp.symm.trans (hcommits.weathered.pendingGone hgone)
    · cases (hcommits.raised _).mpr hraised

end DmService

namespace Lab
open Xml Xml.Element

def aborts : Element := brief "3" [alert alertSessionAbort]

def abandoning : DmService := server [asks, takes, aborts, ends]

/-- The handset gives up while some of its configuration is unsent. The remainder is deleted and the
session is not, so that the next message finds nothing left to send. -/
def abandonedRun : List DmService.Trial :=
  [{ payload := sent asks, expected := DmService.answers200 "DmInventoryRequested" "get:1" },
   { payload := sent takes
     expected w r w' := (w.store.dmPending key).isNone &&
       abandoning.withholds key (sent takes) w &&
       DmService.answers200 "DmConfigPushed" "add:1 replace:1" w r w' },
   { payload := sent aborts, ahead := faultAfter 3, expected := DmService.raises },
   { payload := sent ends, expected := DmService.answers200 "DmSessionComplete" "failures:0" }]

def splitSession : List DmService.Trial :=
  let unsplit (w : World) : Bool := (w.store.dmPending key).isNone
  [{ payload := sent asks
     expected w r w' := unsplit w && DmService.answers200 "DmInventoryRequested" "get:1" w r w' },
   { payload := sent takes
     expected w r w' :=
       unsplit w && DmService.answers200 "DmConfigPushed" "add:1 replace:1" w r w' },
   { payload := sent fails
     expected w r w' := ((w.store.dmPending key).isSome &&
         (w'.store.dmSessions key).all fun s => s.phase ≠ "done") &&
       DmService.answers200 "DmPackageContinued" "pending:0" w r w' },
   { payload := sent ends
     expected w r w' :=
       unsplit w && DmService.answers200 "DmSessionCompleteWithErrors" "failures:1" w r w' }]

end Lab

theorem not_loses_of_isNone {key : String} {a : Attempt}
    (h : (a.before.store.dmPending key).isNone = true) : ¬ Loses key a := by
  rintro ⟨⟨s, p, unsent, i, -, -, hp, -⟩, -⟩
  rw [hp] at h
  cases h

/-- The configuration is taken in two messages and then reported complete. -/
theorem completion_true_split : ∃ w as closing,
    SessionRun Lab.failing Lab.key w (as ++ [closing]) ∧
      (∃ a ∈ as, a.before.store.dmPending Lab.key ≠ none) ∧ closing.Completes ∧
      Outstanding Lab.failing Lab.key as [] := by
  have htries : Lab.failing.tries Lab.key Lab.world Lab.splitSession = true := by
    decide +kernel
  obtain ⟨_, hrun, hmeets⟩ := DmService.attempts_of_tries htries
  obtain ⟨a₁, _, h₁, hmeets₁, rfl⟩ := List.forall₂_cons_right_iff.mp hmeets
  obtain ⟨a₂, _, h₂, hmeets₂, rfl⟩ := List.forall₂_cons_right_iff.mp hmeets₁
  obtain ⟨a₃, _, h₃, hmeets₃, rfl⟩ := List.forall₂_cons_right_iff.mp hmeets₂
  obtain ⟨a₄, _, h₄, hmeets₄, rfl⟩ := List.forall₂_cons_right_iff.mp hmeets₃
  obtain rfl := List.forall₂_nil_right_iff.mp hmeets₄
  obtain ⟨hnone₁, -⟩ := Bool.and_eq_true_iff.mp h₁.expected
  obtain ⟨hnone₂, -⟩ := Bool.and_eq_true_iff.mp h₂.expected
  obtain ⟨hchecks, hanswers₃⟩ := Bool.and_eq_true_iff.mp h₃.expected
  obtain ⟨hsome₃, hundone⟩ := Bool.and_eq_true_iff.mp hchecks
  obtain ⟨hnone₄, hanswers₄⟩ := Bool.and_eq_true_iff.mp h₄.expected
  obtain ⟨response₃, hanswer₃, hmetric₃, -⟩ := DmService.answered_of_answers200 hanswers₃
  obtain ⟨response₄, hanswer₄, hmetric₄, -⟩ := DmService.answered_of_answers200 hanswers₄
  have hcompletes : a₄.Completes := ⟨response₄, hanswer₄, by rw [hmetric₄]; decide⟩
  have hsession : SessionRun Lab.failing Lab.key Lab.world ([a₁, a₂, a₃] ++ [a₄]) :=
    ⟨own_world, rfl, hrun⟩
  have hkept₃ : ¬ Loses Lab.key a₃ := by
    refine DmService.not_loses_of_continued (hrun.attempted a₃ (by simp))
      (DmService.own_attempts hrun own_world a₃ (by simp)) hanswer₃ hmetric₃ fun s hs => ?_
    rw [hs] at hundone
    exact of_decide_eq_true hundone
  refine ⟨_, [a₁, a₂, a₃], a₄, hsession, ⟨a₃, by simp, ?_⟩, hcompletes,
    DmService.completion_true hsession ?_ hcompletes⟩
  · intro hnone
    rw [hnone] at hsome₃
    cases hsome₃
  · simp only [List.cons_append, List.nil_append, List.forall_mem_cons]
    exact ⟨not_loses_of_isNone hnone₁, not_loses_of_isNone hnone₂, hkept₃,
      not_loses_of_isNone hnone₄, fun _ h => (by cases h)⟩

/-- A session that was given up half is reported complete, although some of its configuration was
never sent. -/
theorem completion_untrue : ∃ w as closing,
    SessionRun Lab.abandoning Lab.key w (as ++ [closing]) ∧ closing.Completes ∧
      ¬ Outstanding Lab.abandoning Lab.key as [] := by
  have htries : Lab.abandoning.tries Lab.key Lab.world Lab.abandonedRun = true := by
    decide +kernel
  obtain ⟨_, hrun, hmeets⟩ := DmService.attempts_of_tries htries
  obtain ⟨a₁, _, h₁, hmeets₁, rfl⟩ := List.forall₂_cons_right_iff.mp hmeets
  obtain ⟨a₂, _, h₂, hmeets₂, rfl⟩ := List.forall₂_cons_right_iff.mp hmeets₁
  obtain ⟨a₃, _, h₃, hmeets₃, rfl⟩ := List.forall₂_cons_right_iff.mp hmeets₂
  obtain ⟨a₄, _, h₄, hmeets₄, rfl⟩ := List.forall₂_cons_right_iff.mp hmeets₃
  obtain rfl := List.forall₂_nil_right_iff.mp hmeets₄
  obtain ⟨response₁, hanswer₁, hmetric₁, -⟩ := DmService.answered_of_answers200 h₁.expected
  obtain ⟨hchecks, hanswers₂⟩ := Bool.and_eq_true_iff.mp h₂.expected
  obtain ⟨hpending, hwithholds⟩ := Bool.and_eq_true_iff.mp hchecks
  obtain ⟨e, hraised⟩ := DmService.raised_of_raises h₃.expected
  obtain ⟨response₄, hanswer₄, hmetric₄, -⟩ := DmService.answered_of_answers200 h₄.expected
  have hunanswered : ∀ response, ¬ a₃.Answered response := by
    rintro response ⟨hr, -⟩
    cases hraised.symm.trans hr
  have hfirst : ¬ a₁.Pushes := by
    rintro ⟨response, hanswer, hpushed⟩
    obtain rfl := Except.ok.inj (hanswer₁.1.symm.trans hanswer.1)
    exact absurd (hmetric₁.symm.trans hpushed) (by decide)
  have hthird : ¬ a₃.Pushes := fun ⟨response, hanswer, _⟩ => hunanswered response hanswer
  refine ⟨_, [a₁, a₂, a₃], a₄, ⟨own_world, rfl, hrun⟩,
    ⟨response₄, hanswer₄, by rw [hmetric₄]; decide⟩, ?_⟩
  rw [← show a₂.payload = Lab.sent Lab.takes from h₂.payload] at hwithholds
  obtain ⟨i, hpackages, hcarries⟩ := DmService.withheld hrun.2.2.2.1 h₂.contentType
    (Option.isNone_iff_eq_none.mp hpending) hwithholds
  rintro ⟨before, pushed, since, package, has, hpushed, hpackage, -, hitems⟩
  -- only the second message was answered with a push
  have hsplit : pushed = a₂ ∧ since = [a₃] := by
    rcases before with _ | ⟨b₁, _ | ⟨b₂, _ | ⟨b₃, before⟩⟩⟩
    · obtain rfl := (List.cons.inj has).1
      exact absurd hpushed hfirst
    · obtain ⟨rfl, rfl⟩ := List.cons.inj (List.cons.inj has).2
      exact ⟨rfl, rfl⟩
    · obtain rfl := (List.cons.inj (List.cons.inj (List.cons.inj has).2).2).1
      exact absurd hpushed hthird
    · simp at has
  obtain ⟨rfl, rfl⟩ := hsplit
  rcases hitems i (hpackages package hpackage) with ⟨a, ha, response, part, hanswer, hpart, hi⟩ | hnil
  · rcases List.mem_cons.mp ha with rfl | ha
    · exact hcarries _ _ hpart hi
    · obtain rfl := List.mem_singleton.mp ha
      exact hunanswered response hanswer
  · cases hnil

end Acs.Omadm
