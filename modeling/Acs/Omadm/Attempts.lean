import Acs.Omadm.Turns

/-! Attempts at a message: while it is handled any call of the store may raise, and records may
lapse. -/

namespace Acs.Omadm
open Interleave

/-! ### The records under a key -/

/-- What the records under a key are after some reads: one that was found to have lapsed is gone,
and any other is as it was. -/
structure Weathered (key : String) (w w' : World) (tr : List (Event DmOp.Answer)) : Prop where
  sessionGone : ⟨.getDmSession key, .ok none⟩ ∈ tr → w'.store.dmSessions key = none
  sessionKept : ⟨.getDmSession key, .ok none⟩ ∉ tr →
    w'.store.dmSessions key = w.store.dmSessions key
  pendingGone : ⟨.getDmPending key, .ok none⟩ ∈ tr → w'.store.dmPending key = none
  pendingKept : ⟨.getDmPending key, .ok none⟩ ∉ tr →
    w'.store.dmPending key = w.store.dmPending key

section Weathered
variable {key : String} {w w' w'' : World} {tr tr' : List (Event DmOp.Answer)}

theorem Weathered.nil (hstore : w'.store = w.store) : Weathered key w w' [] :=
  ⟨fun h => (by cases h), fun _ => by rw [hstore], fun h => (by cases h), fun _ => by rw [hstore]⟩

theorem Weathered.trans (h : Weathered key w w' tr) (h' : Weathered key w' w'' tr') :
    Weathered key w w'' (tr ++ tr') := by
  constructor
  · intro hmem
    by_cases hlast : ⟨.getDmSession key, .ok none⟩ ∈ tr'
    · exact h'.sessionGone hlast
    · rw [h'.sessionKept hlast]
      exact h.sessionGone ((List.mem_append.mp hmem).resolve_right hlast)
  · intro hmem
    obtain ⟨hfirst, hlast⟩ := not_or.mp (mt List.mem_append.mpr hmem)
    rw [h'.sessionKept hlast, h.sessionKept hfirst]
  · intro hmem
    by_cases hlast : ⟨.getDmPending key, .ok none⟩ ∈ tr'
    · exact h'.pendingGone hlast
    · rw [h'.pendingKept hlast]
      exact h.pendingGone ((List.mem_append.mp hmem).resolve_right hlast)
  · intro hmem
    obtain ⟨hfirst, hlast⟩ := not_or.mp (mt List.mem_append.mpr hmem)
    rw [h'.pendingKept hlast, h.pendingKept hfirst]

theorem Weathered.unique (h : Weathered key w w' tr) (h' : Weathered key w w'' tr) :
    Undisturbed key w' w'' := by
  constructor
  · by_cases hgone : ⟨.getDmSession key, .ok none⟩ ∈ tr
    · rw [h.sessionGone hgone, h'.sessionGone hgone]
    · rw [h.sessionKept hgone, h'.sessionKept hgone]
  · by_cases hgone : ⟨.getDmPending key, .ok none⟩ ∈ tr
    · rw [h.pendingGone hgone, h'.pendingGone hgone]
    · rw [h.pendingKept hgone, h'.pendingKept hgone]

theorem Weathered.session_of_some (h : Weathered key w w' tr) {s : DmSession}
    (hs : w'.store.dmSessions key = some s) : w.store.dmSessions key = some s := by
  rw [← hs]
  refine (h.sessionKept fun hgone => ?_).symm
  rw [h.sessionGone hgone] at hs
  cases hs

theorem Weathered.pending_of_some (h : Weathered key w w' tr) {p : DmPendingPackage}
    (hp : w'.store.dmPending key = some p) : w.store.dmPending key = some p := by
  rw [← hp]
  refine (h.pendingKept fun hgone => ?_).symm
  rw [h.pendingGone hgone] at hp
  cases hp

theorem Weathered.of_other {op : DmOp} {ans : op.Answer} (hstore : w'.store = w.store)
    (hsession : ∀ id, op ≠ .getDmSession id) (hpending : ∀ id, op ≠ .getDmPending id) :
    Weathered key w w' [⟨op, ans⟩] := by
  constructor
  · intro h
    exact absurd (congrArg Sigma.fst (List.mem_singleton.mp h)).symm (hsession key)
  · exact fun _ => by rw [hstore]
  · intro h
    exact absurd (congrArg Sigma.fst (List.mem_singleton.mp h)).symm (hpending key)
  · exact fun _ => by rw [hstore]

end Weathered

section Lookup
variable {α : Type} (kind : RecordKind α) {key id : String} {w w' : World}
  {ans : Except StoreError (Option α)}
  (h : Weather (kind.read id) w (kind.answer id ans) w')
include h

theorem RecordKind.gone_of_read (hmem : (⟨kind.read key, kind.answer key (.ok none)⟩ :
    Event DmOp.Answer) ∈ [⟨kind.read id, kind.answer id ans⟩]) :
    kind.records w'.store key = none := by
  have hevent := List.mem_singleton.mp hmem
  obtain rfl := kind.read_injective (congrArg Sigma.fst hevent)
  obtain rfl := (kind.answer key).injective (eq_of_heq (Sigma.mk.inj hevent).2)
  obtain ⟨-, ⟨⟨e, he⟩, -⟩ | ⟨hnone, hstore⟩⟩ := kind.weather_read h
  · cases he
  · rw [hstore, kind.records_get]
    exact (Except.ok.inj hnone).symm

theorem RecordKind.kept_of_read (hmem : (⟨kind.read key, kind.answer key (.ok none)⟩ :
    Event DmOp.Answer) ∉ [⟨kind.read id, kind.answer id ans⟩]) :
    kind.records w'.store key = kind.records w.store key := by
  obtain ⟨-, ⟨-, hstore⟩ | ⟨rfl, hstore⟩⟩ := kind.weather_read h
  · rw [hstore]
  · rw [hstore]
    by_cases hkey : key = id
    · subst hkey
      rcases kind.get_cases w.store key w'.clock with ⟨-, hsame⟩ | ⟨hfound, -⟩
      · rw [hsame]
      · rw [hfound] at hmem
        exact absurd (List.mem_singleton_self _) hmem
    · exact kind.records_get_of_ne hkey w.store w'.clock

end Lookup

theorem weathered_getDmSession {key id : String} {w w' : World}
    {ans : (DmOp.getDmSession id).Answer} (h : Weather (.getDmSession id) w ans w') :
    Weathered key w w' [⟨.getDmSession id, ans⟩] where
  sessionGone := RecordKind.sessions.gone_of_read h
  sessionKept := RecordKind.sessions.kept_of_read h
  pendingGone hmem := by
    cases congrArg Sigma.fst (List.mem_singleton.mp hmem)
  pendingKept _ := by
    obtain ⟨-, ⟨-, hstore⟩ | ⟨-, hstore⟩⟩ := RecordKind.sessions.weather_read h
    · rw [hstore]
    · rw [hstore.trans (getDmSession_rest ..)]

theorem weathered_getDmPending {key id : String} {w w' : World}
    {ans : (DmOp.getDmPending id).Answer} (h : Weather (.getDmPending id) w ans w') :
    Weathered key w w' [⟨.getDmPending id, ans⟩] where
  sessionGone hmem := by
    cases congrArg Sigma.fst (List.mem_singleton.mp hmem)
  sessionKept _ := by
    obtain ⟨-, ⟨-, hstore⟩ | ⟨-, hstore⟩⟩ := RecordKind.remainders.weather_read h
    · rw [hstore]
    · rw [hstore.trans (getDmPending_rest ..)]
  pendingGone := RecordKind.remainders.gone_of_read h
  pendingKept := RecordKind.remainders.kept_of_read h

theorem weathered_op {key : String} {op : DmOp} {w w' : World} {ans : op.Answer}
    (hread : op.IsRead) (h : Weather op w ans w') : Weathered key w w' [⟨op, ans⟩] := by
  cases op with
  | getDmSession id => exact weathered_getDmSession h
  | getDmPending id => exact weathered_getDmPending h
  | write write => exact hread.elim
  | getSubscriber | getDevice | now | makeNonce =>
    refine .of_other ?_ (fun id hop => by cases hop) fun id hop => by cases hop
    obtain ⟨-, ⟨-, hstore⟩ | ⟨nonce, hexec⟩⟩ := h
    · exact hstore
    · exact (Prod.mk.inj hexec).2.symm

theorem exec_weathered {α : Type} {p : Program DmOp DmOp.Answer α} {key : String} {w w' : World}
    {tr : List (Event DmOp.Answer)} {a : α} (h : Exec Weather p w tr a w')
    (hreads : ∀ e ∈ tr, e.1.IsRead) : Weathered key w w' tr := by
  induction h with
  | result => exact .nil rfl
  | call hop _ ih =>
    obtain ⟨hread, hreads⟩ := List.forall_mem_cons.mp hreads
    exact (weathered_op hread hop).trans (ih hreads)

/-- The writes `done` were performed; those of `rest` were not, since the first of them raised. -/
structure Performed (done rest : List DmWrite) (w w' : World) (tr : List (Event DmOp.Answer))
    (r : Except DmError Unit) : Prop where
  time : w.clock.now ≤ w'.clock.now
  store : w'.store = written done w.store
  writes : ∀ e ∈ tr, ∃ write, e.1 = .write write
  done : ∀ write ∈ done, ⟨.write write, .ok ()⟩ ∈ tr
  raised : ∀ write, write ∈ rest.head? ↔ ∃ e, ⟨.write write, .error e⟩ ∈ tr
  result : rest = [] ∧ r = .ok () ∨ rest ≠ [] ∧ ∃ e, r = .error (.store e)

theorem exec_performed {writes : List DmWrite} {w w' : World} {tr : List (Event DmOp.Answer)}
    {r : Except DmError Unit} (h : Exec Weather (writeAll writes).run w tr r w') :
    ∃ done rest, writes = done ++ rest ∧ Performed done rest w w' tr r := by
  induction writes generalizing w tr with
  | nil =>
    obtain ⟨rfl, rfl, rfl⟩ := Exec.pure_iff.mp h
    refine ⟨[], [], rfl, Int.le_refl _, rfl, fun e he => (by cases he), fun _ hw => (by cases hw),
      fun write => ⟨fun hw => (by cases hw), fun ⟨_, he⟩ => (by cases he)⟩, Or.inl ⟨rfl, rfl⟩⟩
  | cons write writes ih =>
    have hwrite : ∀ {w w' tr r}, Exec Weather (Dm.write write).run w tr r w' →
        ∃ ans, tr = [⟨.write write, ans⟩] ∧ r = ans.mapError DmError.store ∧
          Weather (.write write) w ans w' := by
      intro w w' tr r h
      obtain ⟨ans, hexec, hr⟩ := exec_raising h
      obtain ⟨hop, htr⟩ := Exec.perform_iff.mp hexec
      exact ⟨ans, htr, hr, hop⟩
    rcases Exec.bind_cases h with ⟨e, hfirst, rfl⟩ | ⟨_, w₁, tr₁, tr₂, hfirst, hrest, rfl⟩
    · obtain ⟨ans, rfl, hr, htime, ⟨⟨e', rfl⟩, hstore⟩ | ⟨nonce, hexec⟩⟩ := hwrite hfirst
      · refine ⟨[], write :: writes, rfl, htime, hstore, ?_, fun _ hw => (by cases hw),
          fun write' => ⟨fun hw => ?_, fun ⟨e'', he⟩ => ?_⟩, Or.inr ⟨List.cons_ne_nil _ _, e', hr⟩⟩
        · exact List.forall_mem_singleton.mpr ⟨write, rfl⟩
        · obtain rfl := Option.some.inj hw
          exact ⟨e', List.mem_singleton_self _⟩
        · cases List.mem_singleton.mp he
          rfl
      · obtain ⟨rfl, -⟩ := Prod.mk.inj hexec
        cases hr
    · obtain ⟨ans, rfl, hr, htime, ⟨⟨e', rfl⟩, -⟩ | ⟨nonce, hexec⟩⟩ := hwrite hfirst
      · cases hr
      · obtain ⟨rfl, hstore⟩ := Prod.mk.inj hexec
        obtain ⟨done, rest, rfl, hperformed⟩ := ih hrest
        refine ⟨write :: done, rest, rfl, Int.le_trans htime hperformed.time, ?_, ?_, ?_, ?_,
          hperformed.result⟩
        · rw [hperformed.store, ← hstore, written_cons]
        · exact List.forall_mem_cons.mpr ⟨⟨write, rfl⟩, hperformed.writes⟩
        · intro write' hw
          rcases List.mem_cons.mp hw with rfl | hw
          · exact List.mem_cons_self
          · exact List.mem_cons_of_mem _ (hperformed.done write' hw)
        · intro write'
          rw [hperformed.raised]
          refine exists_congr fun e => (List.mem_cons.trans (or_iff_right fun heq => ?_)).symm
          cases heq

section Written
variable {key : String} {ws : List DmWrite} {m : MemoryStore}

theorem RecordKind.written {α : Type} (kind : RecordKind α) (ws : List DmWrite) (m : MemoryStore) :
    kind.records (written ws m) key = kind.records m key ∨
      kind.delete key ∈ ws ∧ kind.records (written ws m) key = none ∨
      ∃ a, kind.put a ∈ ws ∧ kind.idOf a = key ∧ kind.records (written ws m) key = some a := by
  induction ws generalizing m with
  | nil => exact Or.inl rfl
  | cons write ws ih =>
    rw [written_cons]
    rcases ih (write.apply m) with hsame | ⟨hmem, hnone⟩ | ⟨a, hmem, ha, hsome⟩
    · rw [hsame]
      rcases kind.records_other write with ⟨a, rfl⟩ | ⟨id, rfl⟩ | hother
      · rw [kind.records_put]
        by_cases hkey : kind.idOf a = key
        · subst hkey
          exact Or.inr (Or.inr ⟨a, List.mem_cons_self, rfl, Function.update_self ..⟩)
        · exact Or.inl (Function.update_of_ne (Ne.symm hkey) ..)
      · rw [kind.records_delete]
        by_cases hkey : id = key
        · subst hkey
          exact Or.inr (Or.inl ⟨List.mem_cons_self, Function.update_self ..⟩)
        · exact Or.inl (Function.update_of_ne (Ne.symm hkey) ..)
      · exact Or.inl (congrFun (hother m) key)
    · exact Or.inr (Or.inl ⟨List.mem_cons_of_mem _ hmem, hnone⟩)
    · exact Or.inr (Or.inr ⟨a, List.mem_cons_of_mem _ hmem, ha, hsome⟩)

theorem written_session (ws : List DmWrite) (m : MemoryStore) :
    (written ws m).dmSessions key = m.dmSessions key ∨
      .deleteDmSession key ∈ ws ∧ (written ws m).dmSessions key = none ∨
      ∃ s, .putDmSession s ∈ ws ∧ s.sessionId = key ∧ (written ws m).dmSessions key = some s :=
  RecordKind.sessions.written ws m

theorem written_pending (ws : List DmWrite) (m : MemoryStore) :
    (written ws m).dmPending key = m.dmPending key ∨
      .deleteDmPending key ∈ ws ∧ (written ws m).dmPending key = none ∨
      ∃ p, .putDmPending p ∈ ws ∧ p.sessionId = key ∧ (written ws m).dmPending key = some p :=
  RecordKind.remainders.written ws m

end Written

/-! ### One attempt -/

structure Attempt where
  before : World
  payload : Bytes
  contentType : String
  message : SyncMlMessage
  binary : Bool
  encode : Encoder
  trace : List (Event DmOp.Answer)
  result : Except DmError DmResponse
  after : World

structure Attempted (service : DmService) (key : String) (a : Attempt) : Prop where
  read : service.read a.payload a.contentType = .ok (a.message, a.binary, a.encode)
  exec : Exec Weather (service.handle a.payload a.contentType).run a.before a.trace a.result a.after
  keyed : service.keyOf a.message.header = key

/-- Attempts one after another; in between the records of the session are left alone. -/
def Attempts (service : DmService) (key : String) : World → List Attempt → Prop
  | _, [] => True
  | w, a :: as => Undisturbed key w a.before ∧ Attempted service key a ∧ Attempts service key a.after as

theorem Attempts.attempted {service : DmService} {key : String} {as : List Attempt} {w : World}
    (h : Attempts service key w as) : ∀ a ∈ as, Attempted service key a := by
  induction as generalizing w with
  | nil => exact fun _ h => (by cases h)
  | cons a as ih => exact List.forall_mem_cons.mpr ⟨h.2.1, ih h.2.2⟩

structure Own (key : String) (w : World) : Prop where
  session : ∀ s ∈ w.store.dmSessions key, s.sessionId = key
  pending : ∀ p ∈ w.store.dmPending key, p.sessionId = key

theorem Keyed.own {key : String} {w : World} (h : Keyed w.store) : Own key w :=
  ⟨h.sessions key, h.pending key⟩

theorem Reached.own {key : String} {w : World} (h : Reached w) : Own key w := h.keyed.own

theorem Own.of_undisturbed {key : String} {w w' : World} (hown : Own key w)
    (hsame : Undisturbed key w w') : Own key w' :=
  ⟨hsame.1 ▸ hown.session, hsame.2 ▸ hown.pending⟩

theorem Own.reads {key : String} {w w' : World} (hown : Own key w) (h : Reads w w') :
    Own key w' := by
  constructor
  · intro s hs
    rcases h.sessions key with hsame | ⟨hnone, -⟩
    · exact hown.session s (hsame ▸ hs)
    · rw [hnone] at hs
      cases hs
  · intro p hp
    rcases h.pending key with hsame | ⟨hnone, -⟩
    · exact hown.pending p (hsame ▸ hp)
    · rw [hnone] at hp
      cases hp

namespace Attempt

def Answered (a : Attempt) (response : DmResponse) : Prop :=
  a.result = .ok response ∧ response.statusCode = 200

/-- The answer was there: its changes were written, all of them or up to one that raised. -/
structure Commits (a : Attempt) (key : String) (w : World) (outcome : DmResponse)
    (changes : DmChanges) (done rest : List DmWrite) : Prop where
  reads : Reads a.before w
  weathered : Weathered key a.before w a.trace
  writes : changes.writes = done ++ rest
  time : w.clock.now ≤ a.after.clock.now
  store : a.after.store = written done w.store
  done : ∀ write ∈ done, ⟨.write write, .ok ()⟩ ∈ a.trace
  raised : ∀ write, write ∈ rest.head? ↔ ∃ e, ⟨.write write, .error e⟩ ∈ a.trace
  result : rest = [] ∧ a.result = .ok (sent a.binary outcome) ∨
    rest ≠ [] ∧ ∃ e, a.result = .error (.store e)

end Attempt

/-- What an attempt comes to: nothing is written and it is not answered 200, or it is refused
authentication, or the message is accepted and handled. -/
inductive Course (service : DmService) (key : String) (a : Attempt) : Prop
  | idle : Weathered key a.before a.after a.trace → Reads a.before a.after →
    (∀ response, ¬ a.Answered response) → Course service key a
  | rejected (w : World) (clock : Clock) (reason nonce : String)
      (keepOrFresh : Auth.ChallengeNonce) (outcome : DmResponse) (done rest : List DmWrite) :
    service.verdict a.message (service.sessionFrom a.message (w.store.dmSessions key) clock)
      a.before.store.subscribers = .rejected reason keepOrFresh →
    outcome.metric = "DmAuthRejected" →
    a.Commits key w outcome
      { session := some { service.sessionFrom a.message (w.store.dmSessions key) clock with
          nonce, authenticated := false } } done rest →
    Course service key a
  | accepted (w : World) (session : DmSession) (device : Device) (outcome : DmResponse)
      (changes : DmChanges) (done rest : List DmWrite) : a.message.header.Numbered →
    service.Opens a.message a.before.store.subscribers (w.store.dmSessions key) session →
    session.sessionId = key →
    DmService.Answers service a.message session a.encode
      (DmService.currentRemainder session (w.store.dmPending key)).1
      (DmService.currentRemainder session (w.store.dmPending key)).2
      a.before.store.subscribers device outcome changes →
    changes.About key (fun _ => True) → a.Commits key w outcome changes done rest →
    Course service key a

namespace DmService
variable {service : DmService} {key : String} {a : Attempt}

theorem answers_about {message : SyncMlMessage} {session : DmSession} {encode : Encoder}
    {stored : Option DmPendingPackage} {subscribers : String → Option Subscriber} {device : Device}
    {outcome : DmResponse} {changes : DmChanges} (hkey : session.sessionId = key)
    (hstored : ∀ p ∈ stored, p.sessionId = key)
    (h : Answers service message session encode (currentRemainder session stored).1
      (currentRemainder session stored).2 subscribers device outcome changes) :
    changes.About key fun _ => True := by
  obtain ⟨hp, hbase⟩ := @currentRemainder_about _ (fun _ => True) _ _ hkey hstored
  cases h with
  | ended => exact { hbase with deleteSession := fun _ => hkey }
  | tooManyMessages => exact { hbase with deleteSession := fun _ => hkey }
  | continued p _ _ _ hsome _ hsend => exact sendNext_about hsend hkey (hp p hsome) trivial hbase
  | noAlert => exact hbase
  | inventory _ _ _ _ _ hrequest => exact requestInventory_about hrequest hkey trivial hbase
  | configuration _ _ _ _ _ hpush => exact pushConfiguration_about hpush hkey trivial hbase
  | finish _ _ _ _ _ _ hfinish => exact handleFinish_about hfinish hkey hbase

theorem handleMessage_unnumbered {message : SyncMlMessage} {encode : Encoder} {w w' : World}
    {tr : List (Event DmOp.Answer)} {outcome : DmResponse} {changes : DmChanges}
    (hm : ¬ message.header.Numbered)
    (h : Exec Weather (service.handleMessage message encode).run w tr (.ok (outcome, changes)) w') :
    outcome.statusCode ≠ 200 ∧ changes = {} := by
  have hnumbered : (message.header.sessionId = "" || message.header.msgId = "") = true := by
    unfold SyncHdr.Numbered at hm
    simpa [or_iff_not_imp_left] using hm
  unfold handleMessage at h
  dsimp only at h
  rw [if_pos hnumbered] at h
  obtain ⟨-, hr, -⟩ := Exec.pure_iff.mp h
  obtain ⟨rfl, rfl⟩ := Prod.mk.inj (Except.ok.inj hr)
  exact ⟨by decide, rfl⟩

theorem exec_commits {w : World} {tr tr' : List (Event DmOp.Answer)} {outcome : DmResponse}
    {changes : DmChanges} (hreads : Reads a.before w) (hweathered : Weathered key a.before w tr)
    (hops : ∀ e ∈ tr, e.1.IsRead) (htrace : a.trace = tr ++ tr')
    (h : Exec Weather (changes.commit >>= fun _ => pure (sent a.binary outcome)).run w tr' a.result
      a.after) : ∃ done rest, a.Commits key w outcome changes done rest := by
  have hcommitted : ∃ r, Exec Weather (writeAll changes.writes).run w tr' r a.after ∧
      a.result = r.map fun _ => sent a.binary outcome := by
    rcases Exec.bind_cases h with ⟨e, hcommit, hr⟩ | ⟨_, w₂, tr₃, tr₄, hcommit, hend, rfl⟩
    · exact ⟨_, hcommit, hr⟩
    · obtain ⟨rfl, hr, rfl⟩ := Exec.pure_iff.mp hend
      rw [List.append_nil]
      exact ⟨_, hcommit, hr⟩
  obtain ⟨r, hcommit, hr⟩ := hcommitted
  obtain ⟨done, rest, hwrites, hperformed⟩ := exec_performed hcommit
  -- what was read was read before
  have hread : ∀ (op : DmOp) (ans : op.Answer), op.IsRead →
      (⟨op, ans⟩ ∈ a.trace ↔ ⟨op, ans⟩ ∈ tr) := by
    intro op ans hop
    rw [htrace, List.mem_append]
    refine or_iff_left fun hmem => ?_
    obtain ⟨write, hwrite⟩ := hperformed.writes _ hmem
    rw [show op = .write write from hwrite] at hop
    exact hop
  refine ⟨done, rest, hreads, ?_, hwrites, hperformed.time, hperformed.store, ?_, ?_, ?_⟩
  · have hsession := hread (.getDmSession key) (.ok none) trivial
    have hpending := hread (.getDmPending key) (.ok none) trivial
    exact ⟨fun h => hweathered.sessionGone (hsession.mp h),
      fun h => hweathered.sessionKept (mt hsession.mpr h),
      fun h => hweathered.pendingGone (hpending.mp h),
      fun h => hweathered.pendingKept (mt hpending.mpr h)⟩
  · intro write hw
    rw [htrace]
    exact List.mem_append_right _ (hperformed.done write hw)
  · intro write
    rw [hperformed.raised, htrace]
    refine exists_congr fun e => (List.mem_append.trans (or_iff_right fun he => ?_)).symm
    exact hops _ he
  · rcases hperformed.result with ⟨hnil, rfl⟩ | ⟨hne, e, rfl⟩
    · exact Or.inl ⟨hnil, hr⟩
    · exact Or.inr ⟨hne, e, hr⟩

theorem attempted_cases (h : Attempted service key a) :
    (Weathered key a.before a.after a.trace ∧ Reads a.before a.after ∧
        ∀ response, ¬ a.Answered response) ∨
      ∃ w tr outcome changes done rest,
        Exec Weather (service.handleMessage a.message a.encode).run a.before tr
          (.ok (outcome, changes)) w ∧
        service.Handled a.message a.encode a.before w (.ok (outcome, changes)) ∧
        a.Commits key w outcome changes done rest := by
  have hexec := h.exec
  unfold handle at hexec
  rw [h.read] at hexec
  obtain ⟨handled, w, tr, tr', hhandle, hrest, htrace⟩ := Exec.bind_iff.mp hexec
  obtain ⟨hops, hreads, hresult⟩ :=
    reading_handleMessage (fun _ _ _ _ h => h) service a.message a.encode _ _ _ hhandle
  have hread : ∀ e ∈ tr, e.1.IsRead := fun e he => (hops e he).elim DmOp.Open.isRead And.left
  have hweathered : Weathered key a.before w tr := exec_weathered hhandle hread
  cases handled with
  | error e =>
    refine Or.inl ?_
    have hended : ∃ r : Except DmError DmResponse, (∀ response, r = .ok response →
        response.statusCode ≠ 200) ∧ tr' = [] ∧ a.result = r ∧ a.after = w := by
      cases hrefusal : refusal e with
      | some refused =>
        simp only [hrefusal] at hrest
        refine ⟨_, fun response hr => ?_, Exec.result_iff.mp hrest⟩
        exact Except.ok.inj hr ▸ refusal_status hrefusal
      | none =>
        simp only [hrefusal] at hrest
        exact ⟨_, fun response hr => (by cases hr), Exec.result_iff.mp hrest⟩
    obtain ⟨r, hstatus, rfl, hr, hw⟩ := hended
    rw [List.append_nil] at htrace
    rw [hw, htrace]
    exact ⟨hweathered, hreads, fun response hanswered =>
      hstatus response (hr.symm.trans hanswered.1) hanswered.2⟩
  | ok answer =>
    obtain ⟨outcome, changes⟩ := answer
    have hhandled := hresult.resolve_left (by rintro ⟨e, he, -⟩; cases he)
    obtain ⟨done, rest, hcommits⟩ := exec_commits hreads hweathered hread htrace hrest
    exact Or.inr ⟨w, tr, outcome, changes, done, rest, hhandle, hhandled, hcommits⟩

theorem course_of_nothing {w : World} {outcome : DmResponse} {done rest : List DmWrite}
    (hstatus : outcome.statusCode ≠ 200) (h : a.Commits key w outcome {} done rest) :
    Course service key a := by
  obtain ⟨hdone, hrest⟩ := List.append_eq_nil_iff.mp h.writes.symm
  have hstore : a.after.store = w.store := by rw [h.store, hdone, written_nil]
  refine .idle ?_ (h.reads.trans (.of_store_eq h.time hstore)) ?_
  · obtain ⟨hsgone, hskept, hpgone, hpkept⟩ := h.weathered
    rw [← hstore] at hsgone hskept hpgone hpkept
    exact ⟨hsgone, hskept, hpgone, hpkept⟩
  · rintro response ⟨hr, h200⟩
    rcases h.result with ⟨-, hok⟩ | ⟨hne, -⟩
    · obtain rfl := Except.ok.inj (hok.symm.trans hr)
      rw [sent_statusCode] at h200
      exact hstatus h200
    · exact hne hrest

theorem attempted_course (h : Attempted service key a) (hown : Own key a.before) :
    Course service key a := by
  rcases attempted_cases h with ⟨hweathered, hreads, hanswer⟩ |
    ⟨w, tr, outcome, changes, done, rest, hhandle, hhandled, hcommits⟩
  · exact .idle hweathered hreads hanswer
  · have hown' := hown.reads hcommits.reads
    obtain rfl := h.keyed
    by_cases hm : a.message.header.Numbered
    · generalize hr : Except.ok (outcome, changes) = r at hhandled
      cases hhandled with
      | unnumbered hempty => exact absurd hempty (not_or.mpr hm)
      | rejected clock session reason nonce keepOrFresh _ hsession hverdict =>
        subst hsession
        obtain ⟨body, rest', -, rfl, rfl⟩ := rejectMessage_ok hr.symm
        exact .rejected w clock reason nonce keepOrFresh _ done rest hverdict rfl hcommits
      | accepted clock session username device _ hsession hverdict =>
        obtain ⟨number, hnumber, hr⟩ := Except.bind_eq_ok.mp hr.symm
        dsimp only at hr
        split_ifs at hr
        · obtain ⟨rfl, rfl⟩ := Prod.mk.inj (Except.ok.inj hr)
          exact course_of_nothing (by decide) hcommits
        · have hopens : service.Opens a.message a.before.store.subscribers
              (w.store.dmSessions (service.keyOf a.message.header))
              (acceptedSession session username number) :=
            ⟨clock, username, number, hsession ▸ hverdict, hnumber, hsession ▸ rfl⟩
          have hid := hopens.sessionId hown'.session
          have hanswers := answer_answers hr
          rw [show session.sessionId = _ from hid] at hanswers
          exact .accepted w _ device outcome changes done rest hm hopens hid hanswers
            (answers_about hid hown'.pending hanswers) hcommits
    · obtain ⟨hstatus, rfl⟩ := handleMessage_unnumbered hm hhandle
      exact course_of_nothing hstatus hcommits

section Leaves
variable {message : SyncMlMessage} {session : DmSession} {encode : Encoder}
  {subscribers : String → Option Subscriber} {device : Device} {outcome : DmResponse}
  {changes : DmChanges}

theorem currentRemainder_changes (session : DmSession) (stored : Option DmPendingPackage) :
    (currentRemainder session stored).2 =
      { deletePendingId := (currentRemainder session stored).2.deletePendingId } := by
  unfold currentRemainder
  cases stored with
  | none => rfl
  | some p =>
    dsimp only
    split_ifs
    · rfl
    · rfl

theorem currentRemainder_some {stored : Option DmPendingPackage} {p : DmPendingPackage}
    (h : (currentRemainder session stored).1 = some p) :
    stored = some p ∧ p.phase = session.phase ∧ (currentRemainder session stored).2 = {} := by
  cases stored with
  | none => cases h
  | some p' =>
    unfold currentRemainder at h ⊢
    dsimp only at h ⊢
    split_ifs at h ⊢ with hphase
    obtain rfl := Option.some.inj h
    exact ⟨rfl, not_not.mp hphase, rfl⟩

theorem pendingAfter_started {stored : Option DmPendingPackage} {c : DmChanges}
    (hnone : (currentRemainder session stored).1 = none) (hne : session.sessionId ≠ "")
    (hdelete : c.deleteSessionId = "")
    (hdrop : c.deletePendingId = (currentRemainder session stored).2.deletePendingId) :
    c.pendingAfter stored = c.pending := by
  rw [DmChanges.pendingAfter, if_neg (not_not.mpr hdelete), hdrop]
  cases stored with
  | none => exact (congrArg c.pending.or (ite_self none)).trans Option.or_none
  | some p =>
    unfold currentRemainder at hnone ⊢
    dsimp only at hnone ⊢
    split_ifs at hnone ⊢
    · exact Option.or_none

theorem after_answers {stored : Option DmPendingPackage} (found : Option DmSession)
    {subscribers : String → Option Subscriber} {device : Device} {outcome : DmResponse}
    {changes : DmChanges} (hne : session.sessionId ≠ "") (h200 : outcome.statusCode = 200)
    (h : Answers service message session encode (currentRemainder session stored).1
      (currentRemainder session stored).2 subscribers device outcome changes) :
    changes.sessionAfter found = changes.session ∧ changes.pendingAfter stored = changes.pending := by
  have hbase := currentRemainder_changes session stored
  -- an answer that ends the session leaves neither record
  have hends : ∀ c : DmChanges, c.session = none → c.pending = none →
      c.deleteSessionId = session.sessionId →
      c.sessionAfter found = c.session ∧ c.pendingAfter stored = c.pending := by
    intro c hsession hpending hdelete
    rw [DmChanges.sessionAfter, DmChanges.pendingAfter, if_pos (hdelete ▸ hne),
      if_pos (hdelete ▸ hne), hsession, hpending]
    exact ⟨rfl, rfl⟩
  have hstores : ∀ (c : DmChanges) (s : DmSession), c.session = some s → c.deleteSessionId = "" →
      c.sessionAfter found = c.session := by
    intro c s hsession hdelete
    rw [DmChanges.sessionAfter, if_neg (not_not.mpr hdelete), hsession, Option.some_or]
  cases h with
  | ended =>
    rw [hbase]
    exact hends _ rfl rfl rfl
  | tooManyMessages => exact absurd h200 (by decide)
  | noAlert => exact absurd h200 (by decide)
  | inventory _ _ _ hnone _ hrequest =>
    obtain ⟨rest, body, pending, -, -, rfl⟩ := requestInventory_ok hrequest
    have hdelete : (currentRemainder session stored).2.deleteSessionId = "" := by rw [hbase]
    exact ⟨hstores _ _ rfl hdelete, pendingAfter_started hnone hne hdelete rfl⟩
  | configuration _ _ _ hnone _ hpush =>
    obtain ⟨values, rest, body, pending, -, -, -, rfl⟩ := pushConfiguration_ok hpush
    have hdelete : (currentRemainder session stored).2.deleteSessionId = "" := by rw [hbase]
    exact ⟨hstores _ _ rfl hdelete, pendingAfter_started hnone hne hdelete rfl⟩
  | finish _ _ _ hnone _ _ hfinish =>
    obtain ⟨rest, body, pending, hstarts, ⟨-, -, rfl⟩ | ⟨hnil, heq⟩⟩ := handleFinish_ok hfinish
    · have hdelete : (currentRemainder session stored).2.deleteSessionId = "" := by rw [hbase]
      exact ⟨hstores _ _ rfl hdelete, pendingAfter_started hnone hne hdelete rfl⟩
    · obtain ⟨-, rfl⟩ := Prod.mk.inj heq
      rw [hbase]
      exact hends _ rfl (hstarts.none_of_nil hnil) rfl
  | continued p _ _ _ hsome _ hsend =>
    obtain ⟨-, -, hnothing⟩ := currentRemainder_some hsome
    rw [hnothing] at hsend
    -- the package is closed with the session, done with, or to be continued
    obtain ⟨unsent, body, rest, -, -, hcases⟩ := sendNext_ok hsend
    rcases hcases with ⟨-, -, heq⟩ | ⟨-, -, -, rfl⟩ | ⟨-, -, entries, -, rfl⟩
    · obtain ⟨-, rfl⟩ := Prod.mk.inj heq
      exact hends _ rfl rfl counted_sessionId
    · refine ⟨hstores _ _ rfl rfl, ?_⟩
      rw [DmChanges.pendingAfter, if_neg (by simp), if_pos hne]
      rfl
    · refine ⟨hstores _ _ rfl rfl, ?_⟩
      rw [DmChanges.pendingAfter, if_neg (by simp)]
      rfl

/-- An answer of 200 either ends the session or stores it. -/
theorem answers_session {base : DmChanges} {pending : Option DmPendingPackage}
    (h : Answers service message session encode pending base subscribers device outcome changes)
    (h200 : outcome.statusCode = 200) :
    changes.deleteSessionId = session.sessionId ∨ ∃ s, changes.session = some s := by
  cases h with
  | ended => exact Or.inl rfl
  | tooManyMessages => exact Or.inl rfl
  | noAlert => exact absurd h200 (by decide)
  | inventory _ _ _ _ _ hrequest =>
    obtain ⟨rest, body, pending, -, -, rfl⟩ := requestInventory_ok hrequest
    exact Or.inr ⟨_, rfl⟩
  | configuration _ _ _ _ _ hpush =>
    obtain ⟨values, rest, body, pending, -, -, -, rfl⟩ := pushConfiguration_ok hpush
    exact Or.inr ⟨_, rfl⟩
  | finish _ _ _ _ _ _ hfinish =>
    obtain ⟨rest, body, pending, -, ⟨-, -, rfl⟩ | ⟨-, heq⟩⟩ := handleFinish_ok hfinish
    · exact Or.inr ⟨_, rfl⟩
    · obtain ⟨-, rfl⟩ := Prod.mk.inj heq
      exact Or.inl rfl
  | continued p _ _ _ _ _ hsend =>
    obtain ⟨unsent, body, rest, -, -, hcases⟩ := sendNext_ok hsend
    rcases hcases with ⟨-, -, heq⟩ | ⟨-, -, -, rfl⟩ | ⟨-, -, entries, -, rfl⟩
    · obtain ⟨-, rfl⟩ := Prod.mk.inj heq
      exact Or.inl counted_sessionId
    · exact Or.inr ⟨_, rfl⟩
    · exact Or.inr ⟨_, rfl⟩

theorem answers_status {base : DmChanges} {pending : Option DmPendingPackage} {s : DmSession}
    (hsession : base.session = none)
    (h : Answers service message session encode pending base subscribers device outcome changes)
    (hs : changes.session = some s) : outcome.statusCode = 200 := by
  cases h with
  | ended => rfl
  | tooManyMessages =>
    rw [show base.session = some s from hs] at hsession
    cases hsession
  | noAlert =>
    rw [hs] at hsession
    cases hsession
  | inventory _ _ _ _ _ hrequest =>
    obtain ⟨rest, body, pending, -, rfl, -⟩ := requestInventory_ok hrequest
    rfl
  | configuration _ _ _ _ _ hpush =>
    obtain ⟨values, rest, body, pending, -, -, rfl, -⟩ := pushConfiguration_ok hpush
    rfl
  | finish _ _ _ _ _ _ hfinish =>
    obtain ⟨rest, body, pending, -, hfinishes⟩ := handleFinish_ok hfinish
    exact hfinishes.status
  | continued p _ _ _ _ _ hsend =>
    obtain ⟨unsent, body, rest, -, -, hcontinues⟩ := sendNext_ok hsend
    exact hcontinues.status

end Leaves

/-! ### What is among the writes -/

section Writes
variable {c : DmChanges} {write : DmWrite}

theorem mem_saveSession_iff : write ∈ c.saveSession ↔
    (∃ s, c.session = some s ∧ write = .putDmSession s) ∨
      c.deleteSessionId ≠ "" ∧ write = .deleteDmSession c.deleteSessionId := by
  unfold DmChanges.saveSession
  rw [List.mem_append, Option.mem_toList, Option.map_eq_some_iff]
  refine or_congr ⟨fun ⟨s, hs, hw⟩ => ⟨s, hs, hw.symm⟩, fun ⟨s, hs, hw⟩ => ⟨s, hs, hw.symm⟩⟩ ?_
  split_ifs with h
  · rw [List.mem_singleton, and_iff_right h]
  · exact ⟨fun hw => (by cases hw), fun hw => absurd hw.1 h⟩

theorem mem_saveRemainder_iff : write ∈ c.saveRemainder ↔
    (c.deletePendingId ≠ "" ∧ write = .deleteDmPending c.deletePendingId) ∨
      (∃ p, c.pending = some p ∧ write = .putDmPending p) ∨
      c.deleteSessionId ≠ "" ∧ write = .deleteDmPending c.deleteSessionId := by
  have hdropped : ∀ id : String,
      write ∈ (if id ≠ "" then [DmWrite.deleteDmPending id] else []) ↔
        id ≠ "" ∧ write = .deleteDmPending id := by
    intro id
    split_ifs with h
    · rw [List.mem_singleton, and_iff_right h]
    · exact ⟨fun hw => (by cases hw), fun hw => absurd hw.1 h⟩
  unfold DmChanges.saveRemainder
  rw [List.append_assoc, List.mem_append, List.mem_append, Option.mem_toList,
    Option.map_eq_some_iff, hdropped, hdropped]
  refine or_congr Iff.rfl (or_congr ?_ Iff.rfl)
  exact ⟨fun ⟨p, hp, hw⟩ => ⟨p, hp, hw.symm⟩, fun ⟨p, hp, hw⟩ => ⟨p, hp, hw.symm⟩⟩

theorem mem_writes_iff : write ∈ c.writes ↔
    (∃ d, c.device = some d ∧ write = .putDevice d) ∨
      write ∈ c.saveRemainder ∨ write ∈ c.saveSession := by
  unfold DmChanges.writes
  rw [List.mem_append, Option.mem_toList, Option.map_eq_some_iff]
  refine or_congr ⟨fun ⟨d, hd, hw⟩ => ⟨d, hd, hw.symm⟩, fun ⟨d, hd, hw⟩ => ⟨d, hd, hw.symm⟩⟩ ?_
  split_ifs
  · rw [List.mem_append, or_comm]
  · rw [List.mem_append]

theorem putDmSession_mem_writes {s : DmSession} (h : .putDmSession s ∈ c.writes) :
    c.session = some s := by
  simpa [mem_writes_iff, mem_saveSession_iff, mem_saveRemainder_iff] using h

theorem putDmPending_mem_writes {p : DmPendingPackage} (h : .putDmPending p ∈ c.writes) :
    c.pending = some p := by
  simpa [mem_writes_iff, mem_saveSession_iff, mem_saveRemainder_iff] using h

theorem deleteDmPending_mem_writes {id : String} (h : .deleteDmPending id ∈ c.writes) :
    id ≠ "" ∧ (id = c.deletePendingId ∨ id = c.deleteSessionId) := by
  have h : c.deletePendingId ≠ "" ∧ id = c.deletePendingId ∨
      c.deleteSessionId ≠ "" ∧ id = c.deleteSessionId := by
    simpa [mem_writes_iff, mem_saveSession_iff, mem_saveRemainder_iff] using h
  rcases h with ⟨hne, rfl⟩ | ⟨hne, rfl⟩
  · exact ⟨hne, Or.inl rfl⟩
  · exact ⟨hne, Or.inr rfl⟩

theorem deleteDmSession_mem_writes {id : String} (h : .deleteDmSession id ∈ c.writes) :
    c.deleteSessionId ≠ "" ∧ id = c.deleteSessionId := by
  simpa [mem_writes_iff, mem_saveSession_iff, mem_saveRemainder_iff] using h

theorem mem_front {α : Type} {done rest front : List α} {last : α}
    (h : done ++ rest = front ++ [last]) (hrest : rest ≠ []) : ∀ x ∈ done, x ∈ front := by
  rcases List.append_eq_append_iff.mp h with ⟨xs, hfront, -⟩ | ⟨xs, hdone, hlast⟩
  · exact fun x hx => hfront ▸ List.mem_append_left xs hx
  · cases xs with
    | nil =>
      rw [List.append_nil] at hdone
      exact fun x hx => hdone ▸ hx
    | cons x xs => exact absurd (List.append_eq_nil_iff.mp (List.cons.inj hlast).2.symm).2 hrest

theorem rest_of_putDmSession {s : DmSession} {done rest : List DmWrite}
    (hwrites : c.writes = done ++ rest) (hprogress : c.progressInRemainder = false)
    (hdelete : c.deleteSessionId = "") (hdone : .putDmSession s ∈ done) : rest = [] := by
  have hs := putDmSession_mem_writes (hwrites ▸ List.mem_append_left rest hdone)
  have hlast : c.writes = ((c.device.map DmWrite.putDevice).toList ++ c.saveRemainder) ++
      [.putDmSession s] := by
    simp [DmChanges.writes, DmChanges.saveSession, hprogress, hdelete, hs]
  have hfront : .putDmSession s ∉ (c.device.map DmWrite.putDevice).toList ++ c.saveRemainder := by
    simp [mem_saveRemainder_iff]
  by_contra hrest
  exact hfront (mem_front (hwrites.symm.trans hlast) hrest _ hdone)

/-- A session that is stored while another write is still to come is that of a continuation, whose
progress is in the remainder. -/
theorem unfinished_session {message : SyncMlMessage} {session s : DmSession} {encode : Encoder}
    {stored : Option DmPendingPackage} {subscribers : String → Option Subscriber} {device : Device}
    {outcome : DmResponse} {done rest : List DmWrite}
    (h : Answers service message session encode (currentRemainder session stored).1
      (currentRemainder session stored).2 subscribers device outcome c)
    (hwrites : c.writes = done ++ rest) (hrest : rest ≠ []) (hdone : .putDmSession s ∈ done) :
    s = counted message session := by
  have hs := putDmSession_mem_writes (hwrites ▸ List.mem_append_left rest hdone)
  rw [currentRemainder_changes] at h
  cases h with
  | ended => cases hs
  | tooManyMessages => cases hs
  | noAlert => cases hs
  | inventory _ _ _ _ _ hrequest =>
    obtain ⟨rest', body, pending, -, rfl, rfl⟩ := requestInventory_ok hrequest
    exact absurd (rest_of_putDmSession hwrites rfl rfl hdone) hrest
  | configuration _ _ _ _ _ hpush =>
    obtain ⟨values, rest', body, pending, -, -, rfl, rfl⟩ := pushConfiguration_ok hpush
    exact absurd (rest_of_putDmSession hwrites rfl rfl hdone) hrest
  | finish _ _ _ _ _ _ hfinish =>
    obtain ⟨rest', body, pending, -, ⟨-, rfl, rfl⟩ | ⟨-, heq⟩⟩ := handleFinish_ok hfinish
    · exact absurd (rest_of_putDmSession hwrites rfl rfl hdone) hrest
    · obtain ⟨rfl, rfl⟩ := Prod.mk.inj heq
      cases hs
  | continued p _ _ _ _ _ hsend =>
    obtain ⟨unsent, body, rest', -, -, hcases⟩ := sendNext_ok hsend
    rcases hcases with ⟨-, -, heq⟩ | ⟨-, -, rfl, rfl⟩ | ⟨-, rfl, entries, -, rfl⟩
    · obtain ⟨rfl, rfl⟩ := Prod.mk.inj heq
      cases hs
    · exact (Option.some.inj hs).symm
    · exact (Option.some.inj hs).symm

end Writes

section After
variable {w : World} {outcome response : DmResponse} {changes : DmChanges}
  {done rest : List DmWrite}

theorem commits_answered (h : a.Commits key w outcome changes done rest)
    (habout : changes.About key fun _ => True) (hanswered : a.Answered response) :
    rest = [] ∧ response = sent a.binary outcome ∧ outcome.statusCode = 200 ∧
      a.after.store.dmSessions key = changes.sessionAfter (w.store.dmSessions key) ∧
      a.after.store.dmPending key = changes.pendingAfter (w.store.dmPending key) := by
  rcases h.result with ⟨rfl, hr⟩ | ⟨-, e, hr⟩
  · obtain rfl := Except.ok.inj (hr.symm.trans hanswered.1)
    have h200 := hanswered.2
    rw [sent_statusCode] at h200
    have hstore : a.after.store = written changes.writes w.store := by
      rw [h.store, h.writes, List.append_nil]
    refine ⟨rfl, rfl, h200, ?_, ?_⟩
    · rw [hstore, (habout.written_writes _).1]
    · rw [hstore, (habout.written_writes _).2]
  · cases hr.symm.trans hanswered.1

theorem records_answered {session : DmSession} {subscribers : String → Option Subscriber}
    {device : Device} (hne : session.sessionId ≠ "")
    (hanswers : Answers service a.message session a.encode
      (currentRemainder session (w.store.dmPending key)).1
      (currentRemainder session (w.store.dmPending key)).2 subscribers device outcome changes)
    (h : a.Commits key w outcome changes done rest) (habout : changes.About key fun _ => True)
    (hanswered : a.Answered response) :
    a.after.store.dmSessions key = changes.session ∧
      a.after.store.dmPending key = changes.pending := by
  obtain ⟨-, -, h200, hsessions, hpending⟩ := commits_answered h habout hanswered
  obtain ⟨hsession, hremainder⟩ := after_answers (w.store.dmSessions key) hne h200 hanswers
  exact ⟨hsessions.trans hsession, hpending.trans hremainder⟩

theorem commits_unanswered (h : a.Commits key w outcome changes done rest)
    (h200 : outcome.statusCode = 200) (hanswered : ∀ response, ¬ a.Answered response) :
    rest ≠ [] ∧ ∃ e, a.result = .error (.store e) := by
  rcases h.result with ⟨-, hr⟩ | hfailed
  · exact absurd ⟨hr, sent_statusCode a.binary outcome ▸ h200⟩ (hanswered _)
  · exact hfailed

theorem session_of_commits (h : a.Commits key w outcome changes done rest) :
    ∀ s ∈ a.after.store.dmSessions key, s ∈ w.store.dmSessions key ∨
      .putDmSession s ∈ done ∧ changes.session = some s := by
  intro s hs
  rw [h.store] at hs
  rcases @written_session key done w.store with hsame | ⟨-, hnone⟩ | ⟨s', hmem, -, hsome⟩
  · exact Or.inl (hsame ▸ hs)
  · rw [hnone] at hs
    cases hs
  · obtain rfl := Option.some.inj (hsome.symm.trans hs)
    exact Or.inr ⟨hmem, putDmSession_mem_writes (h.writes ▸ List.mem_append_left rest hmem)⟩

theorem pending_of_commits (h : a.Commits key w outcome changes done rest) :
    ∀ p ∈ a.after.store.dmPending key, p ∈ w.store.dmPending key ∨
      .putDmPending p ∈ done ∧ changes.pending = some p := by
  intro p hp
  rw [h.store] at hp
  rcases @written_pending key done w.store with hsame | ⟨-, hnone⟩ | ⟨p', hmem, -, hsome⟩
  · exact Or.inl (hsame ▸ hp)
  · rw [hnone] at hp
    cases hp
  · obtain rfl := Option.some.inj (hsome.symm.trans hp)
    exact Or.inr ⟨hmem, putDmPending_mem_writes (h.writes ▸ List.mem_append_left rest hmem)⟩

theorem own_written {w w' : World} {ws : List DmWrite} (hown : Own key w)
    (hstore : w'.store = written ws w.store) : Own key w' := by
  constructor
  · intro s hs
    rw [hstore] at hs
    rcases @written_session key ws w.store with hsame | ⟨-, hnone⟩ | ⟨s', -, hs', hsome⟩
    · exact hown.session s (hsame ▸ hs)
    · rw [hnone] at hs
      cases hs
    · rw [hsome] at hs
      exact Option.some.inj hs ▸ hs'
  · intro p hp
    rw [hstore] at hp
    rcases @written_pending key ws w.store with hsame | ⟨-, hnone⟩ | ⟨p', -, hp', hsome⟩
    · exact hown.pending p (hsame ▸ hp)
    · rw [hnone] at hp
      cases hp
    · rw [hsome] at hp
      exact Option.some.inj hp ▸ hp'

theorem own_attempted (h : Attempted service key a) (hown : Own key a.before) : Own key a.after := by
  rcases attempted_cases h with ⟨-, hreads, -⟩ | ⟨w, tr, outcome, changes, done, rest, -, -, hcommits⟩
  · exact hown.reads hreads
  · exact own_written (hown.reads hcommits.reads) hcommits.store

theorem own_attempts {as : List Attempt} {w : World} (h : Attempts service key w as)
    (hown : Own key w) : ∀ a ∈ as, Own key a.before := by
  induction as generalizing w with
  | nil => exact fun _ h => (by cases h)
  | cons a as ih =>
    obtain ⟨hsame, hattempted, hrest⟩ := h
    have hbefore := hown.of_undisturbed hsame
    exact List.forall_mem_cons.mpr ⟨hbefore, ih hrest (own_attempted hattempted hbefore)⟩

end After

/-! ### Attempts against a forecast -/

/-- A request, what lies ahead of it, and what is expected to come of it. -/
structure Trial where
  payload : Bytes
  contentType : String := contentTypeXml
  ahead : List Moment := []
  expected : World → Except DmError DmResponse → World → Bool

def tries (service : DmService) (key : String) : World → List Trial → Bool
  | _, [] => true
  | w, t :: ts =>
    match service.read t.payload t.contentType with
    | .error _ => false
    | .ok (message, binary, encode) =>
      let r := (service.respond message binary encode).run.eval DmOp.foresee ⟨w, t.ahead⟩
      service.keyOf message.header = key && t.expected w r.1 r.2.world &&
        service.tries key r.2.world ts

structure Meets (a : Attempt) (t : Trial) : Prop where
  payload : a.payload = t.payload
  contentType : a.contentType = t.contentType
  expected : t.expected a.before a.result a.after = true

def Straight : World → List Attempt → Prop
  | _, [] => True
  | w, a :: as => a.before = w ∧ Straight a.after as

theorem straight_of_tries {trials : List Trial} {w : World}
    (h : service.tries key w trials = true) :
    ∃ as, Attempts service key w as ∧ Straight w as ∧ List.Forall₂ Meets as trials := by
  induction trials generalizing w with
  | nil => exact ⟨[], trivial, trivial, .nil⟩
  | cons t ts ih =>
    unfold tries at h
    split at h
    · cases h
    · rename_i message binary encode hread
      simp only [Bool.and_eq_true, decide_eq_true_eq] at h
      obtain ⟨⟨hkey, hexpected⟩, hrest⟩ := h
      obtain ⟨tr, hexec⟩ := exec_foresee service t.payload t.contentType ⟨w, t.ahead⟩
      have hforesee : service.foresee t.payload t.contentType ⟨w, t.ahead⟩ =
          (service.respond message binary encode).run.eval DmOp.foresee ⟨w, t.ahead⟩ := by
        rw [foresee, handle, hread]
      rw [hforesee] at hexec
      obtain ⟨as, hattempts, hstraight, hmeets⟩ := ih hrest
      exact ⟨⟨w, t.payload, t.contentType, message, binary, encode, tr, _, _⟩ :: as,
        ⟨⟨rfl, rfl⟩, ⟨hread, hexec, hkey⟩, hattempts⟩, ⟨rfl, hstraight⟩,
        .cons ⟨rfl, rfl, hexpected⟩ hmeets⟩

theorem attempts_of_tries {trials : List Trial} {w : World}
    (h : service.tries key w trials = true) :
    ∃ as, Attempts service key w as ∧ List.Forall₂ Meets as trials := by
  obtain ⟨as, hattempts, -, hmeets⟩ := straight_of_tries h
  exact ⟨as, hattempts, hmeets⟩

def answers200 (metric detail : String) (_ : World) (r : Except DmError DmResponse) (_ : World) :
    Bool :=
  match r with
  | .ok response =>
    response.statusCode = 200 && response.metric = metric && response.detail = detail
  | .error _ => false

def raises (_ : World) (r : Except DmError DmResponse) (_ : World) : Bool :=
  match r with
  | .ok _ => false
  | .error _ => true

theorem answered_of_answers200 {metric detail : String}
    (h : answers200 metric detail a.before a.result a.after = true) :
    ∃ response, a.Answered response ∧ response.metric = metric ∧ response.detail = detail := by
  unfold answers200 at h
  split at h
  · rename_i response hr
    simp only [Bool.and_eq_true, decide_eq_true_eq] at h
    exact ⟨response, ⟨hr, h.1.1⟩, h.1.2, h.2⟩
  · cases h

theorem raised_of_raises (h : raises a.before a.result a.after = true) :
    ∃ e, a.result = .error e := by
  unfold raises at h
  split at h
  · cases h
  · exact ⟨_, by assumption⟩

end DmService
end Acs.Omadm
