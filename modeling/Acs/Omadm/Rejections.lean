import Acs.Omadm.Commit
import Acs.Omadm.Coupling

/-! A message that fails authentication: what it may touch, and what its answer may depend on. -/

namespace Acs.Omadm
open Interleave Xml

/-! ### What it touches -/

/-- What a message may ask for that fails authentication. -/
def DmOp.Harmless (op : DmOp) : Prop := op.Open ∨ ∃ s, op = .write (.putDmSession s)

theorem harmless_step {op : DmOp} {w w' : World} {ans : op.Answer} (h : Weather op w ans w')
    (hop : op.Harmless) :
    w'.store.devices = w.store.devices ∧ w'.store.dmPending = w.store.dmPending ∧
      w'.store.subscribers = w.store.subscribers := by
  obtain ⟨-, ⟨-, hstore⟩ | ⟨nonce, hexec⟩⟩ := h
  · rw [hstore]
    exact ⟨rfl, rfl, rfl⟩
  · have hstore : w'.store = (op.exec w'.clock nonce w.store).2 := (congrArg Prod.snd hexec).symm
    rw [hstore]
    rcases hop with hopen | ⟨s, rfl⟩
    · cases op with
      | getDmSession id =>
        rcases getDmSession_cases w.store id w'.clock with ⟨-, hsame⟩ | ⟨-, hdeleted, -⟩
        · simp [DmOp.exec, hsame]
        · simp [DmOp.exec, hdeleted, MemoryStore.deleteDmSession]
      | getSubscriber => exact ⟨rfl, rfl, rfl⟩
      | now => exact ⟨rfl, rfl, rfl⟩
      | makeNonce => exact ⟨rfl, rfl, rfl⟩
      | getDmPending => exact hopen.elim
      | getDevice => exact hopen.elim
      | write => exact hopen.elim
    · exact ⟨rfl, rfl, rfl⟩

theorem harmless_run {α : Type} {p : Program DmOp DmOp.Answer α} {w w' : World}
    {tr : List (Event DmOp.Answer)} {a : α} (h : Exec Weather p w tr a w')
    (hops : ∀ e ∈ tr, e.1.Harmless) :
    w'.store.devices = w.store.devices ∧ w'.store.dmPending = w.store.dmPending ∧
      w'.store.subscribers = w.store.subscribers := by
  induction h with
  | result => exact ⟨rfl, rfl, rfl⟩
  | call hstep _ ih =>
    obtain ⟨hdevices, hpending, hsubs⟩ := harmless_step hstep (hops _ List.mem_cons_self)
    obtain ⟨hdevices', hpending', hsubs'⟩ := ih fun e he => hops e (List.mem_cons_of_mem _ he)
    exact ⟨hdevices'.trans hdevices, hpending'.trans hpending, hsubs'.trans hsubs⟩

/-- No element that makes a device read or write anything. -/
def Commandless (tree : Element) : Prop :=
  ∀ e ∈ tree.iter, e.localName ∉ ["Get", "Add", "Replace"]

theorem commandless_leaf {name text : String} (h : name ∉ ["Get", "Add", "Replace"]) :
    Commandless (.leaf name text) := by
  intro e he
  obtain rfl := Element.mem_iter_leaf.mp he
  exact h

theorem commandless_metinf {name text : String} (h : name ∉ ["Get", "Add", "Replace"]) :
    Commandless (SyncMlBuilder.metinf name text) := by
  intro e he
  obtain rfl : e = SyncMlBuilder.metinf name text := by
    simpa [SyncMlBuilder.metinf, Element.iter, Element.iterAll] using he
  exact h

theorem commandless_branch {name : String} {children : List Element}
    (h : name ∉ ["Get", "Add", "Replace"]) (hchildren : ∀ child ∈ children, Commandless child) :
    Commandless (.branch name children) := by
  intro e he
  rcases Element.mem_iter_branch.mp he with rfl | ⟨child, hchild, he⟩
  · exact h
  · exact hchildren child hchild e he

theorem commandless_chal {challenge : Option (String × String)} :
    ∀ e ∈ SyncMlBuilder.chal challenge, Commandless e := by
  cases challenge with
  | none => exact fun e he => absurd he List.not_mem_nil
  | some c =>
    obtain ⟨authType, nonce⟩ := c
    intro e he
    obtain rfl := List.mem_singleton.mp he
    apply commandless_branch (by decide)
    intro e he
    obtain rfl := List.mem_singleton.mp he
    apply commandless_branch (by decide)
    intro e he
    rcases List.mem_append.mp he with he | he
    · rcases List.mem_pair.mp he with rfl | rfl
      · exact commandless_metinf (by decide)
      · exact commandless_metinf (by decide)
    · split_ifs at he
      · obtain rfl := List.mem_singleton.mp he
        exact commandless_metinf (by decide)
      · exact absurd he List.not_mem_nil

/-- What a message leaves behind that fails authentication. -/
structure Spared (service : DmService) (message : SyncMlMessage) (encode : Encoder) (w w' : World)
    (tr : List (Event DmOp.Answer)) (r : Except DmError DmResponse) : Prop where
  operations : ∀ e ∈ tr, e.1.Harmless
  devices : w'.store.devices = w.store.devices
  pending : w'.store.dmPending = w.store.dmPending
  session : ∀ s, w.store.dmSessions (service.keyOf message.header) = some s →
    MemoryStore.lapsed s.expiresAt w'.clock = false →
    ∃ s', w'.store.dmSessions (service.keyOf message.header) = some s' ∧ s'.phase = s.phase ∧
      s'.imsi = s.imsi ∧ s'.reportedFailures = s.reportedFailures ∧ s'.expiresAt = s.expiresAt
  answer : ∀ response, r = .ok response → response.body = [] ∨
    ∃ tree, service.encodeTree encode tree = .ok response.body ∧ Commandless tree

namespace DmService
variable {service : DmService} {message : SyncMlMessage} {encode : Encoder} {w w' : World}

theorem messageTree_commandless {session : DmSession} {header : String × Option (String × String)}
    {final : Bool} {tree : Element}
    (h : service.messageTree message session header [] final = .ok tree) : Commandless tree := by
  obtain ⟨builder, hbuilder, h⟩ := Except.bind_eq_ok.mp h
  obtain ⟨number, -, hnew⟩ := Except.bind_eq_ok.mp hbuilder
  obtain rfl := Except.ok.inj hnew
  obtain rfl := Except.ok.inj h
  -- a header, and a body with one `Status` and perhaps a `Final`
  apply commandless_branch (by decide)
  intro e he
  rcases List.mem_pair.mp he with rfl | rfl
  · apply commandless_branch (by decide)
    intro e he
    simp only [List.mem_cons, List.not_mem_nil, or_false] at he
    rcases he with rfl | rfl | rfl | rfl | rfl | rfl | rfl
    · exact commandless_leaf (by decide)
    · exact commandless_leaf (by decide)
    · exact commandless_leaf (by decide)
    · exact commandless_leaf (by decide)
    · exact commandless_branch (by decide)
        (List.forall_mem_singleton.mpr (commandless_leaf (by decide)))
    · exact commandless_branch (by decide)
        (List.forall_mem_singleton.mpr (commandless_leaf (by decide)))
    · exact commandless_branch (by decide)
        (List.forall_mem_singleton.mpr (commandless_metinf (by decide)))
  · apply commandless_branch (by decide)
    intro e he
    rcases List.mem_append.mp he with he | he
    · obtain rfl := List.mem_singleton.mp he
      apply commandless_branch (by decide)
      intro e he
      simp only [List.mem_cons, List.mem_append, List.not_mem_nil, or_false] at he
      rcases he with rfl | (((rfl | rfl | rfl) | he) | he) | rfl
      · exact commandless_leaf (by decide)
      · exact commandless_leaf (by decide)
      · exact commandless_leaf (by decide)
      · exact commandless_leaf (by decide)
      · split_ifs at he
        · obtain rfl := List.mem_singleton.mp he
          exact commandless_leaf (by decide)
        · exact absurd he List.not_mem_nil
      · exact commandless_chal e he
      · exact commandless_leaf (by decide)
    · split_ifs at he
      · obtain rfl := List.mem_singleton.mp he
        exact commandless_leaf (by decide)
      · exact absurd he List.not_mem_nil

variable {outcome : DmResponse} {changes : DmChanges}

theorem handled_unauthenticated {r : Except DmError (DmResponse × DmChanges)}
    (h : service.Handled message encode w w' r) (hfails : ¬ service.Authenticates message w)
    (hr : r = .ok (outcome, changes)) :
    outcome.body = [] ∧ changes = {} ∨
      ∃ clock session nonce tree,
        session = service.sessionFrom message (w'.store.dmSessions (service.keyOf message.header))
          clock ∧
        changes = { session := some { session with nonce, authenticated := false } } ∧
        service.encodeTree encode tree = .ok outcome.body ∧ Commandless tree := by
  cases h with
  | unnumbered =>
    obtain ⟨rfl, rfl⟩ := Prod.mk.inj (Except.ok.inj hr)
    exact Or.inl ⟨rfl, rfl⟩
  | rejected clock session reason nonce _ _ hsession =>
    obtain ⟨body, rest, hnext, rfl, rfl⟩ := rejectMessage_ok hr
    obtain ⟨n, tree, -, -, -, htree, hbody⟩ := (nextMessage_sends hnext).split
    rw [List.take_nil] at htree
    exact Or.inr ⟨clock, session, nonce, tree, hsession, rfl, hbody, messageTree_commandless htree⟩
  | accepted clock session username _ hloads _ hverdict =>
    exact absurd ⟨session, username, hloads, hverdict⟩ hfails

theorem writes_session (s : DmSession) :
    DmChanges.writes { session := some s } = [.putDmSession s] := rfl

theorem spared_of_reads {tr : List (Event DmOp.Answer)} {r : Except DmError DmResponse} {w₁ : World}
    (hops : ∀ e ∈ tr, e.1.Harmless) (hframe : w'.store.devices = w.store.devices ∧
      w'.store.dmPending = w.store.dmPending ∧ w'.store.subscribers = w.store.subscribers)
    (hreads : Reads w w₁)
    (htime : w₁.clock.now ≤ w'.clock.now)
    (hsession : ∀ s, w₁.store.dmSessions (service.keyOf message.header) = some s →
      ∃ s', w'.store.dmSessions (service.keyOf message.header) = some s' ∧ s'.phase = s.phase ∧
        s'.imsi = s.imsi ∧ s'.reportedFailures = s.reportedFailures ∧ s'.expiresAt = s.expiresAt)
    (hanswer : ∀ response, r = .ok response → response.body = [] ∨
      ∃ tree, service.encodeTree encode tree = .ok response.body ∧ Commandless tree) :
    Spared service message encode w w' tr r where
  operations := hops
  devices := hframe.1
  pending := hframe.2.1
  answer := hanswer
  session s hs hlapsed := by
    apply hsession
    rcases hreads.sessions (service.keyOf message.header) with hsame | ⟨-, s', hs', hgone⟩
    · rw [hsame, hs]
    · rw [hs] at hs'
      obtain rfl := Option.some.inj hs'
      rw [lapsed_mono htime hgone] at hlapsed
      cases hlapsed

theorem exec_spared {payload : Bytes} {contentType : String} {binary : Bool}
    {tr : List (Event DmOp.Answer)} {r : Except DmError DmResponse}
    (hread : service.read payload contentType = .ok (message, binary, encode))
    (hfails : ¬ service.Authenticates message w)
    (h : Exec Weather (service.handle payload contentType).run w tr r w') :
    Spared service message encode w w' tr r := by
  -- without a login nothing is asked for but what any message may ask for
  have hharmless : ∀ {events : List (Event DmOp.Answer)},
      (∀ e ∈ events, e.1.Open ∨ e.1.IsRead ∧ service.Authenticates message w) →
      ∀ e ∈ events, e.1.Harmless := fun hops e he =>
    (hops e he).elim Or.inl fun h => absurd h.2 hfails
  have hsame : ∀ {m : MemoryStore} {s : DmSession}, m.dmSessions (service.keyOf message.header) =
      some s → ∃ s', m.dmSessions (service.keyOf message.header) = some s' ∧ s'.phase = s.phase ∧
        s'.imsi = s.imsi ∧ s'.reportedFailures = s.reportedFailures ∧
        s'.expiresAt = s.expiresAt := fun hs => ⟨_, hs, rfl, rfl, rfl, rfl⟩
  rcases exec_handle h with ⟨_, hrefused, -⟩ | ⟨_, _, _, hread', hrespond⟩
  · rw [hread] at hrefused
    cases hrefused
  · obtain ⟨rfl, rfl, rfl⟩ : _ ∧ _ ∧ _ := by
      simpa using Except.ok.inj (hread.symm.trans hread')
    cases exec_respond (fun _ _ _ _ h => h) hrespond with
    | raised _ _ hops hreads hraised =>
      obtain ⟨e, rfl, -⟩ := hraised
      exact spared_of_reads (hharmless hops) (harmless_run h (hharmless hops)) hreads
        (Int.le_refl _) (fun _ => hsame) fun _ hr => nomatch hr
    | refused _ e _ hops hreads _ hsome hnone =>
      refine spared_of_reads (hharmless hops) (harmless_run h (hharmless hops)) hreads
        (Int.le_refl _) (fun _ => hsame) fun response hr => Or.inl ?_
      exact refusal_body (refusal_of_ok hsome hnone hr)
    | answered w₁ tr tr' outcome changes done rest r hops hreads hhandled hwrites hcommitted =>
      have hbody : ∀ response, r.map (fun _ => sent binary outcome) = .ok response →
          response.body = outcome.body := by
        intro response hr
        cases r with
        | error e => cases hr
        | ok u =>
          obtain rfl := Except.ok.inj hr
          exact sent_body binary outcome
      have hall : (∀ write ∈ changes.writes, (DmOp.write write).Harmless) →
          ∀ e ∈ tr ++ tr', e.1.Harmless := by
        intro hwrites'
        rw [hwrites] at hwrites'
        exact List.forall_mem_append.mpr ⟨hharmless hops, hcommitted.forall_trace hwrites'⟩
      -- either nothing is stored, or the session with the nonce of its challenge
      rcases handled_unauthenticated hhandled hfails rfl with
        ⟨hempty, rfl⟩ | ⟨clock, session, nonce, tree, rfl, rfl, hencoded, htree⟩
      · have hops' := hall fun _ hwrite => absurd hwrite List.not_mem_nil
        obtain ⟨rfl, rfl⟩ := List.append_eq_nil_iff.mp hwrites.symm
        refine spared_of_reads hops' (harmless_run h hops') hreads hcommitted.time ?_
          fun response hr => Or.inl ((hbody response hr).trans hempty)
        rw [hcommitted.store]
        exact fun _ => hsame
      · rw [writes_session] at hwrites hall
        have hops' := hall (List.forall_mem_singleton.mpr (Or.inr ⟨_, rfl⟩))
        refine spared_of_reads hops' (harmless_run h hops') hreads hcommitted.time ?_
          fun response hr => Or.inr ⟨tree, (hbody response hr).symm ▸ hencoded, htree⟩
        intro s hs
        rw [hcommitted.store]
        rcases List.singleton_eq_append_iff.mp hwrites with ⟨rfl, -⟩ | ⟨rfl, -⟩
        · exact hsame hs
        · -- the record that was found is the one that is written back
          rw [hs]
          by_cases hkey : service.keyOf message.header = s.sessionId
          · refine ⟨{ service.openSession message.header s with nonce, authenticated := false },
              ?_, rfl, rfl, rfl, rfl⟩
            change Function.update w₁.store.dmSessions s.sessionId _ _ = _
            rw [hkey, Function.update_self]
            rfl
          · refine ⟨s, ?_, rfl, rfl, rfl, rfl⟩
            change Function.update w₁.store.dmSessions s.sessionId _ _ = _
            rw [Function.update_of_ne hkey, hs]

/-- The same session but for its phase and the failures it counted. -/
def SameFace (s t : DmSession) : Prop :=
  t = { s with phase := t.phase, reportedFailures := t.reportedFailures }

theorem kinship_sameFace : Kinship service SameFace where
  refl _ := rfl
  face _ _ h := h
  opened s t header h := by
    unfold SameFace openSession at *
    rw [h]
  rejected s t nonce h := by
    unfold SameFace at *
    rw [h]

/-- Same state but for the phase and the failures of the sessions and for the remainders: a message
that does not authenticate is answered the same. -/
theorem foresee_sameFace {payload : Bytes} {contentType : String} {binary : Bool}
    (hread : service.read payload contentType = .ok (message, binary, encode)) {f f' : Forecast}
    (hfails : ¬ service.Authenticates message f.world)
    (halike : Alike SameFace f.world.store.subscribers f.world.store.subscribers f f') :
    (service.foresee payload contentType f).1 = (service.foresee payload contentType f').1 := by
  have hK : Kinship service SameFace := kinship_sameFace
  unfold foresee handle
  rw [hread]
  refine (coupled_respond hK binary (coupled_handleMessage hK halike ?_)).1
  · intro s t g g' hst hloads _ hg
    have hverdict : service.verdict message t f.world.store.subscribers =
        service.verdict message s f.world.store.subscribers := by
      rw [hK.face s t hst]
      rfl
    rw [hverdict]
    cases hs : service.verdict message s f.world.store.subscribers with
    | accepted username => exact absurd ⟨s, username, hloads, hs⟩ hfails
    | rejected reason keepOrFresh => exact coupled_rejected hK hg hst reason keepOrFresh

/-- A message that does not authenticate moves no session: it touches no device and no remainder,
it leaves the session where it was, its answer carries no command, and that answer does not depend
on how far the session has got. -/
theorem unauthenticated_spares {payload : Bytes} {contentType : String} {binary : Bool}
    (hread : service.read payload contentType = .ok (message, binary, encode))
    (hfails : ¬ service.Authenticates message w) :
    (∀ tr r w', Exec Weather (service.handle payload contentType).run w tr r w' →
      Spared service message encode w w' tr r) ∧
    ∀ f f', f.world = w → Alike SameFace w.store.subscribers w.store.subscribers f f' →
      (service.foresee payload contentType f).1 = (service.foresee payload contentType f').1 := by
  refine ⟨fun tr r w' h => exec_spared hread hfails h, ?_⟩
  rintro f f' rfl halike
  exact foresee_sameFace hread hfails halike

theorem verdict_of_no_data {session : DmSession} {subscribers : String → Option Subscriber}
    {c : Credentials} (hscheme : service.settings.dmAuthScheme ≠ .none)
    (hc : message.header.credentials = some c) (htype : c.type = authBasic) (hdata : c.data = "") :
    service.verdict message session subscribers = .rejected "missing_credentials" .keep := by
  unfold verdict
  dsimp only
  have hmd5 : (some c).filter (fun c => c.type = authMd5) = none := by
    simp [Option.filter, htype, authBasic, authMd5]
  rw [if_neg hscheme, hc, hmd5]
  simp [Auth.authenticate, hdata]

/-- The same sessions in another phase, with other failures, and without a remainder. -/
def rewound (w : World) : World where
  store := { w.store with
    dmSessions := fun id => (w.store.dmSessions id).map fun s =>
      { s with phase := "init", reportedFailures := 7 }
    dmPending := fun _ => none }
  clock := w.clock

theorem alike_rewound (w : World) :
    Alike SameFace w.store.subscribers w.store.subscribers ⟨w, []⟩ ⟨rewound w, []⟩ := by
  refine ⟨rfl, rfl, rfl, rfl, fun id => ?_⟩
  show Option.Rel SameFace (w.store.dmSessions id) ((w.store.dmSessions id).map _)
  cases w.store.dmSessions id with
  | none => exact .none
  | some s => exact .some rfl

/-- A handset that sends an empty credential while some of its configuration is unsent is
challenged. -/
theorem unauthenticated_spares_of_no_login :
    let anonymous := Lab.brief "3" [] [Lab.cred ""]
    let service := Lab.server [Lab.enters, Lab.halves, anonymous] .basic
    let w := Lab.halfway service Lab.enters Lab.halves
    ∃ message encode tr r w',
      Exec Weather (service.handle (Lab.sent anonymous) contentTypeXml).run w tr r w' ∧
      metricOf r = some (200, "DmAuthRejected") ∧
      (w.store.dmSessions Lab.key).map DmSession.phase = some "configure" ∧
      (w.store.dmPending Lab.key).isSome ∧ Spared service message encode w w' tr r ∧
      (service.foresee (Lab.sent anonymous) contentTypeXml ⟨w, []⟩).1 =
        (service.foresee (Lab.sent anonymous) contentTypeXml ⟨rewound w, []⟩).1 := by
  intro anonymous service w
  have hcredentials : (service.read (Lab.sent anonymous) contentTypeXml).toOption.map
      (fun request => request.1.header.credentials.map fun c => (c.type, c.data)) =
        some (some (authBasic, "")) := by decide +kernel
  have hchecks : metricOf (service.foresee (Lab.sent anonymous) contentTypeXml ⟨w, []⟩).1 =
        some (200, "DmAuthRejected") ∧
      (w.store.dmSessions Lab.key).map DmSession.phase = some "configure" ∧
      (w.store.dmPending Lab.key).isSome := by decide +kernel
  clear_value w
  obtain ⟨tr, hexec⟩ := exec_foresee service (Lab.sent anonymous) contentTypeXml ⟨w, []⟩
  cases hread : service.read (Lab.sent anonymous) contentTypeXml with
  | error refused =>
    rw [hread] at hcredentials
    cases hcredentials
  | ok request =>
    obtain ⟨message, binary, encode⟩ := request
    rw [hread] at hcredentials
    obtain ⟨c, hc, hfields⟩ := Option.map_eq_some_iff.mp (Option.some.inj hcredentials)
    obtain ⟨htype, hdata⟩ := Prod.mk.inj hfields
    have hfails : ¬ service.Authenticates message w := by
      rintro ⟨session, username, -, hverdict⟩
      rw [verdict_of_no_data (by decide) hc htype hdata] at hverdict
      cases hverdict
    obtain ⟨hspared, hanswer⟩ := unauthenticated_spares hread hfails
    exact ⟨message, encode, tr, _, _, hexec, hchecks.1, hchecks.2.1, hchecks.2.2,
      hspared _ _ _ hexec, hanswer _ _ rfl (alike_rewound w)⟩

end DmService
end Acs.Omadm
