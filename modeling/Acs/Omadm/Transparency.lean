import Acs.Omadm.Splitting
import Acs.Omadm.Turns

/-! Splitting a package is transparent: what the answers hold beside their acknowledgements is the
queue of the package, however it is cut. -/

namespace Acs.Omadm
open Interleave Package

/-! ### What an answer says -/

def bodyOf (tree : Xml.Element) : List Xml.Element :=
  ((tree.find "SyncBody").map Xml.Element.children).getD []

def carriesFinal (tree : Xml.Element) : Bool := (bodyOf tree).any (·.localName = "Final")

def entriesOf (tree : Xml.Element) : List Entry :=
  ((bodyOf tree).filter (·.localName ≠ "Final")).flatMap readCommand

section Entries

theorem readCommand_header (msgRef cmdRef cmd targetRef code id : String)
    (challenge : Option (String × String)) :
    readCommand (.branch "Status" (.leaf "CmdID" id :: ([.leaf "MsgRef" msgRef,
      .leaf "CmdRef" cmdRef, .leaf "Cmd" cmd] ++
        (if targetRef ≠ "" then [.leaf "TargetRef" targetRef] else []) ++
        SyncMlBuilder.chal challenge ++ [.leaf "Data" code]))) =
      [.status { cmd, msgRef, cmdRef, code, targetRef }] := by
  rcases challenge with _ | ⟨authType, nonce⟩ <;> by_cases htarget : targetRef = "" <;>
    simp [readCommand, textAt, Xml.Element.find, SyncMlBuilder.chal, htarget]

theorem asSent_name {e : Entry} : entryName (asSent e) = entryName e := by
  cases e with
  | status s => rfl
  | item i =>
    by_cases hget : i.command = "Get"
    · rw [asSent, if_pos hget]
      exact hget.symm
    · by_cases hadd : i.command = "Add"
      · rw [asSent, if_neg hget, if_pos hadd]
        rfl
      · rw [asSent, if_neg hget, if_neg hadd]

theorem Package.Grouped.not_final {first : Nat} {entries : List Entry} {commands : List Xml.Element}
    (h : Grouped first entries commands) (hknown : Known entries) :
    ∀ c ∈ commands, c.localName ≠ "Final" := by
  intro c hc hfinal
  obtain ⟨e, rest, hread⟩ := List.exists_cons_of_ne_nil (h.filled c hc)
  have hname : entryName e = "Final" := by
    have hmem : e ∈ readCommand c := by rw [hread]; exact List.mem_cons_self
    unfold readCommand at hmem
    rw [if_neg (by rw [hfinal]; decide)] at hmem
    obtain ⟨item, -, rfl⟩ := List.mem_map.mp hmem
    exact hfinal
  have hmem : e ∈ entries.map asSent := by
    rw [← h.entries]
    exact List.mem_flatMap_of_mem hc (by rw [hread]; exact List.mem_cons_self)
  obtain ⟨e', he', rfl⟩ := List.mem_map.mp hmem
  rw [asSent_name] at hname
  have hqueued := hknown e' he'
  cases e' with
  | status s =>
    have hstatus : "Status" = "Final" := hname
    exact absurd hstatus (by decide)
  | item i =>
    have hcommand : i.command ∈ ["Get", "Add", "Replace"] := hqueued
    rw [show i.command = "Final" from hname] at hcommand
    exact absurd hcommand (by decide)

theorem bodyOf_build (b : SyncMlBuilder) (final : Bool) :
    bodyOf (b.build final) = b.commands ++ if final then [.leaf "Final" ""] else [] := by
  simp [bodyOf, SyncMlBuilder.build, Xml.Element.find]

end Entries

namespace DmService
variable {service : DmService} {message : SyncMlMessage} {session : DmSession}

def headerEntry (message : SyncMlMessage) (code : String) : Entry :=
  .status { cmd := "SyncHdr", msgRef := message.header.msgId, cmdRef := "0", code
            targetRef := message.header.target }

theorem entriesOf_messageTree {header : String × Option (String × String)} {entries : List Entry}
    {final : Bool} {tree : Xml.Element} (hnumbered : message.header.Numbered)
    (hknown : Known entries)
    (h : service.messageTree message session header entries final = .ok tree) :
    entriesOf tree = headerEntry message header.1 :: entries.map asSent ∧
      carriesFinal tree = final := by
  obtain ⟨builder, hbuilder, h⟩ := Except.bind_eq_ok.mp h
  obtain ⟨built, hbuilt, h⟩ := Except.bind_eq_ok.mp h
  rw [Except.pure_eq_ok] at h
  subst h
  have hempty : builder.commands = [] := by
    obtain ⟨number, -, hbuilder⟩ := Except.bind_eq_ok.mp hbuilder
    rw [Except.pure_eq_ok] at hbuilder
    rw [← hbuilder]
  obtain ⟨commands, happly, hgrouped⟩ := @apply_grouped_entries
    (builder.status "SyncHdr" message.header.msgId "0" header.1 message.header.target header.2) _
    hknown
  rw [happly] at hbuilt
  obtain rfl := Except.ok.inj hbuilt
  -- a message with both ids answers the one it was sent
  have hmsgId : orText message.header.msgId "1" = message.header.msgId :=
    if_pos hnumbered.2
  have hnot := hgrouped.not_final hknown
  have hcommands : ∀ c ∈ (builder.status "SyncHdr" message.header.msgId "0" header.1
      message.header.target header.2).commands ++ commands, c.localName ≠ "Final" := by
    intro c hc
    rcases List.mem_append.mp hc with hc | hc
    · rw [SyncMlBuilder.status, SyncMlBuilder.command, hempty, List.nil_append,
        List.mem_singleton] at hc
      rw [hc, Xml.Element.localName_branch]
      decide
    · exact hnot c hc
  have hfilter : ((builder.status "SyncHdr" message.header.msgId "0" header.1
      message.header.target header.2).commands ++ commands).filter (·.localName ≠ "Final") =
      (builder.status "SyncHdr" message.header.msgId "0" header.1
        message.header.target header.2).commands ++ commands :=
    List.filter_eq_self.mpr fun c hc => decide_eq_true (hcommands c hc)
  constructor
  · unfold entriesOf
    rw [bodyOf_build, List.filter_append, hfilter]
    have hlast : ((if final then [Xml.Element.leaf "Final" ""] else []).filter
        (·.localName ≠ "Final")) = ([] : List Xml.Element) := by
      cases final <;> simp
    rw [hlast, List.append_nil, List.flatMap_append, hgrouped.entries]
    rw [SyncMlBuilder.status, SyncMlBuilder.command, hempty, List.nil_append,
      List.flatMap_singleton, hmsgId, readCommand_header]
    rfl
  · unfold carriesFinal
    rw [bodyOf_build, List.any_append]
    have hnone : ((builder.status "SyncHdr" message.header.msgId "0" header.1
        message.header.target header.2).commands ++ commands).any (·.localName = "Final") = false :=
      List.any_eq_false.mpr fun c hc => by simpa using hcommands c hc
    rw [hnone]
    cases final <;> simp

/-! ### The entries that the server queues -/

/-- An entry that the builder sends as it is. -/
def Plain (e : Entry) : Prop := Queued e ∧ asSent e = e

theorem map_asSent {entries : List Entry} (h : ∀ e ∈ entries, Plain e) :
    entries.map asSent = entries := by
  rw [List.map_congr_left fun e he => (h e he).2, List.map_id']

theorem toString_ne_empty (n : Int) : toString n ≠ "" := by
  cases n with
  | ofNat n => exact Nat.repr_ne_empty
  | negSucc n =>
    intro h
    have hlength := congrArg String.length h
    simp [toString, Int.repr, String.length_append] at hlength

theorem acks_plain (hnumbered : message.header.Numbered) : ∀ e ∈ service.acks message, Plain e := by
  intro e he
  obtain ⟨command, -, rfl⟩ := List.mem_map.mp he
  refine ⟨trivial, ?_⟩
  unfold asSent
  dsimp only
  rw [orText, if_pos hnumbered.2, orText, if_pos (toString_ne_empty _)]

theorem rendered_nodes {nodes : List MoNode} {render : MoNode → Except PyError String}
    {rendered : List (MoNode × String)}
    (h : nodes.mapM (fun node => do return (node, ← render node)) = .ok rendered) :
    rendered.map Prod.fst = nodes := by
  induction nodes generalizing rendered with
  | nil =>
    obtain rfl := Except.ok.inj h
    rfl
  | cons node nodes ih =>
    rw [List.mapM_cons] at h
    obtain ⟨pair, hpair, htail⟩ := Except.bind_eq_ok.mp h
    obtain ⟨rest, hrest, hcons⟩ := Except.bind_eq_ok.mp htail
    obtain ⟨value, -, hvalue⟩ := Except.bind_eq_ok.mp hpair
    rw [Except.pure_eq_ok] at hcons hvalue
    subst hcons hvalue
    rw [List.map_cons, ih hrest]

theorem configurationValues_ok {subscriber : Option Subscriber} {values : List Item}
    (h : service.configurationValues session subscriber = .ok values) :
    ∃ features, (values.map Item.uri).Sublist
        ((service.tree.serverNodes features).map MoNode.uri) ∧
      ∀ i ∈ values, i.command = "Replace" := by
  have hrender : ∃ imsi msisdn version features overrides, service.renderValues imsi msisdn
      session.deviceId version features overrides = .ok values := by
    cases subscriber with
    | some s => exact ⟨_, _, _, _, _, h⟩
    | none => exact ⟨_, _, _, _, _, h⟩
  obtain ⟨imsi, msisdn, version, features, overrides, h⟩ := hrender
  obtain ⟨identity, -, h⟩ := Except.bind_eq_ok.mp h
  obtain ⟨rendered, hrendered, h⟩ := Except.bind_eq_ok.mp h
  rw [Except.pure_eq_ok] at h
  subst h
  refine ⟨features, ?_, ?_⟩
  · rw [← rendered_nodes hrendered, List.map_map, List.map_map]
    exact (List.filter_sublist ..).map _
  · intro i hi
    obtain ⟨pair, -, rfl⟩ := List.mem_map.mp hi
    rfl

/-- The queue of the package that a message starts, in the session it is handled in. -/
def packageQueue (service : DmService) (message : SyncMlMessage) (session : DmSession)
    (subscribers : String → Option Subscriber) : Except PyError (List Entry) :=
  if session.phase = "init" then .ok (service.inventoryQueue message)
  else if session.phase = "devinfo" then
    (service.configurationValues session (ownSubscriber session subscribers)).map
      (service.configurationQueue message)
  else .ok (service.acks message)

def packagePhase (phase : String) : String :=
  if phase = "init" then "devinfo" else if phase = "devinfo" then "configure" else "done"

theorem inventoryQueue_plain (hnumbered : message.header.Numbered) :
    ∀ e ∈ service.inventoryQueue message, Plain e := by
  intro e he
  rcases List.mem_append.mp he with he | he
  · exact acks_plain hnumbered e he
  · obtain ⟨uri, -, rfl⟩ := List.mem_map.mp he
    exact ⟨by simp [Queued], rfl⟩

theorem configurationQueue_plain {values : List Item} (hnumbered : message.header.Numbered)
    (hvalues : ∀ i ∈ values, i.command = "Replace") :
    ∀ e ∈ service.configurationQueue message values, Plain e := by
  intro e he
  rcases List.mem_append.mp he with he | he
  · rcases List.mem_append.mp he with he | he
    · exact acks_plain hnumbered e he
    · obtain ⟨uri, -, rfl⟩ := List.mem_map.mp he
      exact ⟨by simp [Queued], rfl⟩
  · obtain ⟨i, hi, rfl⟩ := List.mem_map.mp he
    refine ⟨?_, ?_⟩
    · change i.command ∈ ["Get", "Add", "Replace"]
      rw [hvalues i hi]
      decide
    · rw [asSent, hvalues i hi, if_neg (by decide), if_neg (by decide)]

/-- One status for each command of the message that is no status itself: of its name, and with the
numbers of the message and of the command. -/
def Acknowledges (message : SyncMlMessage) : List Entry → Prop :=
  List.Forall₂ (fun command entry => ∃ s, entry = .status s ∧ s.cmd = command.name ∧
    s.msgRef = message.header.msgId ∧ s.cmdRef = toString command.cmdId)
    (message.commands.filter (·.name ≠ "Status"))

/-- What the package that a phase starts says beside its acknowledgements. -/
inductive Contents : String → List Entry → Prop
  | inventory {gets : List Item} : (∀ i ∈ gets, i.command = "Get") →
    Contents "init" (gets.map .item)
  | configuration {adds replaces : List Item} : (∀ i ∈ adds, i.command = "Add") →
    (∀ i ∈ replaces, i.command = "Replace") → Contents "devinfo" ((adds ++ replaces).map .item)
  | finish {phase : String} : phase ≠ "init" → phase ≠ "devinfo" → Contents phase []

variable (service) in
theorem acks_acknowledge (message : SyncMlMessage) :
    Acknowledges message (service.acks message) := by
  unfold Acknowledges acks
  rw [List.forall₂_map_right_iff, List.forall₂_same]
  exact fun command _ => ⟨_, rfl, rfl, rfl, rfl⟩

theorem packageQueue_contents {subscribers : String → Option Subscriber} {queue : List Entry}
    (h : service.packageQueue message session subscribers = .ok queue) :
    ∃ owed contents, queue = owed ++ contents ∧ Acknowledges message owed ∧
      Contents session.phase contents := by
  have hacks := acks_acknowledge service message
  refine ⟨service.acks message, ?_⟩
  unfold packageQueue at h
  split_ifs at h with hinit hdevinfo
  · obtain rfl := Except.ok.inj h
    rw [hinit]
    refine ⟨(service.tree.deviceQueryUris.map fun uri => { command := "Get", uri }).map .item,
      ?_, hacks, .inventory ?_⟩
    · rw [List.map_map]
      rfl
    · intro i hi
      obtain ⟨uri, -, rfl⟩ := List.mem_map.mp hi
      rfl
  · obtain ⟨values, hvalues, hqueue⟩ := Except.map_eq_ok.mp h
    obtain rfl := hqueue
    obtain ⟨-, -, hreplace⟩ := configurationValues_ok hvalues
    rw [hdevinfo]
    refine ⟨((service.tree.interiorNodesFor (values.map Item.uri)).map fun uri =>
      { command := "Add", uri, data := "", fmt := "node", type := "node" } : List Item) ++ values
        |>.map .item, ?_, hacks, .configuration ?_ hreplace⟩
    · rw [List.map_append, List.map_map, ← List.append_assoc]
      rfl
    · intro i hi
      obtain ⟨uri, -, rfl⟩ := List.mem_map.mp hi
      rfl
  · obtain rfl := Except.ok.inj h
    exact ⟨[], (List.append_nil _).symm, hacks, .finish hinit hdevinfo⟩

/-! ### One answer -/

theorem entriesOf_sends {encode : Encoder} {header : String × Option (String × String)}
    {queue rest : List Entry} {required : Nat} {body : Bytes} (hnumbered : message.header.Numbered)
    (hplain : ∀ e ∈ queue, Plain e) (hrequired : required ≤ queue.length)
    (h : Sends service message session encode header queue required body rest) :
    ∃ tree sent, service.encodeTree encode tree = .ok body ∧
      entriesOf tree = headerEntry message header.1 :: sent ∧ queue = sent ++ rest ∧
      required ≤ sent.length ∧ (carriesFinal tree = true ↔ rest = []) := by
  obtain ⟨n, tree, hn, hle, rfl, htree, hencode⟩ := h.split
  have hlen := hle hrequired
  have hsent : ∀ e ∈ queue.take n, Plain e := fun e he => hplain e (List.mem_of_mem_take he)
  obtain ⟨hentries, hfinal⟩ :=
    entriesOf_messageTree hnumbered (fun e he => (hsent e he).1) htree
  rw [map_asSent hsent] at hentries
  refine ⟨tree, queue.take n, hencode, hentries, (List.take_append_drop n queue).symm, ?_, ?_⟩
  · rw [List.length_take]
    omega
  · rw [hfinal, decide_eq_true_iff, List.drop_eq_nil_iff]
    omega

/-- The message that an answer encodes, and the part of the package in it. -/
structure Answer where
  tree : Xml.Element
  part : List Entry

/-- The answer to a message of a package: beside the status of the header, and in a continuation the
acknowledgements of the message that it answers, it says the next part of the queue. -/
structure Delivers (service : DmService) (key phase : String) (continues : Bool)
    (queue sent : List Entry) (t : Turn) (a : Answer) : Prop where
  encoded : service.encodeTree t.encode a.tree = .ok t.response.body
  entries : ∃ code, entriesOf a.tree = headerEntry t.message code ::
    ((if continues then service.acks t.message else []) ++ a.part)
  acknowledged : continues = true → Acknowledges t.message (service.acks t.message)
  inOrder : sent <+: queue
  final : carriesFinal a.tree = true ↔ sent = queue
  phase : (t.after.store.dmSessions key).map DmSession.phase = some phase ∨
    carriesFinal a.tree = true ∧ t.after.store.dmSessions key = none

/-- A package is under way: the session is in its phase, and what is unsent of it is stored. -/
structure Live (w : World) (key phase : String) (unsent : List Entry) : Prop where
  session : ∃ s, w.store.dmSessions key = some s ∧ s.sessionId = key ∧ s.phase = phase
  pending : ∃ p, w.store.dmPending key = some p ∧ p.sessionId = key ∧ p.phase = phase ∧
    fromStored p.entries = .ok unsent
  owes : unsent ≠ []
  plain : ∀ e ∈ unsent, Plain e

variable {key phase : String} {t : Turn} {outcome : DmResponse} {changes : DmChanges}
  {device : Device} {unsent : List Entry}

theorem Live.undisturbed {w w' : World} (h : Live w key phase unsent) (hsame : Undisturbed key w w') :
    Live w' key phase unsent :=
  ⟨hsame.1 ▸ h.session, hsame.2 ▸ h.pending, h.owes, h.plain⟩

theorem live_of_stored {w : World} {s : DmSession} {p : DmPendingPackage} {rest : List Entry}
    (hsession : w.store.dmSessions key = some s) (hs : s.sessionId = key) (hphase : s.phase = phase)
    (hpending : w.store.dmPending key = some p) (hp : p.sessionId = key) (hpphase : p.phase = phase)
    (hstored : toStored rest = .ok p.entries) (hrest : rest ≠ []) (hplain : ∀ e ∈ rest, Plain e) :
    Live w key phase rest :=
  ⟨⟨s, hsession, hs, hphase⟩, ⟨p, hpending, hp, hpphase,
    fromStored_toStored (fun e he => (hplain e he).1) hstored⟩, hrest, hplain⟩

theorem delivers_continuation (hlive : Live t.before key phase unsent)
    (h : Exchanged service key t) :
    ∃ a rest, service.Delivers key phase true unsent a.part t a ∧ unsent = a.part ++ rest ∧
      (rest ≠ [] → Live t.after key phase rest) := by
  obtain ⟨s, hs, hsid, hsphase⟩ := hlive.session
  obtain ⟨p, hp, hpid, hpphase, hstored⟩ := hlive.pending
  have hkeyed : ∀ s ∈ t.before.store.dmSessions key, s.sessionId = key := by
    intro s' hs'
    rw [hs] at hs'
    exact Option.some.inj hs' ▸ hsid
  obtain ⟨session, outcome, changes, device, htook⟩ := exchanged_took h hkeyed
  have hphase : session.phase = phase := by
    rw [htook.opens.phase, hs]
    exact hsphase
  have hanswers := htook.answers
  have hcurrent : currentRemainder session (t.before.store.dmPending key) = (some p, {}) := by
    rw [hp, currentRemainder]
    exact if_neg (not_not.mpr (hpphase.trans hphase.symm))
  rw [hcurrent] at hanswers
  cases hanswers with
  | ended _ _ _ hnot => exact absurd h.ongoing hnot
  | tooManyMessages => exact absurd htook.status (by decide)
  | noAlert _ hnone => cases hnone
  | inventory _ _ _ hnone => cases hnone
  | configuration _ _ _ hnone => cases hnone
  | finish _ _ _ hnone => cases hnone
  | continued p' _ _ _ hsome _ hsend =>
    obtain rfl := Option.some.inj hsome
    have habout : changes.About key fun _ => True :=
      sendNext_about hsend htook.sessionId hpid trivial none_about
    have hsessions := htook.sessions habout
    have hpending := htook.pending habout
    obtain ⟨unsent', body, rest, hunsent, hnext, hcases⟩ := sendNext_ok hsend
    obtain rfl : unsent = unsent' := Except.ok.inj (hstored.symm.trans hunsent)
    have hacks := @acks_plain service _ htook.numbered
    have hqueue : ∀ e ∈ service.acks t.message ++ unsent, Plain e :=
      List.forall_mem_append.mpr ⟨hacks, hlive.plain⟩
    have hlength := List.length_pos_iff.mpr hlive.owes
    obtain ⟨tree, sent, hencode, hentries, hsplit, hmany, hfinal⟩ :=
      entriesOf_sends htook.numbered hqueue (by rw [List.length_append]; omega)
        (nextMessage_sends hnext)
    -- more than the acknowledgements was sent, so they are all in front
    obtain ⟨part, rfl, hunsent⟩ : ∃ part, sent = service.acks t.message ++ part ∧
        unsent = part ++ rest := by
      rcases List.append_eq_append_iff.mp hsplit with ⟨part, hsent, hpart⟩ | ⟨lost, hsent, -⟩
      · exact ⟨part, hsent, hpart⟩
      · rw [hsent, List.length_append] at hmany
        omega
    have hbody : t.response.body = outcome.body := by rw [htook.response, sent_body]
    have hfinal' : carriesFinal tree = true ↔ part = unsent := by
      rw [hfinal, hunsent, List.self_eq_append_right]
    have hplain : ∀ e ∈ rest, Plain e := fun e he =>
      hlive.plain e (hunsent ▸ List.mem_append_right _ he)
    have hcounted : (counted t.message session).sessionId = key :=
      counted_sessionId.trans htook.sessionId
    have hcphase : (counted t.message session).phase = phase := counted_phase.trans hphase
    refine ⟨⟨tree, part⟩, rest, ⟨?_, ⟨_, hentries⟩, fun _ => acks_acknowledge service t.message,
      ⟨rest, hunsent.symm⟩, hfinal', ?_⟩, hunsent, ?_⟩
    · rw [hbody, hcases.body_eq]
      exact hencode
    · rcases hcases with ⟨hnil, -, heq⟩ | ⟨-, -, -, rfl⟩ | ⟨-, -, entries, -, rfl⟩
      · rw [(Prod.mk.inj heq).2, DmChanges.sessionAfter, if_pos ?_] at hsessions
        · exact Or.inr ⟨hfinal.mpr hnil, hsessions⟩
        · rw [hcounted, ← h.keyed]
          exact sessionKey_ne_empty _ _
      · left
        rw [hsessions]
        exact congrArg some hcphase
      · left
        rw [hsessions]
        exact congrArg some hcphase
    · intro hrest
      rcases hcases with ⟨hnil, -⟩ | ⟨hnil, -⟩ | ⟨-, -, entries, hentries, rfl⟩
      · exact absurd hnil hrest
      · exact absurd hnil hrest
      · exact live_of_stored hsessions hcounted hcphase hpending hpid hpphase hentries hrest hplain

theorem delivers_starts {session' : DmSession} {queue rest : List Entry}
    {pending : Option DmPendingPackage} {body : Bytes} (hnumbered : t.message.header.Numbered)
    (hplain : ∀ e ∈ queue, Plain e)
    (hstarts : Starts service t.message session' t.encode queue rest body pending)
    (hkey : session'.sessionId = key) (hphase : session'.phase = phase) (hbody : t.response.body = body)
    (hsession : t.after.store.dmSessions key = some session' ∨
      rest = [] ∧ t.after.store.dmSessions key = none)
    (hpending : rest ≠ [] → t.after.store.dmPending key = pending) :
    ∃ a, service.Delivers key phase false queue a.part t a ∧ queue = a.part ++ rest ∧
      (rest ≠ [] → Live t.after key phase rest) := by
  obtain ⟨tree, sent, hencode, hentries, hsplit, -, hfinal⟩ :=
    entriesOf_sends hnumbered hplain (min_le_right _ _) (nextMessage_sends hstarts.next)
  refine ⟨⟨tree, sent⟩, ⟨hbody ▸ hencode, ⟨_, hentries⟩, nofun, ⟨rest, hsplit.symm⟩, ?_, ?_⟩, hsplit,
    ?_⟩
  · rw [hfinal, hsplit, List.self_eq_append_right]
  · rcases hsession with hsome | ⟨hnil, hnone⟩
    · left
      rw [hsome]
      exact congrArg some hphase
    · exact Or.inr ⟨hfinal.mpr hnil, hnone⟩
  · intro hrest
    obtain ⟨entries, hstored, rfl⟩ := hstarts.some_of_cons hrest
    rcases hsession with hsome | ⟨hnil, -⟩
    · exact live_of_stored hsome hkey hphase (hpending hrest) hkey hphase hstored hrest
        fun e he => hplain e (hsplit ▸ List.mem_append_right _ he)
    · exact absurd hnil hrest

def Free (key : String) (w : World) : Prop :=
  ∀ p ∈ w.store.dmPending key,
    p.phase ≠ ((w.store.dmSessions key).map DmSession.phase).getD "init"

theorem currentRemainder_free {session : DmSession} {stored : Option DmPendingPackage}
    (hkey : session.sessionId ≠ "") (h : ∀ p ∈ stored, p.phase ≠ session.phase) :
    (currentRemainder session stored).1 = none ∧
      (currentRemainder session stored).2.deleteSessionId = "" ∧
      (stored = none ∨ (currentRemainder session stored).2.deletePendingId ≠ "") := by
  cases stored with
  | none => exact ⟨rfl, rfl, Or.inl rfl⟩
  | some p =>
    rw [currentRemainder, if_pos (h p rfl)]
    exact ⟨rfl, rfl, Or.inr hkey⟩

theorem delivers_start (hfree : Free key t.before)
    (hkeyed : ∀ s ∈ t.before.store.dmSessions key, s.sessionId = key)
    (hpkeyed : ∀ p ∈ t.before.store.dmPending key, p.sessionId = key)
    (h : Exchanged service key t) :
    ∃ session queue a rest,
      service.Opens t.message t.before.store.subscribers (t.before.store.dmSessions key) session ∧
      service.packageQueue t.message session t.before.store.subscribers = .ok queue ∧
      service.Delivers key (packagePhase session.phase) false queue a.part t a ∧
      queue = a.part ++ rest ∧
      (rest ≠ [] → Live t.after key (packagePhase session.phase) rest) := by
  obtain ⟨session, outcome, changes, device, htook⟩ := exchanged_took h hkeyed
  have hsid := htook.sessionId
  have hne : session.sessionId ≠ "" := by
    rw [hsid, ← h.keyed]
    exact sessionKey_ne_empty _ _
  have hphases : ∀ p ∈ t.before.store.dmPending key, p.phase ≠ session.phase := by
    intro p hp
    rw [htook.opens.phase]
    exact hfree p hp
  obtain ⟨hnone, hdelete, hstale⟩ := currentRemainder_free hne hphases
  obtain ⟨-, hbase⟩ := @currentRemainder_about _ (fun _ => True) _ _ hsid hpkeyed
  have hanswers := htook.answers
  rw [hnone] at hanswers
  generalize (currentRemainder session (t.before.store.dmPending key)).2 = base at *
  have hbody : t.response.body = outcome.body := by rw [htook.response, sent_body]
  -- a remainder of another phase is dropped, and the new one takes its place
  have hafter : ∀ pending, (pending.or
      (if base.deletePendingId ≠ "" then none else t.before.store.dmPending key) :
        Option DmPendingPackage) = pending := by
    intro pending
    rcases hstale with hstale | hstale
    · rw [hstale, ite_self, Option.or_none]
    · rw [if_pos hstale, Option.or_none]
  refine ⟨session, ?_⟩
  cases hanswers with
  | ended _ _ _ hnot => exact absurd h.ongoing hnot
  | tooManyMessages => exact absurd htook.status (by decide)
  | continued _ _ _ _ hsome => cases hsome
  | noAlert => exact absurd htook.status (by decide)
  | inventory _ _ _ _ hphase hrequest =>
    have habout := requestInventory_about hrequest hsid trivial hbase
    obtain ⟨rest, body, pending, hstarts, rfl, rfl⟩ := requestInventory_ok hrequest
    have hsessions := htook.sessions habout
    have hpending := htook.pending habout
    rw [DmChanges.sessionAfter, if_neg (not_not.mpr hdelete)] at hsessions
    rw [DmChanges.pendingAfter, if_neg (not_not.mpr hdelete)] at hpending
    obtain ⟨a, hdelivers, hsplit, hlive⟩ := delivers_starts htook.numbered
      (inventoryQueue_plain htook.numbered) hstarts hsid rfl hbody (Or.inl hsessions)
      fun _ => hpending.trans (hafter pending)
    refine ⟨service.inventoryQueue t.message, a, rest, htook.opens, if_pos hphase, ?_⟩
    rw [packagePhase, if_pos hphase]
    exact ⟨hdelivers, hsplit, hlive⟩
  | configuration _ _ _ _ hphase hpush =>
    have habout := pushConfiguration_about hpush hsid trivial hbase
    obtain ⟨values, rest, body, pending, hvalues, hstarts, rfl, rfl⟩ := pushConfiguration_ok hpush
    have hsessions := htook.sessions habout
    have hpending := htook.pending habout
    rw [DmChanges.sessionAfter, if_neg (not_not.mpr hdelete)] at hsessions
    rw [DmChanges.pendingAfter, if_neg (not_not.mpr hdelete)] at hpending
    have hinit : session.phase ≠ "init" := by
      rw [hphase]
      decide
    obtain ⟨-, -, hreplace⟩ := configurationValues_ok hvalues
    obtain ⟨a, hdelivers, hsplit, hlive⟩ := delivers_starts htook.numbered
      (configurationQueue_plain htook.numbered hreplace) hstarts hsid rfl hbody (Or.inl hsessions)
      fun _ => hpending.trans (hafter pending)
    refine ⟨service.configurationQueue t.message values, a, rest, htook.opens, ?_, ?_⟩
    · rw [packageQueue, if_neg hinit, if_pos hphase, hvalues]
      rfl
    · rw [packagePhase, if_neg hinit, if_pos hphase]
      exact ⟨hdelivers, hsplit, hlive⟩
  | finish _ _ _ _ hinit hdevinfo hfinish =>
    have habout := handleFinish_about hfinish hsid hbase
    obtain ⟨rest, body, pending, hstarts, hcases⟩ := handleFinish_ok hfinish
    have hsessions := htook.sessions habout
    have hpending := htook.pending habout
    have hdone : ∃ a, service.Delivers key "done" false (service.acks t.message) a.part t a ∧
        service.acks t.message = a.part ++ rest ∧ (rest ≠ [] → Live t.after key "done" rest) := by
      rcases hcases with ⟨-, rfl, rfl⟩ | ⟨hnil, heq⟩
      · rw [DmChanges.sessionAfter, if_neg (not_not.mpr hdelete)] at hsessions
        rw [DmChanges.pendingAfter, if_neg (not_not.mpr hdelete)] at hpending
        exact delivers_starts htook.numbered (acks_plain htook.numbered) hstarts hsid rfl hbody
          (Or.inl hsessions) fun _ => hpending.trans (hafter pending)
      · obtain ⟨rfl, rfl⟩ := Prod.mk.inj heq
        exact delivers_starts htook.numbered (acks_plain htook.numbered) hstarts hsid rfl hbody
          (Or.inr ⟨hnil, hsessions.trans (if_pos hne)⟩) fun hrest => absurd hnil hrest
    obtain ⟨a, hdelivers, hsplit, hlive⟩ := hdone
    refine ⟨service.acks t.message, a, rest, htook.opens, ?_, ?_⟩
    · rw [packageQueue, if_neg hinit, if_neg hdevinfo]
    · rw [packagePhase, if_neg hinit, if_neg hdevinfo]
      exact ⟨hdelivers, hsplit, hlive⟩

/-! ### A whole package -/

/-- Each answer up to the final one delivers its part, and together they are in the order of the
queue. -/
def Delivered (service : DmService) (key phase : String) (continues : ℕ → Bool) (queue : List Entry)
    (ts : List Turn) (answers : List Answer) : Prop :=
  answers.length = ts.length ∧ ∀ k t a, ts[k]? = some t → answers[k]? = some a →
    (∀ j b, j < k → answers[j]? = some b → carriesFinal b.tree = false) →
    service.Delivers key phase (continues k) queue ((answers.take (k + 1)).flatMap Answer.part) t a

section Run
variable {continues : ℕ → Bool} {queue sent rest : List Entry} {a : Answer} {answers : List Answer}
  {ts : List Turn}

theorem Delivers.prepend {part : List Entry} {c : Bool}
    (h : service.Delivers key phase c rest sent t a) :
    service.Delivers key phase c (part ++ rest) (part ++ sent) t a where
  encoded := h.encoded
  entries := h.entries
  acknowledged := h.acknowledged
  inOrder := (List.prefix_append_right_inj part).mpr h.inOrder
  final := h.final.trans (List.append_right_inj part).symm
  phase := h.phase

theorem delivered_cons (ha : service.Delivers key phase (continues 0) queue a.part t a)
    (hsplit : queue = a.part ++ rest) (hlength : answers.length = ts.length)
    (hrest : rest ≠ [] →
      service.Delivered key phase (fun k => continues (k + 1)) rest ts answers) :
    service.Delivered key phase continues queue (t :: ts) (a :: answers) := by
  refine ⟨by rw [List.length_cons, List.length_cons, hlength], fun k t' a' ht' ha' hopen => ?_⟩
  cases k with
  | zero =>
    obtain rfl : t = t' := Option.some.inj ht'
    obtain rfl : a = a' := Option.some.inj ha'
    rw [List.take_succ_cons, List.take_zero, List.flatMap_singleton]
    exact ha
  | succ k =>
    have hmore : rest ≠ [] := by
      rintro rfl
      rw [List.append_nil] at hsplit
      have hlast := ha.final.mpr hsplit.symm
      rw [hopen 0 a (Nat.succ_pos k) rfl] at hlast
      cases hlast
    have hnext := (hrest hmore).2 k t' a' ht' ha' fun j b hj hb =>
      hopen (j + 1) b (Nat.succ_lt_succ hj) hb
    rw [List.take_succ_cons, List.flatMap_cons, hsplit]
    exact hnext.prepend

theorem delivered_continuations {w : World} (hlive : Live w key phase unsent)
    (h : Conversation service key w ts) :
    ∃ answers, service.Delivered key phase (fun _ => true) unsent ts answers := by
  induction ts generalizing w unsent with
  | nil => exact ⟨[], rfl, fun k t a ht => by cases ht⟩
  | cons t ts ih =>
    obtain ⟨hsame, hexchanged, hrest⟩ := h
    obtain ⟨a, rest, hdelivers, hsplit, hnext⟩ :=
      delivers_continuation (hlive.undisturbed hsame) hexchanged
    by_cases hmore : rest = []
    · exact ⟨a :: List.replicate ts.length a, delivered_cons hdelivers hsplit
        List.length_replicate fun hne => absurd hmore hne⟩
    · obtain ⟨answers, hanswers⟩ := ih (hnext hmore) hrest
      exact ⟨a :: answers, delivered_cons hdelivers hsplit hanswers.1 fun _ => hanswers⟩

/-- The messages of a conversation deliver the queue of the package that the first one starts. -/
theorem conversation_delivers (hreached : Reached t.before) (hfree : Free key t.before)
    (h : Conversation service key t.before (t :: ts)) :
    ∃ session queue answers,
      service.Opens t.message t.before.store.subscribers (t.before.store.dmSessions key) session ∧
      service.packageQueue t.message session t.before.store.subscribers = .ok queue ∧
      service.Delivered key (packagePhase session.phase) (fun k => decide (0 < k)) queue (t :: ts)
        answers := by
  obtain ⟨-, hexchanged, hrest⟩ := h
  obtain ⟨session, queue, a, rest, hopens, hqueue, hdelivers, hsplit, hnext⟩ := delivers_start hfree
    (fun s hs => hreached.keyed.sessions key s hs) (fun p hp => hreached.keyed.pending key p hp)
    hexchanged
  by_cases hmore : rest = []
  · exact ⟨session, queue, a :: List.replicate ts.length a, hopens, hqueue, delivered_cons hdelivers
      hsplit List.length_replicate fun hne => absurd hmore hne⟩
  · obtain ⟨answers, hanswers⟩ := delivered_continuations (hnext hmore) hrest
    exact ⟨session, queue, a :: answers, hopens, hqueue, delivered_cons hdelivers hsplit hanswers.1
      fun _ => hanswers⟩

/-- Splitting a package is transparent: the answers to a message that starts one and to those after
it say, beside the statuses of the headers and the acknowledgements that continuations owe, the
queue of the package in order; the one that completes it is final; and until then the session stays
in the phase of the package. -/
theorem conversation_transparent (hreached : Reached t.before) (hfree : Free key t.before)
    (h : Conversation service key t.before (t :: ts)) :
    ∃ session queue answers,
      service.Opens t.message t.before.store.subscribers (t.before.store.dmSessions key) session ∧
      service.packageQueue t.message session t.before.store.subscribers = .ok queue ∧
      (∃ owed contents, queue = owed ++ contents ∧ Acknowledges t.message owed ∧
        Contents session.phase contents) ∧
      service.Delivered key (packagePhase session.phase) (fun k => decide (0 < k)) queue (t :: ts)
        answers := by
  obtain ⟨session, queue, answers, hopens, hqueue, hdelivered⟩ :=
    conversation_delivers hreached hfree h
  exact ⟨session, queue, answers, hopens, hqueue, packageQueue_contents hqueue, hdelivered⟩

end Run

end DmService

namespace Lab

def narrowFirst : Xml.Element := message login "1" "900" [alert alertClientInitiatedMgmt]

def narrowSecond : Xml.Element := message login "2" "2000" [alert alertClientInitiatedMgmt]

def narrow : DmService := service [narrowFirst, narrowSecond]

end Lab

/-- The handset takes the inventory request in two messages. -/
theorem conversation_transparent_inventory :
    ∃ t t' session queue answers,
      t.before = Lab.world ∧ t.response.metric = "DmInventoryRequested" ∧
      t'.response.metric = "DmPackageContinued" ∧
      Lab.narrow.packageQueue t.message session t.before.store.subscribers = .ok queue ∧
      Lab.narrow.Delivered "356938035643809:42" (DmService.packagePhase session.phase)
        (fun k => decide (0 < k)) queue [t, t'] answers := by
  have hconverses : Lab.narrow.converses "356938035643809:42" Lab.world
      [⟨printed "" Lab.narrowFirst, contentTypeXml, fun _ r => r.metric = "DmInventoryRequested"⟩,
        ⟨printed "" Lab.narrowSecond, contentTypeXml, fun _ r => r.metric = "DmPackageContinued"⟩] =
        true := by
    decide +kernel
  obtain ⟨ts, hconversation, hsuccessive, hanswers⟩ :=
    DmService.conversation_of_converses hconverses
  obtain ⟨t, ts₁, hmetric, hanswers₁, rfl⟩ := List.forall₂_cons_right_iff.mp hanswers
  obtain ⟨t', ts₂, hmetric', hanswers₂, rfl⟩ := List.forall₂_cons_right_iff.mp hanswers₁
  obtain rfl := List.forall₂_nil_right_iff.mp hanswers₂
  have hworld : t.before = Lab.world := hsuccessive.1
  rw [← hworld] at hconversation
  have hreached : Reached t.before := by
    rw [hworld]
    exact .start rfl rfl
  have hfree : DmService.Free "356938035643809:42" t.before := by
    rw [hworld]
    exact fun p hp => by cases hp
  obtain ⟨session, queue, answers, -, hqueue, -, hdelivered⟩ :=
    DmService.conversation_transparent hreached hfree hconversation
  exact ⟨t, t', session, queue, answers, hworld, by simpa using hmetric, by simpa using hmetric',
    hqueue, hdelivered⟩

end Acs.Omadm
