import Mathlib
import Acs.Omadm.Forecast
import Acs.Omadm.SessionKeys

/-! What a device has reported about itself, over the messages of its sessions. -/

namespace Acs.Omadm
open Interleave

section SetKey
variable {key other value : String} {dict : List (String × String)}

theorem lookup_setKey :
    (setKey key value dict).lookup other = if other = key then some value else dict.lookup other := by
  induction dict with
  | nil =>
    rw [setKey, List.lookup_cons]
    by_cases hother : other = key
    · simp [hother]
    · simp [beq_false_of_ne hother, hother]
  | cons entry rest ih =>
    obtain ⟨k, v⟩ := entry
    unfold setKey
    by_cases hk : k = key
    · subst hk
      rw [if_pos rfl, List.lookup_cons, List.lookup_cons]
      by_cases hother : other = k
      · simp [hother]
      · simp [beq_false_of_ne hother, hother]
    · rw [if_neg hk, List.lookup_cons, List.lookup_cons, ih]
      by_cases hother : other = k
      · subst hother
        simp [hk]
      · simp [beq_false_of_ne hother]

theorem mem_keys_setKey :
    other ∈ (setKey key value dict).map Prod.fst ↔ other = key ∨ other ∈ dict.map Prod.fst := by
  induction dict with
  | nil => simp [setKey]
  | cons entry rest ih =>
    obtain ⟨k, v⟩ := entry
    unfold setKey
    by_cases hk : k = key
    · subst hk
      simp
    · rw [if_neg hk, List.map_cons, List.map_cons, List.mem_cons, List.mem_cons, ih]
      tauto

theorem nodup_keys_setKey (h : (dict.map Prod.fst).Nodup) :
    ((setKey key value dict).map Prod.fst).Nodup := by
  induction dict with
  | nil => simp [setKey]
  | cons entry rest ih =>
    obtain ⟨k, v⟩ := entry
    rw [List.map_cons, List.nodup_cons] at h
    unfold setKey
    by_cases hk : k = key
    · subst hk
      rw [if_pos rfl, List.map_cons, List.nodup_cons]
      exact h
    · rw [if_neg hk, List.map_cons, List.nodup_cons, mem_keys_setKey]
      exact ⟨fun hmem => hmem.elim hk h.1, ih h.2⟩

end SetKey

/-! ### What is reported for a node -/

def CommandItem.Names (item : CommandItem) (n : MoNode) : Prop :=
  item.uri ≠ "" ∧ item.data ≠ "" ∧ dropTrailingSlashes item.uri = dropTrailingSlashes n.uri

instance (item : CommandItem) (n : MoNode) : Decidable (item.Names n) :=
  inferInstanceAs (Decidable (_ ∧ _ ∧ _))

def MoNode.lastReported (n : MoNode) (items : List CommandItem) : Option String :=
  ((items.filter fun item => item.Names n).map CommandItem.data).getLast?

namespace MoTree
variable (tree : MoTree)

def deviceNodes : List MoNode := tree.allNodes.filter fun n => n.source = "device"

/-- An item that names a node of the device spells its URI as the tree does, and the tree finds
such a node there. -/
def Exact (item : CommandItem) : Prop :=
  ∀ n ∈ tree.deviceNodes, item.Names n →
    item.uri = n.uri ∧ ∃ found, tree.node item.uri = some found ∧ found.source = "device"

/-- The values are those of nodes of the device, each under its URI. -/
structure Lists (values : List (String × String)) : Prop where
  keys : ∀ uri ∈ values.map Prod.fst, ∃ n ∈ tree.deviceNodes, n.uri = uri
  distinct : (values.map Prod.fst).Nodup

end MoTree

section Absorb
variable {service : DmService} {values : List (String × String)} {item : CommandItem}
  {items : List CommandItem}

theorem MoTree.node_some {tree : MoTree} {uri : String} {n : MoNode}
    (h : tree.node uri = some n) : n ∈ tree.allNodes ∧ n.uri = dropTrailingSlashes uri :=
  ⟨List.mem_reverse.mp (List.mem_of_find?_eq_some h), by simpa using List.find?_some h⟩

theorem absorbItem_cases :
    (∃ n, service.tree.node item.uri = some n ∧ n ∈ service.tree.deviceNodes ∧ item.Names n ∧
        service.absorbItem values item = setKey item.uri item.data values) ∨
      service.absorbItem values item = values ∧
        ∀ found, item.uri ≠ "" → item.data ≠ "" → service.tree.node item.uri = some found →
          found.source ≠ "device" := by
  unfold DmService.absorbItem
  by_cases hempty : item.uri = "" ∨ item.data = ""
  · rw [if_pos hempty]
    exact Or.inr ⟨rfl, fun _ huri hdata => absurd hempty (not_or.mpr ⟨huri, hdata⟩)⟩
  · rw [if_neg hempty]
    cases hnode : service.tree.node item.uri with
    | none => exact Or.inr ⟨rfl, by simp⟩
    | some n =>
      dsimp only
      by_cases hsource : n.source = "device"
      · obtain ⟨hmem, huri⟩ := MoTree.node_some hnode
        rw [if_neg (not_not.mpr hsource)]
        refine Or.inl ⟨n, rfl, ?_, ?_, rfl⟩
        · exact List.mem_filter.mpr ⟨hmem, by simpa using hsource⟩
        · exact ⟨fun h => hempty (Or.inl h), fun h => hempty (Or.inr h), by
            rw [huri, dropTrailingSlashes_idem]⟩
      · rw [if_pos hsource]
        refine Or.inr ⟨rfl, fun found _ _ hfound => ?_⟩
        exact Option.some.inj hfound ▸ hsource

theorem absorbItem_lists (hexact : service.tree.Exact item) (h : service.tree.Lists values) :
    service.tree.Lists (service.absorbItem values item) := by
  rcases @absorbItem_cases service values _ with
    ⟨n, -, hmem, hnames, heq⟩ | ⟨heq, -⟩
  · rw [heq]
    refine ⟨fun uri huri => ?_, nodup_keys_setKey h.distinct⟩
    rcases mem_keys_setKey.mp huri with rfl | hold
    · exact ⟨n, hmem, (hexact n hmem hnames).1.symm⟩
    · exact h.keys uri hold
  · rwa [heq]

theorem absorbItem_lookup (hexact : service.tree.Exact item) {n : MoNode}
    (hn : n ∈ service.tree.deviceNodes) :
    (service.absorbItem values item).lookup n.uri =
      if item.Names n then some item.data else values.lookup n.uri := by
  by_cases hnames : item.Names n
  · obtain ⟨huri, found, hfound, hsource⟩ := hexact n hn hnames
    rw [if_pos hnames]
    rcases @absorbItem_cases service values _ with
      ⟨-, -, -, -, heq⟩ | ⟨-, hnone⟩
    · rw [heq, lookup_setKey, if_pos huri.symm]
    · exact absurd hsource (hnone found hnames.1 hnames.2.1 hfound)
  · rw [if_neg hnames]
    rcases @absorbItem_cases service values _ with
      ⟨-, -, -, ⟨hne, hdata, -⟩, heq⟩ | ⟨heq, -⟩
    · have hother : n.uri ≠ item.uri := fun h => hnames ⟨hne, hdata, by rw [h]⟩
      rw [heq, lookup_setKey, if_neg hother]
    · rw [heq]

theorem foldl_absorbItem_lists (hexact : ∀ item ∈ items, service.tree.Exact item)
    (h : service.tree.Lists values) :
    service.tree.Lists (items.foldl service.absorbItem values) := by
  induction items generalizing values with
  | nil => exact h
  | cons item items ih =>
    obtain ⟨hitem, hitems⟩ := List.forall_mem_cons.mp hexact
    exact ih hitems (absorbItem_lists hitem h)

theorem foldl_absorbItem_lookup (hexact : ∀ item ∈ items, service.tree.Exact item) {n : MoNode}
    (hn : n ∈ service.tree.deviceNodes) :
    (items.foldl service.absorbItem values).lookup n.uri =
      (n.lastReported items).or (values.lookup n.uri) := by
  induction items generalizing values with
  | nil => rfl
  | cons item items ih =>
    obtain ⟨hitem, hitems⟩ := List.forall_mem_cons.mp hexact
    rw [List.foldl_cons, ih hitems, absorbItem_lookup hitem hn]
    unfold MoNode.lastReported
    by_cases hnames : item.Names n
    · rw [if_pos hnames, List.filter_cons_of_pos (by simpa using hnames), List.map_cons,
        List.getLast?_cons]
      cases ((items.filter fun item => item.Names n).map CommandItem.data).getLast? <;> rfl
    · rw [if_neg hnames, List.filter_cons_of_neg (by simpa using hnames)]

end Absorb

/-! ### The device -/

def SyncMlMessage.reported (message : SyncMlMessage) : List CommandItem :=
  (message.of ["Replace", "Results", "Add"]).flatMap Command.items

/-- The summary of a device is taken from its values. -/
structure Device.Summarised (d : Device) : Prop where
  manufacturer : ∀ v ∈ d.moValues.lookup "./DevInfo/Man", d.manufacturer = v
  model : ∀ v ∈ d.moValues.lookup "./DevInfo/Mod", d.model = v
  dmClientVersion : ∀ v ∈ d.moValues.lookup "./DevInfo/DmV", d.dmClientVersion = v
  swVersion : ∀ v ∈ d.moValues.lookup "./DevDetail/SwV", d.swVersion = v

/-- The record of a device after it has reported the items. Its summary may be that of an earlier
record only where nothing was recorded since. -/
structure Inventory (tree : MoTree) (items : List CommandItem) (before after : Option Device) :
    Prop where
  values : ∀ n ∈ tree.deviceNodes, (after.bind fun d => d.moValues.lookup n.uri) =
    (n.lastReported items).or (before.bind fun d => d.moValues.lookup n.uri)
  lists : ∀ d ∈ after, tree.Lists d.moValues
  bounded : ∀ d ∈ after, d.moValues.length ≤ tree.deviceNodes.length
  summarised : ∀ d ∈ after, Device.Summarised d ∨ items = [] ∧ before = some d

theorem MoTree.Lists.length_le {tree : MoTree} {values : List (String × String)}
    (h : tree.Lists values) : values.length ≤ tree.deviceNodes.length := by
  have hsub : values.map Prod.fst ⊆ tree.deviceNodes.map MoNode.uri := by
    intro uri huri
    obtain ⟨n, hn, rfl⟩ := h.keys uri huri
    exact List.mem_map_of_mem hn
  have hle := (List.subperm_of_subset h.distinct hsub).length_le
  rwa [List.length_map, List.length_map] at hle

theorem Inventory.refl {tree : MoTree} {before : Option Device}
    (h : ∀ d ∈ before, tree.Lists d.moValues) : Inventory tree [] before before :=
  ⟨fun _ _ => rfl, h, fun d hd => (h d hd).length_le, fun _ hd => Or.inr ⟨rfl, hd⟩⟩

theorem lastReported_append {n : MoNode} {items items' : List CommandItem} :
    n.lastReported (items ++ items') = (n.lastReported items').or (n.lastReported items) := by
  unfold MoNode.lastReported
  rw [List.filter_append, List.map_append, List.getLast?_append]

theorem Inventory.trans {tree : MoTree} {items items' : List CommandItem}
    {before mid after : Option Device} (h : Inventory tree items before mid)
    (h' : Inventory tree items' mid after) : Inventory tree (items ++ items') before after := by
  refine ⟨fun n hn => ?_, h'.lists, h'.bounded, fun d hd => ?_⟩
  · rw [h'.values n hn, h.values n hn, lastReported_append, Option.or_assoc]
  · rcases h'.summarised d hd with hsummary | ⟨rfl, hmid⟩
    · exact Or.inl hsummary
    · rw [List.append_nil]
      exact h.summarised d hmid

theorem lookup_getD {summary : String} {found : Option String} : ∀ v ∈ found,
    found.getD summary = v := by
  rintro v hv
  rw [hv]
  rfl

theorem absorbed_inventory {service : DmService} {message : SyncMlMessage} {session : DmSession}
    {before : Option Device} {new : Device} {clock : Clock}
    (hexact : ∀ item ∈ message.reported, service.tree.Exact item)
    (hbefore : ∀ d ∈ before, service.tree.Lists d.moValues) (hnew : new.moValues = []) :
    Inventory service.tree message.reported before
      (some (service.absorbed message session (before.getD new) clock)) := by
  have hlists : service.tree.Lists (before.getD new).moValues := by
    cases before with
    | none =>
      change service.tree.Lists new.moValues
      rw [hnew]
      exact ⟨by simp, by simp⟩
    | some d => exact hbefore d rfl
  have hvalues := foldl_absorbItem_lists hexact hlists
  refine ⟨fun n hn => ?_, fun d hd => ?_, fun d hd => ?_, fun d hd => ?_⟩
  · rw [Option.bind_some]
    refine (foldl_absorbItem_lookup hexact hn).trans ?_
    cases before with
    | none =>
      change _ = (n.lastReported message.reported).or none
      rw [Option.getD_none, hnew]
      rfl
    | some d => rfl
  · obtain rfl := Option.some.inj hd
    exact hvalues
  · obtain rfl := Option.some.inj hd
    exact hvalues.length_le
  · obtain rfl := Option.some.inj hd
    exact Or.inl ⟨lookup_getD, lookup_getD, lookup_getD, lookup_getD⟩

/-! ### What a message records -/

/-- The message describes the device, on top of a record of these. -/
def Noted (service : DmService) (message : SyncMlMessage) (devices : String → Option Device)
    (d : Device) : Prop :=
  ∃ (session : DmSession) (created clock : Clock),
    d = service.absorbed message session ((devices (orText session.deviceId "unknown")).getD
      { deviceId := orText session.deviceId "unknown", lastSeenAt := created.now }) clock

def Saves (tr : List (Event DmOp.Answer)) (id : String) : Prop :=
  ∃ e ∈ tr, ∃ d : Device, e.1 = .write (.putDevice d) ∧ d.deviceId = id

theorem weather_devices {op : DmOp} (hop : op.IsRead) {w w' : World} {ans : op.Answer}
    (h : Weather op w ans w') : w'.store.devices = w.store.devices := by
  obtain ⟨-, ⟨-, hstore⟩ | ⟨nonce, hexec⟩⟩ := h
  · rw [hstore]
  · have hstore : w'.store = (op.exec w'.clock nonce w.store).2 := (congrArg Prod.snd hexec).symm
    rw [hstore]
    cases op with
    | getDmSession id =>
      rcases getDmSession_cases w.store id w'.clock with ⟨-, hsame⟩ | ⟨-, hdeleted, -⟩
      · exact congrArg MemoryStore.devices hsame
      · exact (congrArg MemoryStore.devices hdeleted).trans rfl
    | getDmPending id =>
      rcases getDmPending_cases w.store id w'.clock with ⟨-, hsame⟩ | ⟨-, hdeleted, -⟩
      · exact congrArg MemoryStore.devices hsame
      · exact (congrArg MemoryStore.devices hdeleted).trans rfl
    | write w => exact hop.elim
    | _ => rfl

section Records
variable {service : DmService} {message : SyncMlMessage} {devices : String → Option Device}

def Recorded (devices : String → Option Device) (w : World) : Prop :=
  Keyed w.store ∧ w.store.devices = devices

theorem Recorded.weather {op : DmOp} (hop : op.IsRead) {w w' : World} {ans : op.Answer}
    (hw : Recorded devices w) (h : Weather op w ans w') : Recorded devices w' :=
  ⟨hw.1.weather h, (weather_devices hop h).trans hw.2⟩

theorem keeps_absorbDeviceValues (session : DmSession) :
    Keeps Weather (Recorded devices) DmOp.IsRead (service.absorbDeviceValues message session)
      (Noted service message devices) := by
  have hget : Keeps Weather (Recorded devices) DmOp.IsRead
      (Dm.getDevice (orText session.deviceId "unknown"))
      fun found => found = devices (orText session.deviceId "unknown") := by
    intro w tr r w' hw h
    obtain ⟨ans, hexec, rfl⟩ := exec_raising h
    obtain ⟨hop, rfl⟩ := Exec.perform_iff.mp hexec
    have hread : (DmOp.getDevice (orText session.deviceId "unknown")).IsRead := trivial
    refine ⟨hw.weather hread hop, List.forall_mem_singleton.mpr trivial, fun found hfound => ?_⟩
    obtain ⟨-, ⟨⟨e, hraised⟩, -⟩ | ⟨nonce, hread⟩⟩ := hop
    · rw [hraised] at hfound
      cases hfound
    · rw [← (Prod.mk.inj hread).1] at hfound
      rw [← Except.ok.inj hfound, hw.2]
  have hnow : Keeps Weather (Recorded devices) DmOp.IsRead Dm.now fun _ => True :=
    Keeps.of_uses uses_now fun op hop =>
      have hread : op.IsRead := by cases op <;> trivial
      ⟨hread, fun _ _ _ hw h => hw.weather hread h⟩
  refine hget.bind fun found hfound => ?_
  subst hfound
  cases hd : devices (orText session.deviceId "unknown") with
  | none =>
    exact hnow.bind fun created _ => hnow.bind fun clock _ =>
      Keeps.pure ⟨session, created, clock, by rw [hd]; rfl⟩
  | some d => exact hnow.bind fun clock _ => Keeps.pure ⟨session, clock, clock, by rw [hd]; rfl⟩

theorem keeps_noted {encode : Encoder} :
    Keeps Weather (Recorded devices) DmOp.IsRead (service.handleMessage message encode) fun a =>
      a.2.About (service.keyOf message.header) (Noted service message devices) := by
  have hread : ∀ (op : DmOp) (w : World) (ans : op.Answer) (w' : World), op.IsRead →
      Recorded devices w → Weather op w ans w' → Recorded devices w' :=
    fun _ _ _ _ hop hw h => hw.weather hop h
  refine keeps_handleMessage (fun op hop => ?_) (keeps_getDmSession ?_ trivial ?_)
    (keeps_getDmPending ?_ trivial ?_) keeps_absorbDeviceValues rfl
  · have hisRead : op.IsRead := by cases op <;> trivial
    exact ⟨hisRead, fun _ _ _ => hread _ _ _ _ hisRead⟩
  · exact fun op w ans w' hw h => ⟨w, hw.1, h⟩
  · exact fun w ans w' => hread _ w ans w' trivial
  · exact fun op w ans w' hw h => ⟨w, hw.1, h⟩
  · exact fun w ans w' => hread _ w ans w' trivial

theorem putDevice_mem_writes {c : DmChanges} {d : Device} :
    .putDevice d ∈ c.writes ↔ c.device = some d := by
  have hrest : ∀ (c : DmChanges), .putDevice d ∉ c.saveRemainder ++ c.saveSession := by
    intro c h
    simp only [DmChanges.saveRemainder, DmChanges.saveSession, List.mem_append, Option.mem_toList,
      Option.map_eq_some_iff] at h
    split_ifs at h <;> simp at h
  unfold DmChanges.writes
  rw [List.mem_append, Option.mem_toList, Option.map_eq_some_iff]
  constructor
  · rintro (⟨d', hd', heq⟩ | h)
    · exact (DmWrite.putDevice.inj heq) ▸ hd'
    · refine absurd ?_ (hrest c)
      split_ifs at h
      · exact List.mem_append.mpr ((List.mem_append.mp h).symm)
      · exact h
  · exact fun h => Or.inl ⟨d, h, rfl⟩

theorem written_devices_of_forall {ws : List DmWrite} {m : MemoryStore}
    (h : ∀ d, .putDevice d ∉ ws) : (written ws m).devices = m.devices := by
  induction ws generalizing m with
  | nil => rfl
  | cons w ws ih =>
    rw [written_cons, ih fun d hd => h d (List.mem_cons_of_mem _ hd)]
    cases w with
    | putDevice d => exact absurd List.mem_cons_self (h d)
    | _ => rfl

theorem written_devices (c : DmChanges) (m : MemoryStore) :
    (written c.writes m).devices =
      match c.device with
      | some d => Function.update m.devices d.deviceId (some d)
      | none => m.devices := by
  cases hd : c.device with
  | none =>
    apply written_devices_of_forall
    intro d hmem
    cases hd.symm.trans (putDevice_mem_writes.mp hmem)
  | some d =>
    have hrest : ∀ d', DmWrite.putDevice d' ∉ (if c.progressInRemainder then
        c.saveSession ++ c.saveRemainder else c.saveRemainder ++ c.saveSession) := by
      intro d' hmem
      have hnone : ({ c with device := none } : DmChanges).device = some d' :=
        putDevice_mem_writes.mp (List.mem_append.mpr (Or.inr hmem))
      cases hnone
    unfold DmChanges.writes
    rw [hd, written_append, written_devices_of_forall hrest]
    rfl

theorem saves_iff {c : DmChanges} {tr tr' : List (Event DmOp.Answer)} {id : String}
    (hreads : ∀ e ∈ tr, e.1.IsRead) (hwrites : tr'.map Sigma.fst = c.writes.map DmOp.write) :
    Saves (tr ++ tr') id ↔ ∃ d, c.device = some d ∧ d.deviceId = id := by
  constructor
  · rintro ⟨e, he, d, hop, hid⟩
    rcases List.mem_append.mp he with he | he
    · have hread := hreads e he
      rw [hop] at hread
      exact hread.elim
    · have hmem : DmOp.write (.putDevice d) ∈ c.writes.map DmOp.write := by
        rw [← hwrites, ← hop]
        exact List.mem_map_of_mem he
      obtain ⟨write, hwrite, heq⟩ := List.mem_map.mp hmem
      rw [DmOp.write.inj heq] at hwrite
      exact ⟨d, putDevice_mem_writes.mp hwrite, hid⟩
  · rintro ⟨d, hd, hid⟩
    have hmem : DmOp.write (.putDevice d) ∈ tr'.map Sigma.fst := by
      rw [hwrites]
      exact List.mem_map_of_mem (putDevice_mem_writes.mpr hd)
    obtain ⟨e, he, hop⟩ := List.mem_map.mp hmem
    exact ⟨e, List.mem_append_right _ he, d, hop, hid⟩

theorem exec_respond_devices {binary : Bool} {encode : Encoder} {w w' : World}
    {tr : List (Event DmOp.Answer)} {response : DmResponse}
    (h : Exec Weather (service.respond message binary encode).run w tr (.ok response) w')
    (hstatus : response.statusCode = 200) (hw : Keyed w.store) :
    w'.store.devices = w.store.devices ∧ (∀ id, ¬Saves tr id) ∨
      ∃ d, Noted service message w.store.devices d ∧
        w'.store.devices = Function.update w.store.devices d.deviceId (some d) ∧
        ∀ id, Saves tr id ↔ id = d.deviceId := by
  obtain ⟨w₁, tr₁, tr₂, outcome, changes, rfl, hhandle, hcommitted, -⟩ :=
    exec_respond_answered (fun _ _ _ _ => id) h hstatus
  obtain ⟨⟨-, hdevices⟩, hreads, hchanges⟩ := keeps_noted _ _ _ _ ⟨hw, rfl⟩ hhandle
  have hsaves : ∀ id, Saves (tr₁ ++ tr₂) id ↔
      ∃ d, changes.device = some d ∧ d.deviceId = id :=
    fun id => saves_iff hreads hcommitted.trace_writes
  have hwritten := written_devices changes w₁.store
  rw [← hcommitted.store, hdevices] at hwritten
  cases hd : changes.device with
  | none =>
    rw [hd] at hwritten hsaves
    exact Or.inl ⟨hwritten, fun id hid => by simpa using (hsaves id).mp hid⟩
  | some d =>
    rw [hd] at hwritten hsaves
    refine Or.inr ⟨d, (hchanges _ rfl).device d hd, hwritten, fun id => ?_⟩
    rw [hsaves]
    constructor
    · rintro ⟨d', heq, rfl⟩
      rw [Option.some.inj heq]
    · rintro rfl
      exact ⟨d, rfl, rfl⟩

end Records

/-- The message is handled where the device describes itself: in the phases `init` and `devinfo`, or
as the continuation of a package. -/
def Describes (message : SyncMlMessage) (session : DmSession) (pending : Option DmPendingPackage) :
    Prop :=
  DmService.Ongoing message ∧ (pending ≠ none ∨ session.phase = "init" ∨ session.phase = "devinfo")

theorem answers_device_iff {service : DmService} {message : SyncMlMessage} {session : DmSession}
    {encode : Encoder} {pending : Option DmPendingPackage} {changes changes' : DmChanges}
    {subscribers : String → Option Subscriber} {device : Device} {outcome : DmResponse}
    (h : DmService.Answers service message session encode pending changes subscribers device outcome
      changes') (hstatus : outcome.statusCode = 200) (hnone : changes.device = none) :
    changes'.device ≠ none ↔ Describes message session pending := by
  unfold Describes
  cases h with
  | ended metric detail body hended => simp [hnone, hended]
  | tooManyMessages => cases hstatus
  | noAlert => cases hstatus
  | continued p _ _ hongoing hp _ hsend =>
    obtain ⟨unsent, body, rest, -, -, hcases⟩ := DmService.sendNext_ok hsend
    have hsome : changes'.device = some device := by
      rcases hcases with ⟨-, -, heq⟩ | ⟨-, -, -, rfl⟩ | ⟨-, -, entries, -, rfl⟩
      · exact (congrArg DmChanges.device (Prod.mk.inj heq).2).trans rfl
      · rfl
      · rfl
    simp [hsome, hongoing, hp]
  | inventory _ _ hongoing _ hinit hinventory =>
    obtain ⟨rest, body, pending, -, -, rfl⟩ := DmService.requestInventory_ok hinventory
    simp [hongoing, hinit]
  | configuration _ _ hongoing _ hdevinfo hpush =>
    obtain ⟨values, rest, body, pending, -, -, -, rfl⟩ := DmService.pushConfiguration_ok hpush
    simp [hongoing, hdevinfo]
  | finish _ _ _ hp hinit hdevinfo hfinish =>
    have hkept : changes'.device = none := by
      obtain ⟨rest, body, pending, -, ⟨-, -, rfl⟩ | ⟨-, heq⟩⟩ := DmService.handleFinish_ok hfinish
      · exact hnone
      · rw [(Prod.mk.inj heq).2]
        exact hnone
    simp [hkept, hp, hinit, hdevinfo]

theorem currentRemainder_device {session : DmSession} {stored : Option DmPendingPackage} :
    (DmService.currentRemainder session stored).2.device = none := by
  unfold DmService.currentRemainder
  cases stored with
  | none => rfl
  | some p =>
    dsimp only
    split_ifs <;> rfl

theorem describes_accepted {message : SyncMlMessage} {session : DmSession} {username : String}
    {number : Int} {stored : Option DmPendingPackage} :
    Describes message (DmService.acceptedSession session username number)
        (DmService.currentRemainder (DmService.acceptedSession session username number) stored).1 ↔
      Describes message session (DmService.currentRemainder session stored).1 := Iff.rfl

theorem saves_iff_describes {service : DmService} {message : SyncMlMessage} {binary : Bool}
    {encode : Encoder} {w w' : World} {tr : List (Event DmOp.Answer)} {response : DmResponse}
    (h : Exec Weather (service.respond message binary encode).run w tr (.ok response) w')
    (hstatus : response.statusCode = 200) :
    (∃ session username w₁, Reads w w₁ ∧ service.Loads message w session ∧
        service.verdict message session w.store.subscribers = .accepted username ∧
        ((∃ id, Saves tr id) ↔ Describes message session
          (DmService.currentRemainder session (w₁.store.dmPending session.sessionId)).1)) ∨
      response.metric = "DmAuthRejected" ∧ ∀ id, ¬Saves tr id := by
  obtain ⟨w₁, tr₁, tr₂, outcome, changes, rfl, hhandle, hcommitted, rfl⟩ :=
    exec_respond_answered (fun _ _ _ _ => id) h hstatus
  obtain ⟨hops, hreads, hhandled⟩ := handled_of_exec (fun _ _ _ _ => id) hhandle
  rw [sent_statusCode] at hstatus
  have hread : ∀ e ∈ tr₁, e.1.IsRead := fun e he => (hops e he).elim DmOp.Open.isRead And.left
  -- the answer saves a device just when its changes hold one
  have hsaves : (∃ id, Saves (tr₁ ++ tr₂) id) ↔ changes.device ≠ none := by
    simp only [saves_iff hread hcommitted.trace_writes, Option.ne_none_iff_exists']
    constructor
    · rintro ⟨-, d, hd, -⟩
      exact ⟨d, hd⟩
    · rintro ⟨d, hd⟩
      exact ⟨d.deviceId, d, hd, rfl⟩
  generalize hresult : (Except.ok (outcome, changes) : Except DmError _) = result at hhandled
  cases hhandled with
  | unnumbered =>
    obtain ⟨rfl, -⟩ := Prod.mk.inj (Except.ok.inj hresult)
    cases hstatus
  | rejected clock session reason nonce _ hloads =>
    right
    obtain ⟨body, rest, -, rfl, rfl⟩ := DmService.rejectMessage_ok hresult.symm
    refine ⟨sent_metric .., fun id hid => ?_⟩
    exact hsaves.mp ⟨id, hid⟩ rfl
  | accepted clock session username device hloads _ hverdict =>
    left
    refine ⟨session, username, w₁, hreads, hloads, hverdict, hsaves.trans ?_⟩
    obtain ⟨number, -, hresult⟩ := Except.bind_eq_ok.mp hresult.symm
    dsimp only at hresult
    split_ifs at hresult
    · obtain ⟨rfl, -⟩ := Prod.mk.inj (Except.ok.inj hresult)
      cases hstatus
    · have hnone : (DmService.currentRemainder (DmService.acceptedSession session username number)
          (w₁.store.dmPending session.sessionId)).2.device = none := currentRemainder_device
      have hiff := answers_device_iff (DmService.answer_answers hresult) hstatus hnone
      rwa [describes_accepted] at hiff

/-! ### Sequences of messages -/

/-- From `w` to `w'` messages are answered, and the items are those which the recorded ones report
of the device. In between other requests may do anything but record a device. -/
inductive Heard (service : DmService) (id : String) (w : World) :
    List CommandItem → World → Prop
  | start : Heard service id w [] w
  | recorded {items : List CommandItem} {w₁ w₂ : World} {message : SyncMlMessage} {binary : Bool}
      {encode : Encoder} {tr : List (Event DmOp.Answer)} {response : DmResponse} :
    Heard service id w items w₁ →
    Exec Weather (service.respond message binary encode).run w₁ tr (.ok response) w₂ →
    response.statusCode = 200 → Saves tr id → Heard service id w (items ++ message.reported) w₂
  | unrecorded {items : List CommandItem} {w₁ w₂ : World} {message : SyncMlMessage} {binary : Bool}
      {encode : Encoder} {tr : List (Event DmOp.Answer)} {response : DmResponse} :
    Heard service id w items w₁ →
    Exec Weather (service.respond message binary encode).run w₁ tr (.ok response) w₂ →
    response.statusCode = 200 → ¬Saves tr id → Heard service id w items w₂
  | operation {items : List CommandItem} {w₁ w₂ : World} {op : DmOp} {ans : op.Answer} :
    Heard service id w items w₁ → Weather op w₁ ans w₂ → (∀ d, op ≠ .write (.putDevice d)) →
    Heard service id w items w₂
  | elsewhere {items : List CommandItem} {w₁ w₂ : World} : Heard service id w items w₁ →
    w₂.store.dmSessions = w₁.store.dmSessions → w₂.store.dmPending = w₁.store.dmPending →
    w₂.store.devices = w₁.store.devices → Heard service id w items w₂

structure Filed (m : MemoryStore) : Prop where
  keyed : Keyed m
  devices : ∀ id d, m.devices id = some d → d.deviceId = id

theorem Noted.deviceId {service : DmService} {message : SyncMlMessage}
    {devices : String → Option Device} {d : Device} (h : Noted service message devices d)
    (hdevices : ∀ id d, devices id = some d → d.deviceId = id) :
    ∃ (session : DmSession) (created clock : Clock), d = service.absorbed message session
      ((devices d.deviceId).getD { deviceId := d.deviceId, lastSeenAt := created.now }) clock := by
  obtain ⟨session, created, clock, rfl⟩ := h
  refine ⟨session, created, clock, ?_⟩
  have hid : (service.absorbed message session
      ((devices (orText session.deviceId "unknown")).getD
        { deviceId := orText session.deviceId "unknown", lastSeenAt := created.now })
      clock).deviceId = orText session.deviceId "unknown" := by
    cases hd : devices (orText session.deviceId "unknown") with
    | none => rfl
    | some d => exact hdevices _ d hd
  rw [hid]

theorem weather_devices_of_not_save {op : DmOp} (hop : ∀ d, op ≠ .write (.putDevice d))
    {w w' : World} {ans : op.Answer} (h : Weather op w ans w') :
    w'.store.devices = w.store.devices := by
  cases op with
  | write write =>
    obtain ⟨-, ⟨-, hstore⟩ | ⟨nonce, hexec⟩⟩ := h
    · rw [hstore]
    · have hstore : w'.store = write.apply w.store := (congrArg Prod.snd hexec).symm
      rw [hstore]
      cases write with
      | putDevice d => exact absurd rfl (hop d)
      | _ => rfl
  | _ => exact weather_devices (by trivial) h

/-- However the items are spread over commands and messages, the record holds the last value that
was reported of each node of the device, if they spell the URIs as the tree does. -/
theorem heard_inventory {service : DmService} {id : String} {w w' : World}
    {items : List CommandItem} (h : Heard service id w items w') (hfiled : Filed w.store)
    (hlists : ∀ d ∈ w.store.devices id, service.tree.Lists d.moValues)
    (hexact : ∀ item ∈ items, service.tree.Exact item) :
    Inventory service.tree items (w.store.devices id) (w'.store.devices id) := by
  -- the induction needs that every record is stored under its own id
  suffices hrun : Filed w'.store ∧
      Inventory service.tree items (w.store.devices id) (w'.store.devices id) from hrun.2
  induction h with
  | start => exact ⟨hfiled, .refl hlists⟩
  | recorded _ hexec hstatus hsaves ih =>
    obtain ⟨hitems, hmessage⟩ := List.forall_mem_append.mp hexact
    obtain ⟨hfiled₁, hinventory⟩ := ih hitems
    have hkeyed := hexec.invariant (fun _ _ _ _ hop hw => Keyed.weather hop hw) hfiled₁.keyed
    rcases exec_respond_devices hexec hstatus hfiled₁.keyed with
      ⟨-, hnone⟩ | ⟨d, hnoted, hdevices, hiff⟩
    · exact absurd hsaves (hnone id)
    · obtain rfl := (hiff id).mp hsaves
      obtain ⟨session, created, clock, hd⟩ := hnoted.deviceId hfiled₁.devices
      rw [hdevices]
      refine ⟨⟨hkeyed, ?_⟩, hinventory.trans ?_⟩
      · rw [hdevices]
        exact keyed_update hfiled₁.devices fun d' hd' => Option.some.inj hd' ▸ rfl
      · rw [Function.update_self]
        nth_rewrite 2 [hd]
        exact absorbed_inventory hmessage hinventory.lists rfl
  | unrecorded _ hexec hstatus hsaves ih =>
    obtain ⟨hfiled₁, hinventory⟩ := ih hexact
    have hkeyed := hexec.invariant (fun _ _ _ _ hop hw => Keyed.weather hop hw) hfiled₁.keyed
    rcases exec_respond_devices hexec hstatus hfiled₁.keyed with
      ⟨hdevices, -⟩ | ⟨d, -, hdevices, hiff⟩
    · exact ⟨⟨hkeyed, hdevices ▸ hfiled₁.devices⟩, hdevices ▸ hinventory⟩
    · have hne : id ≠ d.deviceId := fun heq => hsaves ((hiff id).mpr heq)
      refine ⟨⟨hkeyed, ?_⟩, ?_⟩
      · rw [hdevices]
        exact keyed_update hfiled₁.devices fun d' hd' => Option.some.inj hd' ▸ rfl
      · rwa [hdevices, Function.update_of_ne hne]
  | operation _ hop hsave ih =>
    obtain ⟨hfiled₁, hinventory⟩ := ih hexact
    have hdevices := weather_devices_of_not_save hsave hop
    exact ⟨⟨hfiled₁.keyed.weather hop, hdevices ▸ hfiled₁.devices⟩, hdevices ▸ hinventory⟩
  | elsewhere _ hsessions hpending hdevices ih =>
    obtain ⟨⟨hkeyed, hfiled₁⟩, hinventory⟩ := ih hexact
    exact ⟨⟨⟨hsessions ▸ hkeyed.sessions, hpending ▸ hkeyed.pending⟩, hdevices ▸ hfiled₁⟩,
      hdevices ▸ hinventory⟩

namespace Lab

def handset : String := "356938035643809"

def report (msgId : String) (commands : List Command) : SyncMlMessage where
  header := {
    sessionId := "42", msgId, source := "IMEI:" ++ handset, sourceName := imsi
    credentials := some { type := authBasic, data := login } }
  commands := commands

def firstReport (uri : String) : SyncMlMessage :=
  report "1" [
    { name := "Alert", cmdId := 1, data := alertClientInitiatedMgmt },
    { name := "Replace", cmdId := 2, items := [{ source := uri, data := "1.0" }] }]

def secondReport : SyncMlMessage :=
  report "2" [
    { name := "Results", cmdId := 1, items := [
      { source := "./DevDetail/SwV", data := "1.1" }, { source := "./DevDetail/SwV" }] },
    { name := "Add", cmdId := 2, items := [
      { source := "./3GPP_IMS/Timer_T1", data := "500" }] }]

def reply (message : SyncMlMessage) (f : Forecast) : Except DmError DmResponse × Forecast :=
  ((service []).respond message false .ok).run.eval DmOp.foresee f

def recorded (f : Forecast) : Option (List (String × String)) :=
  (f.world.store.devices handset).map Device.moValues

theorem filed_world : Filed world.store :=
  ⟨⟨fun _ _ h => (nomatch h), fun _ _ h => (nomatch h)⟩, fun _ _ h => (nomatch h)⟩

theorem heard_reply {message : SyncMlMessage} {f : Forecast} {items : List CommandItem}
    {metric : String} (h : Heard (service []) handset world items f.world)
    (hkeyed : Keyed f.world.store) (hmetric : metricOf (reply message f).1 = some (200, metric))
    (hchanged : recorded (reply message f).2 ≠ recorded f) :
    Heard (service []) handset world (items ++ message.reported) (reply message f).2.world ∧
      Keyed (reply message f).2.world.store := by
  obtain ⟨response, hresponse, hstatus, -⟩ := ok_of_metricOf hmetric
  obtain ⟨tr, hexec⟩ : ∃ tr, Exec Weather ((service []).respond message false .ok).run f.world tr
      (reply message f).1 (reply message f).2.world :=
    Exec.of_eval Forecast.world (fun op f => weather_meet (f.ahead.headD {}) op f.world) _ f
  rw [hresponse] at hexec
  have hkept := hexec.invariant (fun _ _ _ _ hop hw => Keyed.weather hop hw) hkeyed
  refine ⟨h.recorded hexec hstatus ?_, hkept⟩
  rcases exec_respond_devices hexec hstatus hkeyed with ⟨hsame, -⟩ | ⟨d, -, hdevices, hiff⟩
  · exact absurd (by rw [recorded, recorded, hsame]) hchanged
  · refine (hiff handset).mpr ?_
    by_contra hne
    exact hchanged (by rw [recorded, recorded, hdevices, Function.update_of_ne hne])

theorem tree_node_swV : tree.node "./DevDetail/SwV" =
    some { uri := "./DevDetail/SwV", source := "device" } := by decide +kernel

/-- A device that reports its software version, and then a newer one, is recorded with that. -/
theorem heard_inventory_of_reports :
    ∃ w : World, (w.store.devices handset).map Device.moValues = some [("./DevDetail/SwV", "1.1")] ∧
      Inventory tree ((firstReport "./DevDetail/SwV").reported ++ secondReport.reported) none
        (w.store.devices handset) := by
  have hfirst : metricOf (reply (firstReport "./DevDetail/SwV") ⟨world, []⟩).1 =
        some (200, "DmInventoryRequested") ∧
      recorded (reply (firstReport "./DevDetail/SwV") ⟨world, []⟩).2 =
        some [("./DevDetail/SwV", "1.0")] := by decide +kernel
  have hsecond : metricOf (reply secondReport
        (reply (firstReport "./DevDetail/SwV") ⟨world, []⟩).2).1 = some (200, "DmConfigPushed") ∧
      recorded (reply secondReport (reply (firstReport "./DevDetail/SwV") ⟨world, []⟩).2).2 =
        some [("./DevDetail/SwV", "1.1")] := by decide +kernel
  obtain ⟨hheard, hkeyed⟩ := heard_reply .start filed_world.keyed hfirst.1
    (by rw [hfirst.2]; exact nofun)
  obtain ⟨hheard, -⟩ := heard_reply hheard hkeyed hsecond.1
    (by rw [hfirst.2, hsecond.2]; decide)
  refine ⟨_, hsecond.2, heard_inventory hheard filed_world (fun d hd => nomatch hd) ?_⟩
  intro item hitem n hn hnames
  obtain rfl := List.mem_singleton.mp hn
  have huri : item.uri = "./DevDetail/SwV" := by
    have hall : ∀ item ∈ (firstReport "./DevDetail/SwV").reported ++ secondReport.reported,
        item.Names { uri := "./DevDetail/SwV", source := "device" } →
          item.uri = "./DevDetail/SwV" := by decide +kernel
    exact hall item hitem hnames
  exact ⟨huri, _, huri ▸ tree_node_swV, rfl⟩

/-- One that writes the URI with a slash at its end is recorded under another key. -/
theorem not_inventory_of_trailing_slash :
    ∃ w, Heard (service []) handset world (firstReport "./DevDetail/SwV/").reported w ∧
      ¬Inventory tree (firstReport "./DevDetail/SwV/").reported (world.store.devices handset)
        (w.store.devices handset) := by
  have hreply : metricOf (reply (firstReport "./DevDetail/SwV/") ⟨world, []⟩).1 =
        some (200, "DmInventoryRequested") ∧
      recorded (reply (firstReport "./DevDetail/SwV/") ⟨world, []⟩).2 =
        some [("./DevDetail/SwV/", "1.0")] := by decide +kernel
  obtain ⟨hheard, -⟩ := heard_reply .start filed_world.keyed hreply.1
    (by rw [hreply.2]; exact nofun)
  refine ⟨_, hheard, fun h => ?_⟩
  have hvalue := h.values { uri := "./DevDetail/SwV", source := "device" } (by decide +kernel)
  obtain ⟨d, hd, hvalues⟩ := Option.map_eq_some_iff.mp hreply.2
  rw [hd, Option.bind_some, hvalues] at hvalue
  exact absurd hvalue (by decide +kernel)

end Lab
end Acs.Omadm
