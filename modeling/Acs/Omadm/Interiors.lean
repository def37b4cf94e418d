import Acs.Omadm.Transparency

/-! The order of a configuration package: the interior nodes that its values need come first, each
once and below no other that comes later, in the queue and on the wire. -/

namespace Acs.Omadm
open Package

theorem intercalate_append {sep : Char} {l l' : List (List Char)} (h : l ≠ []) (h' : l' ≠ []) :
    [sep].intercalate (l ++ l') = [sep].intercalate l ++ sep :: [sep].intercalate l' := by
  induction l with
  | nil => exact absurd rfl h
  | cons x xs ih =>
    by_cases hxs : xs = []
    · subst hxs
      rw [List.singleton_append, List.intercalate_cons_of_ne_nil h', List.intercalate_singleton,
        List.append_assoc, List.singleton_append]
    · have hne : xs ++ l' ≠ [] := fun hnil => hxs (List.append_eq_nil_iff.mp hnil).1
      rw [List.cons_append, List.intercalate_cons_of_ne_nil hne, ih hxs,
        List.intercalate_cons_of_ne_nil hxs, List.append_assoc, List.append_assoc,
        List.append_assoc]

def Above (u v : String) : Prop := u.toList ++ ['/'] <+: v.toList ∧ '/' ∈ u.toList

theorem mem_ancestors {u v : String} : u ∈ ancestors v ↔ Above u v := by
  have hv : ['/'].intercalate (v.toList.splitOn '/') = v.toList := List.intercalate_splitOn '/'
  unfold ancestors
  simp only [List.mem_map, List.mem_range'_1]
  constructor
  · rintro ⟨depth, ⟨hlow, hhigh⟩, rfl⟩
    have htake : (v.toList.splitOn '/').take depth ≠ [] := by
      rw [Ne, List.take_eq_nil_iff]
      exact fun h => h.elim (by omega) (List.splitOn_ne_nil _ _)
    have hdrop : (v.toList.splitOn '/').drop depth ≠ [] := by
      rw [Ne, List.drop_eq_nil_iff]
      omega
    have hsplit := @intercalate_append '/' _ _ htake hdrop
    rw [List.take_append_drop, hv] at hsplit
    rw [Above, String.toList_ofList]
    refine ⟨⟨_, by rw [List.append_assoc, List.singleton_append]; exact hsplit.symm⟩, ?_⟩
    -- two segments at least are joined
    have hfirst : ((v.toList.splitOn '/').take depth).take 1 ≠ [] := by
      rw [Ne, List.take_eq_nil_iff]
      exact fun h => h.elim (by omega) htake
    have hsecond : ((v.toList.splitOn '/').take depth).drop 1 ≠ [] := by
      rw [Ne, List.drop_eq_nil_iff, List.length_take]
      omega
    have hjoined := @intercalate_append '/' _ _ hfirst hsecond
    rw [List.take_append_drop] at hjoined
    rw [hjoined]
    simp
  · rintro ⟨⟨rest, hrest⟩, hslash⟩
    rw [List.append_assoc, List.singleton_append] at hrest
    have hsplit : v.toList.splitOn '/' = u.toList.splitOn '/' ++ rest.splitOn '/' := by
      rw [← hrest, List.splitOn_append_cons_self]
    have hdeep : 2 ≤ (u.toList.splitOn '/').length := by
      obtain ⟨front, back, hu⟩ := List.append_of_mem hslash
      rw [hu, List.splitOn_append_cons_self, List.length_append]
      have hfront := List.length_pos_iff.mpr (List.splitOn_ne_nil '/' front)
      have hback := List.length_pos_iff.mpr (List.splitOn_ne_nil '/' back)
      omega
    have hrestLength := List.length_pos_iff.mpr (List.splitOn_ne_nil '/' rest)
    refine ⟨(u.toList.splitOn '/').length, ⟨hdeep, ?_⟩, ?_⟩
    · rw [hsplit, List.length_append]
      omega
    · rw [hsplit, List.take_left, List.intercalate_splitOn, String.ofList_toList]

theorem Above.count_lt {u v : String} (h : Above u v) :
    u.toList.count '/' < v.toList.count '/' := by
  obtain ⟨⟨rest, hrest⟩, -⟩ := h
  rw [← hrest, List.count_append, List.count_append, List.count_singleton_self]
  omega

instance : Std.Total parentFirst where
  total u v := by
    unfold parentFirst
    rcases Nat.lt_trichotomy (u.toList.count '/') (v.toList.count '/') with h | h | h
    · exact Or.inl (Or.inl h)
    · rcases String.le_total u v with huv | huv
      · exact Or.inl (Or.inr ⟨h, huv⟩)
      · exact Or.inr (Or.inr ⟨h.symm, huv⟩)
    · exact Or.inr (Or.inl h)

instance : IsTrans String parentFirst where
  trans u v w huv hvw := by
    unfold parentFirst at *
    rcases huv with huv | ⟨huv, hle⟩
    · rcases hvw with hvw | ⟨hvw, -⟩
      · exact Or.inl (huv.trans hvw)
      · exact Or.inl (hvw ▸ huv)
    · rcases hvw with hvw | ⟨hvw, hle'⟩
      · exact Or.inl (huv ▸ hvw)
      · exact Or.inr ⟨huv.trans hvw, String.le_trans hle hle'⟩

def itemsOf (entries : List Entry) : List Item :=
  entries.filterMap fun e => match e with | .item i => some i | .status _ => none

def urisOf (command : String) (items : List Item) : List String :=
  (items.filter (·.command = command)).map Item.uri

/-- The `Add` items are the interior nodes that the `Replace` items need: those and no others, each
once, none below a later one, and all of them before the first value. -/
structure Arranged (tree : MoTree) (items : List Item) : Prop where
  exact : ∀ u, u ∈ urisOf "Add" items ↔ (∃ n ∈ tree.allNodes, n.isInterior ∧ n.uri = u) ∧
    ∃ v ∈ urisOf "Replace" items, Above u v
  once : (urisOf "Add" items).Nodup
  parentsFirst : (urisOf "Add" items).Pairwise fun u v => ¬ Above v u
  addsFirst : items.Pairwise fun i j => i.command = "Replace" → j.command ≠ "Add"

section Queue
variable {service : DmService} {message : SyncMlMessage} {values : List Item}

def addItem (uri : String) : Item :=
  { command := "Add", uri, data := "", fmt := "node", type := "node" }

theorem itemsOf_append (es es' : List Entry) : itemsOf (es ++ es') = itemsOf es ++ itemsOf es' :=
  List.filterMap_append

theorem itemsOf_acks : itemsOf (service.acks message) = [] := by
  unfold itemsOf DmService.acks
  rw [List.filterMap_map, List.filterMap_eq_nil_iff]
  exact fun _ _ => rfl

theorem itemsOf_map (items : List Item) : itemsOf (items.map Entry.item) = items := by
  unfold itemsOf
  rw [List.filterMap_map]
  exact List.filterMap_some

theorem itemsOf_configurationQueue :
    itemsOf (service.configurationQueue message values) =
      (service.tree.interiorNodesFor (values.map Item.uri)).map addItem ++ values := by
  unfold DmService.configurationQueue
  have hadds : ∀ uris : List String, (uris.map fun uri =>
      Entry.item { command := "Add", uri, data := "", fmt := "node", type := "node" }) =
        (uris.map addItem).map Entry.item := by
    intro uris
    rw [List.map_map]
    rfl
  rw [itemsOf_append, itemsOf_append, itemsOf_acks, List.nil_append, hadds, itemsOf_map,
    itemsOf_map]

theorem urisOf_append (command : String) (items items' : List Item) :
    urisOf command (items ++ items') = urisOf command items ++ urisOf command items' := by
  rw [urisOf, List.filter_append, List.map_append]
  rfl

theorem urisOf_eq_self {command : String} {items : List Item}
    (h : ∀ i ∈ items, i.command = command) : urisOf command items = items.map Item.uri := by
  rw [urisOf, List.filter_eq_self.mpr fun i hi => decide_eq_true (h i hi)]

theorem urisOf_eq_nil {command : String} {items : List Item}
    (h : ∀ i ∈ items, i.command ≠ command) : urisOf command items = [] := by
  rw [urisOf, List.filter_eq_nil_iff.mpr fun i hi => by simpa using h i hi, List.map_nil]

theorem arranged_interiors (tree : MoTree) (hvalues : ∀ i ∈ values, i.command = "Replace") :
    Arranged tree ((tree.interiorNodesFor (values.map Item.uri)).map addItem ++ values) := by
  have hadd : ∀ i ∈ (tree.interiorNodesFor (values.map Item.uri)).map addItem,
      i.command = "Add" := by
    intro i hi
    obtain ⟨u, -, rfl⟩ := List.mem_map.mp hi
    rfl
  have hadds : urisOf "Add" ((tree.interiorNodesFor (values.map Item.uri)).map addItem ++ values) =
      tree.interiorNodesFor (values.map Item.uri) := by
    rw [urisOf_append, urisOf_eq_self hadd, urisOf_eq_nil fun i hi => by simp [hvalues i hi],
      List.append_nil, List.map_map]
    exact List.map_id' _
  have hreplaces : urisOf "Replace" ((tree.interiorNodesFor (values.map Item.uri)).map addItem ++
      values) = values.map Item.uri := by
    rw [urisOf_append, urisOf_eq_self hvalues, urisOf_eq_nil fun i hi => by simp [hadd i hi],
      List.nil_append]
  constructor
  · intro u
    rw [hadds, hreplaces, mem_interiorNodesFor, and_comm]
    simp only [mem_ancestors]
  · rw [hadds]
    exact nodup_interiorNodesFor _ _
  · rw [hadds]
    refine (List.pairwise_insertionSort parentFirst _).imp ?_
    intro u v hle habove
    have hlt := habove.count_lt
    rcases hle with hle | ⟨hle, -⟩ <;> omega
  · refine List.pairwise_append.mpr ⟨?_, ?_, ?_⟩
    · exact List.pairwise_of_forall_mem_list fun i hi j _ h => by simp [hadd i hi] at h
    · exact List.pairwise_of_forall_mem_list fun i _ j hj _ => by simp [hvalues j hj]
    · exact fun i hi j _ h => by simp [hadd i hi] at h

end Queue

namespace DmService
variable {service : DmService} {key phase : String} {continues : ℕ → Bool} {queue : List Entry}
  {t : Turn} {ts : List Turn} {answers : List Answer}

/-- The items of the first answers, in the order in which they are sent. -/
def onWire (answers : List Answer) (k : ℕ) : List Item :=
  (answers.take (k + 1)).flatMap fun a => itemsOf (entriesOf a.tree)

theorem Delivers.items {c : Bool} {sent : List Entry} {a : Answer}
    (h : service.Delivers key phase c queue sent t a) :
    itemsOf (entriesOf a.tree) = itemsOf a.part := by
  obtain ⟨code, hentries⟩ := h.entries
  have hacks : itemsOf (if c then service.acks t.message else []) = [] := by
    cases c
    · rfl
    · exact itemsOf_acks
  rw [hentries]
  change itemsOf (_ ++ a.part) = _
  rw [itemsOf_append, hacks, List.nil_append]

theorem Delivered.wire (h : service.Delivered key phase continues queue ts answers) {k : ℕ}
    {a : Answer} (ht : ts[k]? = some t) (ha : answers[k]? = some a)
    (hopen : ∀ j b, j < k → answers[j]? = some b → carriesFinal b.tree = false) :
    onWire answers k <+: itemsOf queue ∧
      (carriesFinal a.tree = true → onWire answers k = itemsOf queue) := by
  have hdelivers := h.2 k t a ht ha hopen
  have hwire : onWire answers k = itemsOf ((answers.take (k + 1)).flatMap Answer.part) := by
    have heach : ∀ b ∈ answers.take (k + 1), itemsOf (entriesOf b.tree) = itemsOf b.part := by
      intro b hb
      obtain ⟨j, hj, rfl⟩ := List.mem_take_iff_getElem.mp hb
      have hlength := h.1
      have hjk : j < k + 1 ∧ j < answers.length := Nat.lt_min.mp hj
      have hturn : ts[j]? = some ts[j] := List.getElem?_eq_getElem (by omega)
      exact (h.2 j _ _ hturn (List.getElem?_eq_getElem hjk.2) fun i b hi hb =>
        hopen i b (by omega) hb).items
    rw [DmService.onWire, itemsOf, List.filterMap_flatMap]
    exact List.flatMap_congr heach
  rw [hwire]
  refine ⟨hdelivers.inOrder.filterMap _, fun hfinal => ?_⟩
  rw [hdelivers.final.mp hfinal]

/-- The interior nodes that a configuration needs come first, each once and parents before children,
whatever the tree, the subscriber and its overrides; and so they do on the wire, however the package
is split. -/
theorem interiors_first (service : DmService) (key : String) :
    (∀ message session subscriber values,
      service.configurationValues session subscriber = .ok values →
        Arranged service.tree (itemsOf (service.configurationQueue message values))) ∧
    ∀ t ts, Reached t.before → Free key t.before → Conversation service key t.before (t :: ts) →
      (t.before.store.dmSessions key).map DmSession.phase = some "devinfo" →
      ∃ session values answers,
        service.Opens t.message t.before.store.subscribers (t.before.store.dmSessions key) session ∧
        service.configurationValues session (ownSubscriber session t.before.store.subscribers) =
          .ok values ∧
        answers.length = (t :: ts).length ∧
        ∀ k t' a, (t :: ts)[k]? = some t' → answers[k]? = some a →
          (∀ j b, j < k → answers[j]? = some b → carriesFinal b.tree = false) →
          service.encodeTree t'.encode a.tree = .ok t'.response.body ∧
          onWire answers k <+: itemsOf (service.configurationQueue t.message values) ∧
          (carriesFinal a.tree = true →
            onWire answers k = itemsOf (service.configurationQueue t.message values)) := by
  constructor
  · intro message session subscriber values hvalues
    obtain ⟨-, -, hreplace⟩ := configurationValues_ok hvalues
    rw [itemsOf_configurationQueue]
    exact arranged_interiors service.tree hreplace
  · intro t ts hreached hfree h hphase
    obtain ⟨session, queue, answers, hopens, hqueue, hdelivered⟩ :=
      conversation_delivers hreached hfree h
    have hdevinfo : session.phase = "devinfo" := by
      rw [hopens.phase, hphase]
      rfl
    have hinit : session.phase ≠ "init" := by
      rw [hdevinfo]
      decide
    rw [packageQueue, if_neg hinit, if_pos hdevinfo] at hqueue
    obtain ⟨values, hvalues, rfl⟩ := Except.map_eq_ok.mp hqueue
    refine ⟨session, values, answers, hopens, hvalues, hdelivered.1, fun k t' a ht ha hopen => ?_⟩
    exact ⟨(hdelivered.2 k t' a ht ha hopen).encoded, hdelivered.wire ht ha hopen⟩

end DmService

namespace Lab

def reports : Xml.Element := message login "2" "4000" [alert alertClientInitiatedMgmt]

def asked : DmSession :=
  { sessionId := "356938035643809:42", deviceId := "356938035643809", phase := "devinfo" }

def askedWorld : World := ⟨world.store.putDmSession asked, world.clock⟩

theorem reached_askedWorld : Reached askedWorld :=
  .dm (.start rfl rfl) (weather_of_fair (.write (.putDmSession asked)) world (.ok ()) askedWorld
    ⟨Int.le_refl _, "", rfl⟩)

end Lab

theorem interiors_first_pushed :
    ∃ (t : Turn) (session : DmSession) (values : List Item) (answers : List DmService.Answer),
      t.response.metric = "DmConfigPushed" ∧
      (Lab.service [Lab.reports]).configurationValues session
        (ownSubscriber session t.before.store.subscribers) = .ok values ∧
      DmService.onWire answers 0 <+:
        itemsOf ((Lab.service [Lab.reports]).configurationQueue t.message values) := by
  have hlab : (Lab.service [Lab.reports]).converses "356938035643809:42" Lab.askedWorld
      [⟨printed "" Lab.reports, contentTypeXml, fun _ r => r.metric = "DmConfigPushed"⟩] = true := by
    decide +kernel
  obtain ⟨ts, hconversation, hsuccessive, hanswers⟩ := DmService.conversation_of_converses hlab
  obtain ⟨t, ts₁, hmetric, hanswers₁, rfl⟩ := List.forall₂_cons_right_iff.mp hanswers
  obtain rfl := List.forall₂_nil_right_iff.mp hanswers₁
  have hworld : t.before = Lab.askedWorld := hsuccessive.1
  have hfree : DmService.Free "356938035643809:42" t.before := by
    rw [hworld]
    exact fun p hp => by cases hp
  have hphase : (t.before.store.dmSessions "356938035643809:42").map DmSession.phase =
      some "devinfo" := by
    rw [hworld]
    decide +kernel
  rw [← hworld] at hconversation
  obtain ⟨session, values, answers, hopens, hvalues, hlength, hsent⟩ :=
    (DmService.interiors_first (Lab.service [Lab.reports]) "356938035643809:42").2 t []
      (hworld ▸ Lab.reached_askedWorld) hfree hconversation hphase
  obtain ⟨a, ha⟩ : ∃ a, answers[0]? = some a := ⟨_, List.getElem?_eq_getElem (by simp [hlength])⟩
  exact ⟨t, session, values, answers, by simpa using hmetric, hvalues,
    (hsent 0 t a rfl ha fun j _ hj => absurd hj (Nat.not_lt_zero j)).2.1⟩

end Acs.Omadm
