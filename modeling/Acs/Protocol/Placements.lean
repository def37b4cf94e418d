import Acs.Protocol.Builder
import Acs.Protocol.DocumentTree

/-! What a document holds after parameters were placed in it one after another, each at the end of
its own path. -/

namespace Acs
open Builder ProvisioningDoc List

def freshTop (head : String) : Characteristic :=
  match CatalogEntry.applicationOf head with
  | some appId => Characteristic.addParm { type := "APPLICATION" } "AppID" appId
  | none => { type := head }

def freshParms : List String → List Parm
  | [head] => (freshTop head).parms
  | _ => []

/-- An address whose head the builder does not use itself. -/
def Usable (head : String) : Prop :=
  CatalogEntry.applicationOf head = none → head ≠ "APPLICATION"

/-- Applications have an AppID, and no other type looks like the address of one. -/
def Headed (c : Characteristic) : Prop :=
  (c.type = "APPLICATION" → (c.findParm "AppID").isSome) ∧
    (c.type ≠ "APPLICATION" → CatalogEntry.applicationOf c.type = none)

theorem applicationOf_eq_some {head appId : String} :
    CatalogEntry.applicationOf head = some appId ↔ head = "APPLICATION:" ++ appId := by
  unfold CatalogEntry.applicationOf
  constructor
  · intro h
    split_ifs at h with hprefix
    obtain ⟨rest, hrest⟩ := List.isPrefixOf_iff_prefix.mp hprefix
    have happ := congrArg String.toList (Option.some.inj h)
    rw [← hrest, String.toList_ofList] at happ
    apply String.toList_inj.mp
    rw [String.toList_append, ← happ, ← hrest]
    rfl
  · rintro rfl
    have hlist : ("APPLICATION:" ++ appId).toList = "APPLICATION:".toList ++ appId.toList :=
      String.toList_append
    rw [if_pos (by rw [hlist]; exact List.isPrefixOf_iff_prefix.mpr (prefix_append _ _)), hlist]
    exact congrArg some String.ofList_toList

theorem applicationOf_ne {head : String} (h : CatalogEntry.applicationOf head = none)
    (appId : String) : head ≠ "APPLICATION:" ++ appId := fun heq => by
  rw [applicationOf_eq_some.mpr heq] at h
  cases h

variable {c : Characteristic} {head appId name value : String} {path : List String}

theorem findParm_addParm (hname : name ≠ "AppID") :
    (c.addParm name value).findParm "AppID" = c.findParm "AppID" := by
  simp [Characteristic.findParm, Characteristic.addParm, hname]

theorem findParm_addParmAt_eq (hname : name ≠ "AppID") :
    (Characteristic.addParmAt name value path c).findParm "AppID" = c.findParm "AppID" := by
  cases path with
  | nil => exact findParm_addParm hname
  | cons => rfl

theorem heading_addParmAt (hname : name ≠ "AppID") :
    (Characteristic.addParmAt name value path c).heading = c.heading := by
  unfold Characteristic.heading
  rw [Characteristic.addParmAt_type, findParm_addParmAt_eq hname]

theorem headed_addParmAt (hname : name ≠ "AppID") (h : Headed c) :
    Headed (Characteristic.addParmAt name value path c) := by
  unfold Headed
  rw [Characteristic.addParmAt_type, findParm_addParmAt_eq hname]
  exact h

theorem heading_freshTop (h : Usable head) : (freshTop head).heading = head := by
  unfold freshTop
  cases happ : CatalogEntry.applicationOf head with
  | some appId =>
    rw [applicationOf_eq_some.mp happ]
    simp [Characteristic.heading, Characteristic.addParm, Characteristic.findParm]
  | none => simp [Characteristic.heading, h happ]

theorem headed_freshTop (h : Usable head) : Headed (freshTop head) := by
  unfold freshTop
  cases happ : CatalogEntry.applicationOf head with
  | some appId =>
    exact ⟨fun _ => by simp [Characteristic.addParm, Characteristic.findParm],
      fun hne => absurd rfl hne⟩
  | none => exact ⟨fun heq => absurd heq (h happ), fun _ => happ⟩

theorem isApplication_iff (h : Headed c) :
    c.isApplication appId = true ↔ c.heading = "APPLICATION:" ++ appId := by
  unfold Characteristic.isApplication Characteristic.heading
  by_cases htype : c.type = "APPLICATION"
  · obtain ⟨p, hp⟩ := Option.isSome_iff_exists.mp (h.1 htype)
    simp [htype, hp]
  · simp only [htype, decide_false, Bool.false_and, Bool.false_eq_true, if_false, false_iff]
    exact applicationOf_ne (h.2 htype) appId

theorem type_eq_iff (happ : CatalogEntry.applicationOf head = none)
    (hhead : head ≠ "APPLICATION") : c.type = head ↔ c.heading = head := by
  unfold Characteristic.heading
  split_ifs with htype
  · constructor
    · intro heq
      exact absurd (heq.symm.trans htype) hhead
    · intro heq
      exact absurd heq.symm (applicationOf_ne happ _)
  · exact Iff.rfl

theorem editFirst_congr {α : Type} {p q : α → Bool} {f : α → α} {new : α} {l : List α}
    (h : ∀ x ∈ l, p x = q x) : editFirst p f new l = editFirst q f new l := by
  induction l with
  | nil => rfl
  | cons x xs ih =>
    obtain ⟨hx, hxs⟩ := forall_mem_cons.mp h
    simp only [editFirst, hx, ih hxs]

variable {doc : ProvisioningDoc}

theorem characteristics_addParmAt (hdoc : ∀ c ∈ doc.characteristics, Headed c)
    (hhead : Usable head) :
    (Builder.addParmAt doc (head :: path) name value).characteristics =
      editFirst (·.heading = head) (Characteristic.addParmAt name value path) (freshTop head)
        doc.characteristics := by
  unfold Builder.addParmAt freshTop
  cases happ : CatalogEntry.applicationOf head with
  | some appId =>
    simp only [headD_cons, happ, tail_cons]
    refine editFirst_congr fun c hc => Bool.eq_iff_iff.mpr ?_
    rw [isApplication_iff (hdoc c hc), decide_eq_true_eq, applicationOf_eq_some.mp happ]
  | none =>
    simp only [headD_cons, happ, tail_cons]
    exact editFirst_congr fun c _ => decide_eq_decide.mpr
      (type_eq_iff happ (hhead happ))

theorem headed_addParmAt_doc (hdoc : ∀ c ∈ doc.characteristics, Headed c) (hhead : Usable head)
    (hname : name ≠ "AppID") :
    ∀ c ∈ (Builder.addParmAt doc (head :: path) name value).characteristics, Headed c := by
  rw [characteristics_addParmAt hdoc hhead]
  intro c hc
  rcases mem_editFirst hc with hc | ⟨d, hd, -, rfl⟩ | rfl
  · exact hdoc c hc
  · exact headed_addParmAt hname (hdoc d hd)
  · exact headed_addParmAt hname (headed_freshTop hhead)

@[simp] theorem children_freshTop (head : String) : (freshTop head).children = [] := by
  unfold freshTop
  cases CatalogEntry.applicationOf head <;> rfl

theorem distinct_freshTop (head : String) : (freshTop head).Distinct := by
  unfold freshTop
  cases CatalogEntry.applicationOf head <;> exact Characteristic.distinct_leaf _ _

theorem distinct_addParmAt_doc (hdoc : ∀ c ∈ doc.characteristics, Headed c) (hhead : Usable head)
    (hname : name ≠ "AppID") (h : doc.Distinct) :
    (Builder.addParmAt doc (head :: path) name value).Distinct := by
  have hchars : (Builder.addParmAt doc (head :: path) name value).characteristics = _ :=
    characteristics_addParmAt hdoc hhead
  constructor
  · rw [hchars]
    refine nodup_map_editFirst h.top (fun x _ => heading_addParmAt hname) fun x _ hx => ?_
    rw [heading_addParmAt hname, heading_freshTop hhead] at hx
    exact decide_eq_true hx
  · rw [hchars]
    intro c hc
    rcases mem_editFirst hc with hc | ⟨d, hd, -, rfl⟩ | rfl
    · exact h.below c hc
    · exact (h.below d hd).addParmAt _ _ _
    · exact (distinct_freshTop head).addParmAt _ _ _

theorem parmsAt_addParmAt_doc (hdoc : ∀ c ∈ doc.characteristics, Headed c) (hhead : Usable head)
    (hname : name ≠ "AppID") (address : List String) :
    (Builder.addParmAt doc (head :: path) name value).parmsAt address =
      if address = head :: path then
        some ((doc.parmsAt address).getD (freshParms address) ++ [⟨name, value⟩])
      else if address ≠ [] ∧ address <+: head :: path then
        some ((doc.parmsAt address).getD (freshParms address))
      else doc.parmsAt address := by
  cases address with
  | nil => simp [ProvisioningDoc.parmsAt]
  | cons first types =>
    simp only [ProvisioningDoc.parmsAt, characteristics_addParmAt hdoc hhead]
    by_cases hfirst : first = head
    -- the address starts with the characteristic that the parameter is added below
    · subst hfirst
      have hfind := find?_editFirst (p := fun c : Characteristic => c.heading = first)
        (f := Characteristic.addParmAt name value path) (l := doc.characteristics)
        (fun c => by rw [heading_addParmAt hname]) (decide_eq_true (heading_freshTop hhead))
      rw [hfind, Option.bind_some, Characteristic.parmsAt_addParmAt]
      have hnew : ∀ types : List String, (((doc.characteristics.find? (·.heading = first)).getD
          (freshTop first)).parmsAt types).getD [] =
            ((doc.characteristics.find? (·.heading = first)).bind (·.parmsAt types)).getD
              (freshParms (first :: types)) := by
        intro types
        cases doc.characteristics.find? (·.heading = first) <;> cases types <;>
          simp [Characteristic.parmsAt, Characteristic.find, freshParms]
      have hold : types ≠ [] → ((doc.characteristics.find? (·.heading = first)).getD
          (freshTop first)).parmsAt types =
            (doc.characteristics.find? (·.heading = first)).bind (·.parmsAt types) := by
        intro hne
        obtain ⟨type, types, rfl⟩ := exists_cons_of_ne_nil hne
        cases doc.characteristics.find? (·.heading = first) <;>
          simp [Characteristic.parmsAt, Characteristic.find]
      simp only [cons.injEq, true_and, cons_prefix_cons, ne_eq, reduceCtorEq, not_false_eq_true,
        hnew]
      split_ifs with heq hprefix
      · rw [heq]
      · rfl
      · exact hold fun hnil => hprefix (hnil ▸ nil_prefix)
    · have hfind := find?_editFirst_of_ne (p := fun c : Characteristic => c.heading = head)
        (q := fun c : Characteristic => c.heading = first)
        (f := Characteristic.addParmAt name value path) (l := doc.characteristics)
        (fun c => by rw [heading_addParmAt hname]) (fun c hc => by
          simp only [decide_eq_true_eq, decide_eq_false_iff_not] at hc ⊢
          exact fun h => hfirst (h.symm.trans hc)) (decide_eq_true (heading_freshTop hhead))
      rw [hfind]
      simp [hfirst]

structure Placement where
  segments : List String
  parm : Parm

/-- The builder can place it: its path has a usable head, and it is no AppID. -/
def Placement.Fits (p : Placement) : Prop :=
  p.parm.name ≠ "AppID" ∧ ∃ head path, p.segments = head :: path ∧ Usable head

def place (doc : ProvisioningDoc) (p : Placement) : ProvisioningDoc :=
  Builder.addParmAt doc p.segments p.parm.name p.parm.value

/-- The document before any placement, and the parameters placed at each address, in order. -/
def placedAt (start : ProvisioningDoc) (done : List Placement) (address : List String) :
    Option (List Parm) :=
  if address ≠ [] ∧ ∃ p ∈ done, address <+: p.segments then
    some ((start.parmsAt address).getD (freshParms address) ++
      (done.filter (·.segments = address)).map Placement.parm)
  else start.parmsAt address

/-- What holds of the document while entries are placed. -/
structure Grown (start : ProvisioningDoc) (done : List Placement) (doc : ProvisioningDoc) : Prop where
  headed : ∀ c ∈ doc.characteristics, Headed c
  distinct : doc.Distinct
  parms : ∀ address, doc.parmsAt address = placedAt start done address

theorem placedAt_of_through {start : ProvisioningDoc} {done : List Placement}
    {address : List String} (hne : address ≠ []) (h : ∃ p ∈ done, address <+: p.segments) :
    placedAt start done address = some ((start.parmsAt address).getD (freshParms address) ++
      (done.filter (·.segments = address)).map Placement.parm) := if_pos ⟨hne, h⟩

theorem placedAt_of_not_through (start : ProvisioningDoc) {done : List Placement}
    {address : List String} (h : ¬ ∃ p ∈ done, address <+: p.segments) :
    placedAt start done address = start.parmsAt address ∧
      done.filter (·.segments = address) = [] := by
  refine ⟨if_neg fun hthrough => h hthrough.2, filter_eq_nil_iff.mpr fun p hp heq => h ⟨p, hp, ?_⟩⟩
  have hsegments : p.segments = address := of_decide_eq_true heq
  exact hsegments ▸ prefix_refl _

theorem placedAt_concat (start : ProvisioningDoc) (done : List Placement) (p : Placement)
    {address : List String} (hne : address ≠ []) :
    placedAt start (done ++ [p]) address =
      if address = p.segments then
        some ((placedAt start done address).getD (freshParms address) ++ [p.parm])
      else if address <+: p.segments then
        some ((placedAt start done address).getD (freshParms address))
      else placedAt start done address := by
  have hown : ([p].filter (·.segments = address)).map Placement.parm =
      if address = p.segments then [p.parm] else [] := by
    by_cases heq : address = p.segments
    · simp [heq]
    · have hp : p.segments ≠ address := fun h => heq h.symm
      simp [heq, hp]
  by_cases hthrough : ∃ q ∈ done, address <+: q.segments
  · have hafter : ∃ q ∈ done ++ [p], address <+: q.segments := by
      obtain ⟨q, hq, hprefix⟩ := hthrough
      exact ⟨q, mem_append_left _ hq, hprefix⟩
    rw [placedAt_of_through hne hthrough, placedAt_of_through hne hafter, filter_append,
      map_append, hown, Option.getD_some]
    split_ifs <;> simp
  · obtain ⟨hstart, hnone⟩ := placedAt_of_not_through start hthrough
    by_cases hprefix : address <+: p.segments
    · have hafter : ∃ q ∈ done ++ [p], address <+: q.segments :=
        ⟨p, mem_append_right _ mem_cons_self, hprefix⟩
      rw [placedAt_of_through hne hafter, hstart, filter_append, hnone, nil_append, hown,
        if_pos hprefix]
      split_ifs <;> simp
    · have hafter : ¬ ∃ q ∈ done ++ [p], address <+: q.segments := by
        rintro ⟨q, hq, hq'⟩
        rcases mem_append.mp hq with hq | hq
        · exact hthrough ⟨q, hq, hq'⟩
        · exact hprefix (mem_singleton.mp hq ▸ hq')
      have heq : address ≠ p.segments := fun h => hprefix (h ▸ prefix_refl _)
      rw [(placedAt_of_not_through start hafter).1, hstart, if_neg heq, if_neg hprefix]

theorem Grown.place {start : ProvisioningDoc} {done : List Placement} {p : Placement}
    (h : Grown start done doc) (hp : p.Fits) : Grown start (done ++ [p]) (place doc p) := by
  obtain ⟨hname, head, path, hsegments, hhead⟩ := hp
  have hplace : Acs.place doc p = Builder.addParmAt doc (head :: path) p.parm.name p.parm.value := by
    rw [Acs.place, hsegments]
  rw [hplace]
  refine ⟨headed_addParmAt_doc h.headed hhead hname,
    distinct_addParmAt_doc h.headed hhead hname h.distinct, fun address => ?_⟩
  rw [parmsAt_addParmAt_doc h.headed hhead hname]
  by_cases hne : address = []
  · subst hne
    simp [ProvisioningDoc.parmsAt, placedAt]
  · rw [placedAt_concat start done p hne, ← h.parms, hsegments]
    simp only [hne, ne_eq, not_false_eq_true, true_and]

theorem Grown.foldl {start : ProvisioningDoc} {done ps : List Placement} (h : Grown start done doc)
    (hps : ∀ p ∈ ps, p.Fits) : Grown start (done ++ ps) (ps.foldl Acs.place doc) := by
  induction ps generalizing done doc with
  | nil => simpa using h
  | cons p ps ih =>
    obtain ⟨hp, hps⟩ := forall_mem_cons.mp hps
    have hrest := ih (h.place hp) hps
    rwa [append_assoc] at hrest

theorem grown_start {start : ProvisioningDoc} (hheaded : ∀ c ∈ start.characteristics, Headed c)
    (hdistinct : start.Distinct) : Grown start [] start :=
  ⟨hheaded, hdistinct, fun address => by simp [placedAt]⟩

end Acs
