import Mathlib
import Acs.Protocol.Document

/-! Where the parameters of a document lie: characteristics are told apart by their addresses, and
adding a parameter changes one address only. -/

namespace Acs
open List

section EditFirst
variable {α β : Type} {p q : α → Bool} {f : α → α} {new x : α} {l : List α}

theorem find?_editFirst (hf : ∀ x, p (f x) = p x) (hnew : p new = true) :
    (editFirst p f new l).find? p = some (f ((l.find? p).getD new)) := by
  induction l with
  | nil => simp [editFirst, hf, hnew]
  | cons x xs ih =>
    unfold editFirst
    by_cases hx : p x = true
    · rw [if_pos hx, find?_cons_of_pos ((hf x).trans hx), find?_cons_of_pos hx]
      rfl
    · rw [if_neg hx, find?_cons_of_neg hx, find?_cons_of_neg hx, ih]

theorem find?_editFirst_of_ne (hf : ∀ x, q (f x) = q x) (hpq : ∀ x, p x = true → q x = false)
    (hnew : p new = true) : (editFirst p f new l).find? q = l.find? q := by
  induction l with
  | nil => simp [editFirst, hf, hpq new hnew]
  | cons x xs ih =>
    unfold editFirst
    by_cases hx : p x = true
    · have hq := hpq x hx
      rw [if_pos hx, find?_cons_of_neg (by simp [hf, hq]), find?_cons_of_neg (by simp [hq])]
    · rw [if_neg hx, find?_cons, find?_cons, ih]

theorem mem_editFirst (h : x ∈ editFirst p f new l) :
    x ∈ l ∨ (∃ y ∈ l, p y = true ∧ x = f y) ∨ x = f new := by
  induction l with
  | nil => exact .inr (.inr (mem_singleton.mp h))
  | cons y ys ih =>
    unfold editFirst at h
    split_ifs at h with hy
    · rcases mem_cons.mp h with rfl | h
      · exact .inr (.inl ⟨y, mem_cons_self, hy, rfl⟩)
      · exact .inl (mem_cons_of_mem _ h)
    · rcases mem_cons.mp h with rfl | h
      · exact .inl mem_cons_self
      · rcases ih h with h | ⟨z, hz, hpz, rfl⟩ | h
        · exact .inl (mem_cons_of_mem _ h)
        · exact .inr (.inl ⟨z, mem_cons_of_mem _ hz, hpz, rfl⟩)
        · exact .inr (.inr h)

theorem nodup_map_editFirst {name : α → β} (h : (l.map name).Nodup)
    (hf : ∀ x, p x = true → name (f x) = name x)
    (hnew : ∀ x ∈ l, name x = name (f new) → p x = true) :
    ((editFirst p f new l).map name).Nodup := by
  induction l with
  | nil => simp [editFirst]
  | cons x xs ih =>
    obtain ⟨hx, hxs⟩ := nodup_cons.mp (map_cons (f := name) ▸ h)
    obtain ⟨hnewx, hnewxs⟩ := forall_mem_cons.mp hnew
    unfold editFirst
    split_ifs with hpx
    · rw [map_cons, hf x hpx]
      exact nodup_cons.mpr ⟨hx, hxs⟩
    · rw [map_cons]
      refine nodup_cons.mpr ⟨fun hmem => ?_, ih hxs hnewxs⟩
      obtain ⟨y, hy, hname⟩ := mem_map.mp hmem
      rcases mem_editFirst hy with hy | ⟨z, hz, hpz, rfl⟩ | rfl
      · exact hx (hname ▸ mem_map_of_mem hy)
      · exact hx (hname ▸ hf z hpz ▸ mem_map_of_mem hz)
      · exact hpx (hnewx hname.symm)

theorem find?_updateFirst (hf : ∀ x, p (f x) = p x) :
    (updateFirst p f l).find? p = (l.find? p).map f := by
  induction l with
  | nil => rfl
  | cons x xs ih =>
    unfold updateFirst
    by_cases hx : p x = true
    · rw [if_pos hx, find?_cons_of_pos ((hf x).trans hx), find?_cons_of_pos hx]
      rfl
    · rw [if_neg hx, find?_cons_of_neg hx, find?_cons_of_neg hx, ih]

theorem find?_updateFirst_of_ne (hf : ∀ x, q (f x) = q x) (hpq : ∀ x, p x = true → q x = false) :
    (updateFirst p f l).find? q = l.find? q := by
  induction l with
  | nil => rfl
  | cons x xs ih =>
    unfold updateFirst
    by_cases hx : p x = true
    · have hq := hpq x hx
      rw [if_pos hx, find?_cons_of_neg (by simp [hf, hq]), find?_cons_of_neg (by simp [hq])]
    · rw [if_neg hx, find?_cons, find?_cons, ih]

theorem mem_updateFirst (h : x ∈ updateFirst p f l) : x ∈ l ∨ ∃ y ∈ l, x = f y := by
  induction l with
  | nil => cases h
  | cons y ys ih =>
    unfold updateFirst at h
    split_ifs at h with hy
    · rcases mem_cons.mp h with rfl | h
      · exact .inr ⟨y, mem_cons_self, rfl⟩
      · exact .inl (mem_cons_of_mem _ h)
    · rcases mem_cons.mp h with rfl | h
      · exact .inl mem_cons_self
      · rcases ih h with h | ⟨z, hz, rfl⟩
        · exact .inl (mem_cons_of_mem _ h)
        · exact .inr ⟨z, mem_cons_of_mem _ hz, rfl⟩

theorem map_updateFirst {name : α → β} (hf : ∀ x, name (f x) = name x) :
    (updateFirst p f l).map name = l.map name := by
  induction l with
  | nil => rfl
  | cons x xs ih =>
    unfold updateFirst
    split_ifs
    · rw [map_cons, map_cons, hf]
    · rw [map_cons, map_cons, ih]

theorem find?_of_nodup_map [DecidableEq β] {name : α → β} (h : (l.map name).Nodup) (hx : x ∈ l) :
    l.find? (name · = name x) = some x := by
  induction l with
  | nil => cases hx
  | cons y ys ih =>
    obtain ⟨hy, hys⟩ := nodup_cons.mp (map_cons (f := name) ▸ h)
    rcases mem_cons.mp hx with rfl | hx
    · exact find?_cons_of_pos (decide_eq_true rfl)
    · have hne : name y ≠ name x := fun heq => hy (heq ▸ mem_map_of_mem hx)
      rw [find?_cons_of_neg (by simpa using hne), ih hys hx]

end EditFirst

namespace Characteristic

def find : List String → Characteristic → Option Characteristic
  | [], c => some c
  | type :: types, c => (c.children.find? (·.type = type)).bind (find types)

/-- A characteristic lies below another, and these are the types on the way. -/
inductive Holds : Characteristic → List String → Characteristic → Prop
  | here (c : Characteristic) : Holds c [] c
  | child {c child d : Characteristic} {types : List String} :
    child ∈ c.children → Holds child types d → Holds c (child.type :: types) d

/-- No two siblings below have one type. -/
def Distinct (c : Characteristic) : Prop :=
  ∀ types d, c.Holds types d → (d.children.map type).Nodup

def parmsAt (types : List String) (c : Characteristic) : Option (List Parm) :=
  (c.find types).map parms

variable {c d : Characteristic} {types : List String}

theorem Distinct.child (h : c.Distinct) {child : Characteristic} (hchild : child ∈ c.children) :
    child.Distinct := fun _ _ hholds => h _ _ (.child hchild hholds)

theorem Holds.find (h : c.Holds types d) (hc : c.Distinct) : c.find types = some d := by
  induction h with
  | here c => rfl
  | @child c child d types hchild _ ih =>
    rw [Characteristic.find, find?_of_nodup_map (hc [] c (.here c)) hchild]
    exact ih (hc.child hchild)

theorem holds_of_find (h : c.find types = some d) : c.Holds types d := by
  induction types generalizing c with
  | nil =>
    obtain rfl : c = d := Option.some.inj h
    exact .here c
  | cons type types ih =>
    obtain ⟨child, hchild, h⟩ := Option.bind_eq_some_iff.mp h
    have htype : child.type = type := by simpa using find?_some hchild
    exact htype ▸ .child (mem_of_find?_eq_some hchild) (ih h)

theorem distinct_leaf (type : String) (parms : List Parm) :
    (Characteristic.mk type parms []).Distinct := by
  intro types d h
  cases h with
  | here => exact nodup_nil
  | child hchild => cases hchild

/-- Adding a parameter at a path creates what is missing on the way, adds to what is at its end and
leaves the rest alone. -/
theorem parmsAt_addParmAt (name value : String) (path types : List String) (c : Characteristic) :
    (addParmAt name value path c).parmsAt types =
      if types = path then some ((c.parmsAt path).getD [] ++ [⟨name, value⟩])
      else if types <+: path then some ((c.parmsAt types).getD []) else c.parmsAt types := by
  induction path generalizing types c with
  | nil =>
    cases types with
    | nil => rfl
    | cons type types => simp [addParmAt, addParm, parmsAt, Characteristic.find]
  | cons segment path ih =>
    cases types with
    | nil => simp [addParmAt, parmsAt, Characteristic.find]
    | cons type types =>
      by_cases htype : type = segment
      · subst htype
        -- the parameter is added below the first child of that type, or below a new one
        have hedit : (addParmAt name value (type :: path) c).parmsAt (type :: types) =
            (addParmAt name value path
              ((c.children.find? (·.type = type)).getD { type })).parmsAt types := by
          have hfind := find?_editFirst (p := fun d : Characteristic => d.type = type)
            (f := addParmAt name value path) (l := c.children) (fun d => by simp)
            (decide_eq_true (rfl : (Characteristic.mk type [] []).type = type))
          simp only [addParmAt, parmsAt, Characteristic.find, hfind, Option.bind_some]
        have hfresh : ∀ types : List String, ((c.children.find? (·.type = type)).getD
            { type }).parmsAt types = if types = [] ∧ c.parmsAt [type] = none then some []
              else c.parmsAt (type :: types) := by
          intro types
          cases hfind : c.children.find? (·.type = type) with
          | some child => simp [parmsAt, Characteristic.find, hfind]
          | none => cases types <;> simp [parmsAt, Characteristic.find, hfind]
        rw [hedit, ih, hfresh, hfresh]
        simp only [cons.injEq, true_and, cons_prefix_cons]
        split_ifs <;> simp_all
      · have hother : (addParmAt name value (segment :: path) c).parmsAt (type :: types) =
            c.parmsAt (type :: types) := by
          have hfind := find?_editFirst_of_ne (p := fun d : Characteristic => d.type = segment)
            (q := fun d : Characteristic => d.type = type) (f := addParmAt name value path)
            (l := c.children) (fun d => by simp) (fun d hd => by
              simp only [decide_eq_true_eq, decide_eq_false_iff_not] at hd ⊢
              exact fun h => htype (h.symm.trans hd))
            (decide_eq_true (rfl : (Characteristic.mk segment [] []).type = segment))
          simp only [addParmAt, parmsAt, Characteristic.find, hfind]
        rw [hother]
        simp [htype]

theorem Distinct.addParmAt (h : c.Distinct) (name value : String) (path : List String) :
    (Characteristic.addParmAt name value path c).Distinct := by
  induction path generalizing c with
  | nil =>
    intro types d hd
    cases hd with
    | here => exact h [] c (.here c)
    | child hchild hd => exact h _ _ (.child hchild hd)
  | cons segment path ih =>
    intro types d hd
    cases hd with
    | here =>
      refine nodup_map_editFirst (h [] c (.here c)) (fun x _ => addParmAt_type ..) fun x _ hx => ?_
      rw [addParmAt_type] at hx
      exact decide_eq_true hx
    | child hchild hd =>
      rcases mem_editFirst hchild with hchild | ⟨x, hx, -, rfl⟩ | rfl
      · exact h _ _ (.child hchild hd)
      · exact ih (h.child hx) _ _ hd
      · exact ih (distinct_leaf segment []) _ _ hd

end Characteristic

/-- What a characteristic of the top level is told apart by: its type, and an application's AppID. -/
def Characteristic.heading (c : Characteristic) : String :=
  if c.type = "APPLICATION" then "APPLICATION:" ++ ((c.findParm "AppID").map Parm.value).getD ""
  else c.type

namespace ProvisioningDoc

def Holds (doc : ProvisioningDoc) (address : List String) (d : Characteristic) : Prop :=
  ∃ c ∈ doc.characteristics, ∃ types, address = c.heading :: types ∧ c.Holds types d

structure Distinct (doc : ProvisioningDoc) : Prop where
  top : (doc.characteristics.map Characteristic.heading).Nodup
  below : ∀ c ∈ doc.characteristics, c.Distinct

def parmsAt (doc : ProvisioningDoc) : List String → Option (List Parm)
  | [] => none
  | head :: types => (doc.characteristics.find? (·.heading = head)).bind (·.parmsAt types)

variable {doc : ProvisioningDoc} {c d : Characteristic} {address : List String}

theorem Holds.parmsAt (h : doc.Holds address d) (hdoc : doc.Distinct) :
    doc.parmsAt address = some d.parms := by
  obtain ⟨c, hc, types, rfl, hd⟩ := h
  rw [ProvisioningDoc.parmsAt, find?_of_nodup_map hdoc.top hc, Option.bind_some,
    Characteristic.parmsAt, hd.find (hdoc.below c hc), Option.map_some]

theorem holds_of_parmsAt {parms : List Parm} (h : doc.parmsAt address = some parms) :
    ∃ d, doc.Holds address d ∧ d.parms = parms := by
  cases address with
  | nil => cases h
  | cons head types =>
    obtain ⟨c, hc, h⟩ := Option.bind_eq_some_iff.mp h
    obtain ⟨d, hd, hparms⟩ := Option.map_eq_some_iff.mp h
    have hhead : c.heading = head := by simpa using find?_some hc
    exact ⟨d, ⟨c, mem_of_find?_eq_some hc, types, by rw [hhead], Characteristic.holds_of_find hd⟩,
      hparms⟩

end ProvisioningDoc
end Acs
