import Mathlib
import Acs.Data.Xml

/-! Comments and processing instructions put into a tree, and what a reader of names still finds. -/

namespace Xml
open List

mutual

/-- The second node is the first with comments put inside. The tail belongs to the parent. -/
inductive Commented : Element → Element → Prop
  | node {q : QName} {attributes text text' children children' tail tail'}
      (h : Scattered text children text' children') :
      Commented (.node (some q) attributes text children tail)
        (.node (some q) attributes text' children' tail')
  | comment {attributes text tail tail'} :
      Commented (.node none attributes text [] tail) (.node none attributes text [] tail')

/-- A text and the children that follow it, each with its tail, before and after: a comment cuts
the text that it is put into. -/
inductive Scattered : String → List Element → String → List Element → Prop
  | nil {text} : Scattered text [] text []
  | comment {text lead rest rest' attributes content children children'}
      (htext : text = lead ++ rest) (h : Scattered rest children rest' children') :
      Scattered text children lead (.node none attributes content [] rest' :: children')
  | child {text e e' children children'} (he : Commented e e')
      (h : Scattered e.tail children e'.tail children') :
      Scattered text (e :: children) text (e' :: children')

end

variable {e e' : Element} {s s' : String} {es es' : List Element}

theorem Commented.tag (h : Commented e e') : e'.tag = e.tag := by
  cases h <;> rfl

theorem Commented.localName (h : Commented e e') : e'.localName = e.localName := by
  rw [Element.localName, Element.localName, h.tag]

theorem Scattered.text (h : Scattered s es s' es') : ∃ rest, s = s' ++ rest := by
  cases h with
  | nil => exact ⟨"", (String.append_empty ..).symm⟩
  | comment htext => exact ⟨_, htext⟩
  | child => exact ⟨"", (String.append_empty ..).symm⟩

theorem Commented.scattered (h : Commented e e') :
    Scattered e.text e.children e'.text e'.children := by
  cases h with
  | node h => exact h
  | comment => exact .nil

theorem Commented.text (h : Commented e e') : ∃ rest, e.text = e'.text ++ rest := h.scattered.text

theorem Scattered.length (h : Scattered s es s' es') :
    es.length ≤ es'.length ∧ (es'.length = es.length → Forall₂ Commented es es') := by
  induction es' generalizing s es s' with
  | nil =>
    cases h
    exact ⟨Nat.le_refl _, fun _ => .nil⟩
  | cons c es' ih =>
    cases h with
    | comment _ h =>
      obtain ⟨hle, -⟩ := ih h
      exact ⟨Nat.le_succ_of_le hle, fun heq => absurd (heq ▸ hle) (Nat.not_succ_le_self _)⟩
    | child he h =>
      obtain ⟨hle, hall⟩ := ih h
      exact ⟨Nat.succ_le_succ hle, fun heq => .cons he (hall (Nat.succ_inj.mp heq))⟩

theorem rel_head? {α β : Type} {R : α → β → Prop} {xs : List α} {ys : List β}
    (h : Forall₂ R xs ys) : Option.Rel R xs.head? ys.head? := by
  cases h with
  | nil => exact .none
  | cons hxy _ => exact .some hxy

section Named
variable {name : String} (hname : name ≠ "")
include hname

theorem localName_comment_ne {attributes : List (String × String)} {content tail : String} :
    ¬ (Element.node none attributes content [] tail).localName = name := fun h => hname h.symm

theorem Scattered.filter (h : Scattered s es s' es') :
    Forall₂ Commented (es.filter (·.localName = name)) (es'.filter (·.localName = name)) := by
  induction es' generalizing s es s' with
  | nil =>
    cases h
    exact .nil
  | cons c es' ih =>
    cases h with
    | comment _ h =>
      rw [List.filter_cons_of_neg (by simpa using localName_comment_ne hname)]
      exact ih h
    | child he h =>
      rw [List.filter_cons, List.filter_cons, he.localName]
      split
      · exact .cons he (ih h)
      · exact ih h

mutual

theorem Commented.iter : {e e' : Element} → Commented e e' →
    Forall₂ Commented (e.iter.filter (·.localName = name)) (e'.iter.filter (·.localName = name))
  | .node (some q) .., _, .node h => by
    have hbelow := Scattered.iter h
    unfold Element.iter
    rw [List.filter_cons, List.filter_cons]
    change Forall₂ Commented (if decide (q.name = name) = true then _ else _)
      (if decide (q.name = name) = true then _ else _)
    split
    · exact .cons (.node h) hbelow
    · exact hbelow
  | _, _, .comment => by
    unfold Element.iter
    rw [List.filter_cons_of_neg (by simpa using localName_comment_ne hname),
      List.filter_cons_of_neg (by simpa using localName_comment_ne hname)]
    exact .nil

theorem Scattered.iter : {text text' : String} → {es es' : List Element} →
    Scattered text es text' es' → Forall₂ Commented
      ((Element.iterAll es).filter (·.localName = name))
      ((Element.iterAll es').filter (·.localName = name))
  | _, _, _, _, .nil => .nil
  | _, _, _, _, .comment _ h => by
    rw [Element.iterAll, Element.iter, Element.iterAll, List.cons_append, List.nil_append,
      List.filter_cons_of_neg (by simpa using localName_comment_ne hname)]
    exact Scattered.iter h
  | _, _, _, _, .child he h => by
    unfold Element.iterAll
    rw [List.filter_append, List.filter_append]
    exact rel_append (Commented.iter he) (Scattered.iter h)

end

theorem Commented.children (h : Commented e e') :
    Forall₂ Commented (e.children.filter (·.localName = name))
      (e'.children.filter (·.localName = name)) := h.scattered.filter hname

theorem Commented.find (h : Commented e e') :
    Option.Rel Commented (e.find name) (e'.find name) := by
  have hchildren := Commented.children hname h
  unfold Element.find
  rw [← List.head?_filter, ← List.head?_filter]
  exact rel_head? hchildren

end Named
end Xml
