import Mathlib

/-! XML trees as the parsers hold them: the text before the first child belongs to the element, the
text after it to the element too, as its tail. -/

namespace Xml

structure QName where
  ns : String := ""
  name : String
deriving DecidableEq

/-- A node; a comment or a processing instruction has no tag. Absent text is empty. -/
inductive Element where
  | node (tag : Option QName) (attributes : List (String × String)) (text : String)
      (children : List Element) (tail : String)

namespace Element

def tag : Element → Option QName
  | node tag _ _ _ _ => tag

def attributes : Element → List (String × String)
  | node _ attributes _ _ _ => attributes

def text : Element → String
  | node _ _ text _ _ => text

def children : Element → List Element
  | node _ _ _ children _ => children

def tail : Element → String
  | node _ _ _ _ tail => tail

def localName (e : Element) : String := (e.tag.map QName.name).getD ""

mutual

def iter : Element → List Element
  | node tag attributes text children tail =>
    node tag attributes text children tail :: iterAll children

def iterAll : List Element → List Element
  | [] => []
  | e :: es => iter e ++ iterAll es

end

mutual

def depth : Element → Nat
  | node _ _ _ children _ => depthAll children + 1

def depthAll : List Element → Nat
  | [] => 0
  | e :: es => max e.depth (depthAll es)

end

end Element

structure Start where
  depth : Nat
  attributes : List (String × String)

namespace Element

mutual

def starts (depth : Nat) : Element → List Start
  | node _ attributes _ children _ => ⟨depth, attributes⟩ :: startsAll (depth + 1) children

def startsAll (depth : Nat) : List Element → List Start
  | [] => []
  | e :: es => starts depth e ++ startsAll depth es

end

mutual

theorem starts_attributes (depth : Nat) :
    (e : Element) → (e.starts depth).map Start.attributes = e.iter.map attributes
  | node _ attributes _ children _ => by
    rw [starts, iter, List.map_cons, List.map_cons, startsAll_attributes (depth + 1) children]
    rfl

theorem startsAll_attributes (depth : Nat) :
    (es : List Element) → (startsAll depth es).map Start.attributes = (iterAll es).map attributes
  | [] => rfl
  | e :: es => by
    rw [startsAll, iterAll, List.map_append, List.map_append, starts_attributes depth e,
      startsAll_attributes depth es]

end

mutual

theorem forall_starts_depth (limit depth : Nat) :
    (e : Element) → ((∀ s ∈ e.starts depth, s.depth ≤ limit) ↔ depth + e.depth ≤ limit + 1)
  | node _ _ _ children _ => by
    have hchildren := forall_startsAll_depth limit (depth + 1) children
    rw [starts, List.forall_mem_cons, hchildren, Element.depth]
    dsimp only
    omega

theorem forall_startsAll_depth (limit depth : Nat) :
    (es : List Element) → ((∀ s ∈ startsAll depth es, s.depth ≤ limit) ↔
      depthAll es = 0 ∨ depth + depthAll es ≤ limit + 1)
  | [] => by simp [startsAll, depthAll]
  | e :: es => by
    have hfirst := forall_starts_depth limit depth e
    have hrest := forall_startsAll_depth limit depth es
    have hpos : 0 < e.depth := by
      cases e
      rw [Element.depth]
      omega
    rw [startsAll, List.forall_mem_append, hfirst, hrest, depthAll]
    omega

end

theorem mem_iterAll {e : Element} {es : List Element} :
    e ∈ iterAll es ↔ ∃ child ∈ es, e ∈ child.iter := by
  induction es with
  | nil => simp [iterAll]
  | cons child es ih => simp [iterAll, ih]

def leaf (name text : String) : Element := node (some { name }) [] text [] ""

def branch (name : String) (children : List Element) : Element :=
  node (some { name }) [] "" children ""

def find (parent : Element) (name : String) : Option Element :=
  parent.children.find? (·.localName = name)

@[simp] theorem localName_leaf (name text : String) : (leaf name text).localName = name := rfl

@[simp] theorem localName_branch (name : String) (children : List Element) :
    (branch name children).localName = name := rfl

theorem mem_iter_leaf {e : Element} {name text : String} :
    e ∈ (leaf name text).iter ↔ e = leaf name text := by
  simp [leaf, iter, iterAll]

theorem mem_iter_branch {e : Element} {name : String} {children : List Element} :
    e ∈ (branch name children).iter ↔
      e = branch name children ∨ ∃ child ∈ children, e ∈ child.iter := by
  simp [branch, iter, mem_iterAll]

@[simp] theorem text_leaf (name text : String) : (leaf name text).text = text := rfl

@[simp] theorem children_branch (name : String) (children : List Element) :
    (branch name children).children = children := rfl

end Element
end Xml
