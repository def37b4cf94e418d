import Mathlib
import Acs.Data.Markup
import Acs.Data.Utf8

/-! Building a document chunk by chunk: what every builder keeps of the elements it has met, and what
more text after the last tag does to it. -/

namespace Xml

namespace Element

def addTail (t : String) : Element → Element
  | node tag attributes text children tail => node tag attributes text children (tail ++ t)

def mass (es : List Element) : Nat :=
  ((iterAll es).map fun x => (utf8 x.text).length + (utf8 x.tail).length).sum

theorem iter_eq (e : Element) : e.iter = e :: iterAll e.children := by
  cases e
  rfl

theorem depth_eq (e : Element) : e.depth = depthAll e.children + 1 := by
  cases e
  rfl

theorem iterAll_append (es fs : List Element) : iterAll (es ++ fs) = iterAll es ++ iterAll fs := by
  induction es with
  | nil => rfl
  | cons e es ih => rw [List.cons_append, iterAll, ih, iterAll, List.append_assoc]

theorem iterAll_singleton (e : Element) : iterAll [e] = e.iter := List.append_nil _

theorem depthAll_append (es fs : List Element) :
    depthAll (es ++ fs) = max (depthAll es) (depthAll fs) := by
  induction es with
  | nil => exact (Nat.zero_max _).symm
  | cons e es ih => rw [List.cons_append, depthAll, ih, depthAll, Nat.max_assoc]

theorem depthAll_singleton (e : Element) : depthAll [e] = e.depth := Nat.max_zero _

theorem mass_append (es fs : List Element) : mass (es ++ fs) = mass es + mass fs := by
  rw [mass, iterAll_append, List.map_append, List.sum_append]
  rfl

theorem mass_node (tag : Option QName) (attributes : List (String × String)) (text : String)
    (children : List Element) (tail : String) :
    mass [node tag attributes text children tail] =
      (utf8 text).length + (utf8 tail).length + mass children := by
  rw [mass, iterAll_singleton, iter, List.map_cons, List.sum_cons]
  rfl

theorem children_addTail (t : String) (e : Element) : (e.addTail t).children = e.children := by
  cases e
  rfl

theorem iter_addTail (t : String) (e : Element) :
    (e.addTail t).iter = e.addTail t :: iterAll e.children := by
  rw [iter_eq, children_addTail]

theorem mass_addTail (t : String) (e : Element) :
    mass [e.addTail t] = mass [e] + (utf8 t).length := by
  cases e
  rw [addTail, mass_node, mass_node, utf8_append, List.length_append]
  omega

end Element

open Element

/-- More text where the element stands: after its last child, or before the first. -/
def Open.addText (t : String) (o : Open) : Open :=
  if o.children = [] then { o with text := o.text ++ t }
  else { o with children := o.children.modifyLast (addTail t) }

def Builder.addText (t : String) (b : Builder) : Builder :=
  match b.stack with
  | [] => b
  | top :: below => { b with stack := top.addText t :: below }

theorem Open.addText_concat (t : String) (o : Open) (es : List Element) (e : Element) :
    { o with children := es ++ [e] }.addText t = { o with children := es ++ [e.addTail t] } := by
  rw [Open.addText, if_neg (by simp)]
  rw [List.modifyLast_concat]

theorem Open.addText_nil (t : String) (o : Open) (h : o.children = []) :
    o.addText t = { o with text := o.text ++ t } := if_pos h

namespace Builder
variable {b b' : Builder} {e : Element} {c : Chunk}

theorem close_addTail (h : b.close e = some b') (hopen : b'.stack ≠ []) (t : String) :
    b.close (e.addTail t) = some (b'.addText t) := by
  rw [close] at h ⊢
  cases hstack : b.stack with
  | nil =>
    rw [hstack] at h
    dsimp only at h
    split_ifs at h
    cases h
    exact absurd rfl hopen
  | cons top below =>
    rw [hstack] at h
    cases h
    exact congrArg (fun o => some { b with stack := o :: below })
      (Open.addText_concat t top top.children e).symm

theorem step_addText (h : b.step c = some b') (hopen : b'.stack ≠ []) (t : String) :
    b.step ⟨c.tag, c.text ++ t⟩ = some (b'.addText t) := by
  rcases c with ⟨⟨name, namespaces, closed⟩ | ⟨name⟩, text⟩
  · simp only [step] at h ⊢
    split_ifs at h ⊢ <;>
      obtain ⟨tag, htag, h⟩ := Option.bind_eq_some_iff.mp h <;>
      rw [htag, Option.bind_some]
    · exact close_addTail h hopen t
    · cases h
      rfl
  · simp only [step] at h ⊢
    split_ifs at h ⊢
    cases hstack : b.stack with
    | nil =>
      rw [hstack] at h
      cases h
    | cons top below =>
      rw [hstack] at h
      dsimp only at h ⊢
      split_ifs at h ⊢
      exact close_addTail h hopen t

end Builder

/-! ### How much there is -/

def Open.size (o : Open) : Nat := (iterAll o.children).length + 1

def Open.mass (o : Open) : Nat := (utf8 o.text).length + Element.mass o.children

def Tag.starts : Tag → Nat
  | .start .. => 1
  | .stop _ => 0

def Tag.namespaces : Tag → List (String × String)
  | .start _ namespaces _ => namespaces
  | .stop _ => []

theorem Open.children_cases (o : Open) :
    o.children = [] ∨ ∃ es e, o = { o with children := es ++ [e] } := by
  rcases List.eq_nil_or_concat o.children with hnil | ⟨es, e, hconcat⟩
  · exact Or.inl hnil
  · refine Or.inr ⟨es, e, ?_⟩
    rw [← List.concat_eq_append, ← hconcat]

theorem Open.size_addText (t : String) (o : Open) : (o.addText t).size = o.size := by
  rcases o.children_cases with hnil | ⟨es, e, heq⟩
  · rw [Open.addText_nil t o hnil]
    rfl
  · rw [heq, Open.addText_concat, Open.size, Open.size]
    simp only [iterAll_append, iterAll_singleton, iter_addTail, iter_eq e, List.length_append,
      List.length_cons]

theorem Open.mass_addText (t : String) (o : Open) : (o.addText t).mass = o.mass + (utf8 t).length := by
  rcases o.children_cases with hnil | ⟨es, e, heq⟩
  · rw [Open.addText_nil t o hnil, Open.mass, Open.mass, utf8_append, List.length_append]
    dsimp only
    omega
  · rw [heq, Open.addText_concat, Open.mass, Open.mass]
    dsimp only
    rw [mass_append, mass_append, mass_addTail]
    omega

theorem Open.name_addText (t : String) (o : Open) : (o.addText t).name = o.name := by
  unfold Open.addText
  split_ifs <;> rfl

namespace Builder
variable {b b' : Builder} {e : Element} {c : Chunk}

def size (b : Builder) : Nat := (b.stack.map Open.size).sum + (iterAll b.root.toList).length

def mass (b : Builder) : Nat := (b.stack.map Open.mass).sum + Element.mass b.root.toList

def names (b : Builder) : List String := b.stack.map Open.name

theorem addText_of_stack {top : Open} {below : List Open} (hstack : b.stack = top :: below)
    (t : String) : b.addText t = { b with stack := top.addText t :: below } := by
  rw [addText, hstack]

theorem addText_spec (hopen : b.stack ≠ []) (t : String) :
    (b.addText t).size = b.size ∧ (b.addText t).mass = b.mass + (utf8 t).length ∧
      (b.addText t).names = b.names ∧ (b.addText t).root = b.root := by
  obtain ⟨top, below, hstack⟩ := List.exists_cons_of_ne_nil hopen
  rw [addText_of_stack hstack]
  refine ⟨?_, ?_, ?_, rfl⟩
  · rw [size, size, hstack, List.map_cons, List.map_cons, Open.size_addText]
  · rw [mass, mass, hstack, List.map_cons, List.map_cons, Open.mass_addText, List.sum_cons,
      List.sum_cons]
    dsimp only
    omega
  · rw [names, names, hstack, List.map_cons, List.map_cons, Open.name_addText]

theorem close_spec (hroot : b.root = none) (h : b.close e = some b') :
    b'.size = b.size + e.iter.length ∧ b'.mass = b.mass + Element.mass [e] ∧ b'.names = b.names ∧
      (b'.root = none ↔ b.stack ≠ []) := by
  rw [close] at h
  cases hstack : b.stack with
  | nil =>
    rw [hstack] at h
    dsimp only at h
    split_ifs at h
    cases h
    simp [size, mass, names, hstack, hroot, iterAll_singleton, iterAll, Element.mass]
  | cons top below =>
    rw [hstack] at h
    cases h
    refine ⟨?_, ?_, ?_, by simp [hroot]⟩
    · simp only [size, hstack, List.map_cons, List.sum_cons, Open.size, iterAll_append,
        iterAll_singleton, List.length_append]
      omega
    · simp only [mass, hstack, List.map_cons, List.sum_cons, Open.mass, mass_append]
      omega
    · rw [names, names, hstack]
      rfl

theorem step_spec (h : b.step c = some b') :
    b.root = none ∧ b'.size = b.size + c.tag.starts ∧ b'.mass = b.mass + (utf8 c.text).length := by
  have hroot : b.root = none := by
    rw [step] at h
    split_ifs at h with hsome
    exact Option.not_isSome_iff_eq_none.mp hsome
  refine ⟨hroot, ?_⟩
  rcases c with ⟨⟨name, namespaces, closed⟩ | ⟨name⟩, text⟩
  · simp only [step, hroot, Option.isSome_none, Bool.false_eq_true, if_false] at h
    obtain ⟨tag, -, h⟩ := Option.bind_eq_some_iff.mp h
    split_ifs at h
    · obtain ⟨hsize, hmass, -⟩ := close_spec hroot h
      rw [hsize, hmass, mass_node]
      exact ⟨rfl, by simp [utf8, Element.mass, iterAll]⟩
    · cases h
      constructor
      · simp only [size, List.map_cons, List.sum_cons, Open.size, iterAll, List.length_nil,
          Tag.starts, hroot]
        omega
      · simp only [mass, List.map_cons, List.sum_cons, Open.mass, Element.mass, iterAll,
          List.map_nil, List.sum_nil, hroot]
        omega
  · simp only [step, hroot, Option.isSome_none, Bool.false_eq_true, if_false] at h
    cases hstack : b.stack with
    | nil =>
      rw [hstack] at h
      cases h
    | cons top below =>
      rw [hstack] at h
      dsimp only at h
      split_ifs at h
      obtain ⟨hsize, hmass, -⟩ := close_spec (b := { stack := below }) rfl h
      rw [hsize, hmass, mass_node]
      constructor
      · simp only [size, hstack, hroot, List.map_cons, List.sum_cons, Open.size, iter,
          List.length_cons, Tag.starts]
        omega
      · simp only [mass, hstack, hroot, List.map_cons, List.sum_cons, Open.mass]
        omega

end Builder

/-! ### What there is -/

section Sound
variable (P : QName → Prop) (scope : List (String × String)) (bound : Nat)

structure Element.Sound (x : Element) : Prop where
  tag : ∃ q, x.tag = some q ∧ P q
  attributes : x.attributes = []
  text : ∀ c ∈ x.text.toList, isXmlChar c
  tail : ∀ c ∈ x.tail.toList, isXmlChar c

structure Open.Sound (level : Nat) (o : Open) : Prop where
  tag : P o.tag
  scope : o.scope = scope
  text : ∀ c ∈ o.text.toList, isXmlChar c
  children : ∀ x ∈ iterAll o.children, Element.Sound P x
  depth : level + 1 + depthAll o.children ≤ bound

def StackSound : List Open → Prop
  | [] => True
  | o :: below => o.Sound P scope bound below.length ∧ StackSound below

structure Builder.Sound (b : Builder) : Prop where
  stack : StackSound P scope bound b.stack
  root : ∀ r ∈ b.root, r.tail = "" ∧ r.depth ≤ bound ∧ ∀ x ∈ r.iter, Element.Sound P x

variable {P scope bound} {b b' : Builder} {e : Element} {c : Chunk} {o : Open} {level : Nat}

theorem Element.Sound.addTail {x : Element} (h : x.Sound P) {t : String}
    (ht : ∀ c ∈ t.toList, isXmlChar c) : (x.addTail t).Sound P := by
  cases x with
  | node tag attributes text children tail =>
    refine ⟨h.tag, h.attributes, h.text, ?_⟩
    change ∀ c ∈ (tail ++ t).toList, isXmlChar c
    rw [String.toList_append, List.forall_mem_append]
    exact ⟨h.tail, ht⟩

theorem Open.Sound.addText (h : o.Sound P scope bound level) {t : String}
    (ht : ∀ c ∈ t.toList, isXmlChar c) : (o.addText t).Sound P scope bound level := by
  rcases o.children_cases with hnil | ⟨es, e, heq⟩
  · rw [Open.addText_nil t o hnil]
    refine ⟨h.tag, h.scope, ?_, h.children, h.depth⟩
    change ∀ c ∈ (o.text ++ t).toList, isXmlChar c
    rw [String.toList_append, List.forall_mem_append]
    exact ⟨h.text, ht⟩
  · rw [heq] at h ⊢
    rw [Open.addText_concat]
    have hchildren := h.children
    have hdepth := h.depth
    simp only [iterAll_append, iterAll_singleton, iter_eq e, List.forall_mem_append,
      List.forall_mem_cons] at hchildren
    simp only [depthAll_append, depthAll_singleton, depth_eq e] at hdepth
    refine ⟨h.tag, h.scope, h.text, ?_, ?_⟩
    · simp only [iterAll_append, iterAll_singleton, iter_addTail, List.forall_mem_append,
        List.forall_mem_cons]
      exact ⟨hchildren.1, hchildren.2.1.addTail ht, hchildren.2.2⟩
    · simp only [depthAll_append, depthAll_singleton, depth_eq, children_addTail]
      exact hdepth

namespace Builder

theorem Sound.addText (h : b.Sound P scope bound) {t : String} (ht : ∀ c ∈ t.toList, isXmlChar c) :
    (b.addText t).Sound P scope bound := by
  cases hstack : b.stack with
  | nil =>
    rw [Builder.addText, hstack]
    exact h
  | cons top below =>
    rw [addText_of_stack hstack]
    have hsound := h.stack
    rw [hstack] at hsound
    exact ⟨⟨hsound.1.addText ht, hsound.2⟩, h.root⟩

theorem Sound.close (hb : b.Sound P scope bound) (h : b.close e = some b')
    (he : ∀ x ∈ e.iter, Element.Sound P x) (hdepth : b.stack.length + e.depth ≤ bound) :
    b'.Sound P scope bound := by
  rw [Builder.close] at h
  cases hstack : b.stack with
  | nil =>
    rw [hstack] at h hdepth
    dsimp only at h
    split_ifs at h with htail
    cases h
    refine ⟨trivial, fun r hr => ?_⟩
    cases hr
    exact ⟨htail, by simpa using hdepth, he⟩
  | cons top below =>
    rw [hstack] at h hdepth
    cases h
    have hsound := hb.stack
    rw [hstack] at hsound
    obtain ⟨htop, hbelow⟩ := hsound
    refine ⟨⟨⟨htop.tag, htop.scope, htop.text, ?_, ?_⟩, hbelow⟩, hb.root⟩
    · simp only [iterAll_append, iterAll_singleton, List.forall_mem_append]
      exact ⟨htop.children, he⟩
    · have hbound := htop.depth
      simp only [depthAll_append, depthAll_singleton, List.length_cons] at hdepth ⊢
      omega

def Admits (P : QName → Prop) (scope : List (String × String)) (bound : Nat) (b : Builder) : Tag → Prop
  | .start name namespaces _ =>
    namespaces ++ b.scope = scope ∧ (∀ q, resolve scope name = some q → P q) ∧
      b.stack.length < bound
  | .stop _ => True

theorem Sound.step (hb : b.Sound P scope bound) (h : b.step c = some b')
    (htag : b.Admits P scope bound c.tag) (htext : ∀ ch ∈ c.text.toList, isXmlChar ch) :
    b'.Sound P scope bound := by
  obtain ⟨hroot, -⟩ := step_spec h
  rcases c with ⟨⟨name, namespaces, closed⟩ | ⟨name⟩, text⟩
  · obtain ⟨hscope, hresolve, hlevel⟩ := htag
    simp only [Builder.step, hroot, Option.isSome_none, Bool.false_eq_true, if_false, hscope] at h
    obtain ⟨tag, hfound, h⟩ := Option.bind_eq_some_iff.mp h
    have hP : P tag := hresolve tag hfound
    split_ifs at h
    · refine hb.close h ?_ (by simpa [depth, depthAll] using Nat.succ_le_of_lt hlevel)
      simp only [iter, iterAll, List.forall_mem_singleton]
      exact ⟨⟨tag, rfl, hP⟩, rfl, by simp [Element.text], htext⟩
    · cases h
      refine ⟨⟨⟨hP, rfl, htext, fun _ h => (by cases h), ?_⟩, hb.stack⟩, fun r hr => ?_⟩
      · simpa [depthAll] using Nat.succ_le_of_lt hlevel
      · cases hr
  · simp only [Builder.step, hroot, Option.isSome_none, Bool.false_eq_true, if_false] at h
    cases hstack : b.stack with
    | nil =>
      rw [hstack] at h
      cases h
    | cons top below =>
      have hsound := hb.stack
      rw [hstack] at h hsound
      dsimp only at h
      split_ifs at h
      obtain ⟨htop, hbelow⟩ := hsound
      have hrest : Sound P scope bound { stack := below, root := none } :=
        ⟨hbelow, fun _ h => (by cases h)⟩
      refine hrest.close h ?_ ?_
      · rw [iter, List.forall_mem_cons]
        exact ⟨⟨⟨_, rfl, htop.tag⟩, rfl, htop.text, htext⟩, htop.children⟩
      · have hbound := htop.depth
        rw [depth]
        dsimp only
        omega

end Builder
end Sound

namespace Builder
variable {b b' : Builder} {e : Element} {c : Chunk}

def rootTag (b : Builder) : Option QName :=
  match b.root with
  | some r => r.tag
  | none => b.stack.getLast?.map Open.tag

theorem rootTag_open (hroot : b.root = none) : b.rootTag = b.stack.getLast?.map Open.tag := by
  rw [rootTag, hroot]

theorem rootTag_with (hroot : b.root = none) (stack : List Open) :
    { b with stack }.rootTag = stack.getLast?.map Open.tag := rootTag_open hroot

theorem close_rootTag (hroot : b.root = none) (h : b.close e = some b') :
    b'.rootTag = if b.stack = [] then e.tag else b.rootTag := by
  rw [close] at h
  cases hstack : b.stack with
  | nil =>
    rw [hstack] at h
    dsimp only at h
    split_ifs at h
    cases h
    rfl
  | cons top below =>
    rw [hstack] at h
    cases h
    rw [if_neg (List.cons_ne_nil _ _), rootTag_open hroot, hstack]
    refine (rootTag_with hroot _).trans ?_
    cases below <;> rfl

theorem step_rootTag (h : b.step c = some b') :
    (b.stack = [] → ∃ name namespaces closed, c.tag = .start name namespaces closed ∧
        b'.rootTag = resolve (namespaces ++ b.scope) name) ∧
      (b.stack ≠ [] → b'.rootTag = b.rootTag) := by
  obtain ⟨hroot, -⟩ := step_spec h
  rcases c with ⟨⟨name, namespaces, closed⟩ | ⟨name⟩, text⟩
  · simp only [step, hroot, Option.isSome_none, Bool.false_eq_true, if_false] at h
    obtain ⟨tag, hfound, h⟩ := Option.bind_eq_some_iff.mp h
    have hopened : (b.stack = [] → b'.rootTag = some tag) ∧
        (b.stack ≠ [] → b'.rootTag = b.rootTag) := by
      split_ifs at h
      · rw [close_rootTag hroot h]
        exact ⟨fun hnil => if_pos hnil, fun hne => if_neg hne⟩
      · cases h
        rw [rootTag_open rfl, rootTag_open hroot]
        refine ⟨fun hnil => by rw [hnil]; rfl, fun hne => ?_⟩
        rw [List.getLast?_cons_of_ne_nil hne]
    exact ⟨fun hnil => ⟨name, namespaces, closed, rfl, by rw [hopened.1 hnil, hfound]⟩, hopened.2⟩
  · simp only [step, hroot, Option.isSome_none, Bool.false_eq_true, if_false] at h
    cases hstack : b.stack with
    | nil =>
      rw [hstack] at h
      cases h
    | cons top below =>
      rw [hstack] at h
      dsimp only at h
      split_ifs at h
      refine ⟨fun hnil => absurd hnil (List.cons_ne_nil _ _), fun _ => ?_⟩
      rw [close_rootTag (b := { stack := below }) rfl h, rootTag_open hroot, hstack]
      cases below <;> rfl

theorem addText_rootTag (hopen : b.stack ≠ []) (hroot : b.root = none) (t : String) :
    (b.addText t).rootTag = b.rootTag := by
  obtain ⟨top, below, hstack⟩ := List.exists_cons_of_ne_nil hopen
  have htag : (top.addText t).tag = top.tag := by
    unfold Open.addText
    split_ifs <;> rfl
  rw [addText_of_stack hstack, rootTag_open hroot, hstack]
  refine (rootTag_with hroot _).trans ?_
  cases below with
  | nil => exact congrArg some htag
  | cons o below => rfl

def run (chunks : List Chunk) : Option Builder := chunks.foldlM step {}

theorem run_concat {chunks : List Chunk} :
    run (chunks ++ [c]) = (run chunks).bind (·.step c) := by
  rw [run, List.foldlM_append]
  refine congrArg _ (funext fun b => ?_)
  rw [List.foldlM_cons]
  exact bind_pure _

theorem run_addText {chunks : List Chunk} (h : run (chunks ++ [c]) = some b) (hopen : b.stack ≠ [])
    (t : String) : run (chunks ++ [⟨c.tag, c.text ++ t⟩]) = some (b.addText t) := by
  rw [run_concat] at h ⊢
  obtain ⟨b₀, hrun, hstep⟩ := Option.bind_eq_some_iff.mp h
  rw [hrun]
  exact step_addText hstep hopen t

theorem close_exists (htail : e.tail = "") : ∃ b', b.close e = some b' := by
  rw [close]
  cases b.stack with
  | nil => exact ⟨_, if_pos htail⟩
  | cons top below => exact ⟨_, rfl⟩

theorem start_exists {name : String} {namespaces : List (String × String)} (closed : Bool)
    {q : QName} (hroot : b.root = none) (hresolve : resolve (namespaces ++ b.scope) name = some q) :
    ∃ b', b.step ⟨.start name namespaces closed, ""⟩ = some b' ∧
      b'.names = (if closed then b.names else name :: b.names) ∧
      (b'.root = none ↔ closed = false ∨ b.stack ≠ []) := by
  simp only [step, hroot, Option.isSome_none, Bool.false_eq_true, if_false, hresolve,
    Option.bind_some]
  cases closed with
  | true =>
    obtain ⟨b', hclose⟩ := close_exists (b := b) (e := .node (some q) [] "" [] "") rfl
    obtain ⟨-, -, hnames, hopen⟩ := close_spec hroot hclose
    exact ⟨b', hclose, hnames, by simpa using hopen⟩
  | false => exact ⟨_, rfl, rfl, by simp⟩

theorem stop_exists {top : Open} {below : List Open} (hroot : b.root = none)
    (hstack : b.stack = top :: below) :
    ∃ b', b.step ⟨.stop top.name, ""⟩ = some b' ∧ b'.names = below.map Open.name ∧
      (b'.root = none ↔ below ≠ []) := by
  obtain ⟨b', hclose⟩ := close_exists (b := { stack := below })
    (e := .node (some top.tag) [] top.text top.children "") rfl
  obtain ⟨-, -, hnames, hopen⟩ := close_spec (b := { stack := below }) rfl hclose
  refine ⟨b', ?_, hnames, hopen⟩
  simp only [step, hroot, Option.isSome_none, Bool.false_eq_true, if_false, hstack, if_true]
  exact hclose

end Builder

theorem utf8_escape_length (s : String) :
    (utf8 s).length ≤ (utf8 (String.ofList (escape s))).length := by
  have hchar : ∀ c, (String.utf8EncodeChar c).length ≤
      ((escapeChar c).flatMap String.utf8EncodeChar).length := by
    intro c
    unfold escapeChar
    split
    case h_5 => simp
    all_goals decide
  unfold utf8 escape
  rw [String.toList_ofList, List.flatMap_assoc]
  induction s.toList with
  | nil => exact Nat.le_refl _
  | cons c cs ih =>
    rw [List.flatMap_cons, List.flatMap_cons, List.length_append, List.length_append]
    exact Nat.add_le_add (hchar c) ih

theorem render_concat (chunks : List Chunk) (c : Chunk) :
    render (chunks ++ [c]) = render chunks ++ ('<' :: c.tag.body ++ ['>'] ++ escape c.text) := by
  simp [render, Chunk.body]

/-- The texts of a document take their place in it. -/
theorem Builder.mass_le_render {chunks : List Chunk} {b : Builder} (h : Builder.run chunks = some b) :
    b.mass ≤ (utf8 (String.ofList (render chunks))).length := by
  induction chunks using List.reverseRecOn generalizing b with
  | nil =>
    cases h
    exact Nat.zero_le _
  | append_singleton chunks c ih =>
    rw [run_concat] at h
    obtain ⟨b₀, hrun, hstep⟩ := Option.bind_eq_some_iff.mp h
    obtain ⟨-, -, hmass⟩ := step_spec hstep
    have hbefore := ih hrun
    have htext := utf8_escape_length c.text
    rw [render_concat, ← List.append_assoc, String.ofList_append, utf8_append, String.ofList_append,
      utf8_append, List.length_append, List.length_append]
    omega

end Xml
