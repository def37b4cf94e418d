import Mathlib
import Acs.Data.SplitOn
import Acs.Data.Xml

/-! Plain markup: the part of XML that writes elements without attributes. A document is a list of
tags, each with the character data that follows it; `parse` reads it back into a tree, and refuses
everything else that XML knows. -/

namespace Xml

/-- `Char` of XML 1.0. -/
def isXmlChar (c : Char) : Bool :=
  c = '\t' || c = '\n' || c = '\r' || (0x20 ≤ c.toNat && c.toNat ≤ 0xD7FF) ||
    (0xE000 ≤ c.toNat && c.toNat ≤ 0xFFFD) || 0x10000 ≤ c.toNat

inductive Tag where
  /-- A start tag with the namespaces it declares, each under its own name for it. -/
  | start (name : String) (namespaces : List (String × String)) (closed : Bool)
  | stop (name : String)

structure Chunk where
  tag : Tag
  text : String

def escapeChar : Char → List Char
  | '&' => "&amp;".toList
  | '<' => "&lt;".toList
  | '>' => "&gt;".toList
  | '\r' => "&#13;".toList
  | c => [c]

def escape (s : String) : List Char := s.toList.flatMap escapeChar

def declaration : String × String → List Char
  | (name, uri) =>
    "xmlns".toList ++
      ((if name = "" then ['='] else ':' :: name.toList ++ ['=']) ++ '"' :: uri.toList ++ ['"'])

def Tag.body : Tag → List Char
  | .start name namespaces closed =>
    name.toList ++ namespaces.flatMap (' ' :: declaration ·) ++ if closed then ['/'] else []
  | .stop name => '/' :: name.toList

def Chunk.body (c : Chunk) : List Char := c.tag.body ++ '>' :: escape c.text

def render (chunks : List Chunk) : List Char := chunks.flatMap ('<' :: ·.body)

namespace Element

mutual

def chunks (qualify : QName → String) (namespaces : List (String × String)) (tail : String) :
    Element → List Chunk
  | node tag _ text children _ =>
    let name := (tag.map qualify).getD ""
    if text = "" && children.isEmpty then [⟨.start name namespaces true, tail⟩]
    else ⟨.start name namespaces false, text⟩ :: (chunksAll qualify children ++ [⟨.stop name, tail⟩])

def chunksAll (qualify : QName → String) : List Element → List Chunk
  | [] => []
  | e :: es => chunks qualify [] e.tail e ++ chunksAll qualify es

end

end Element

/-! ### Reading -/

def isName : List Char → Bool
  | [] => false
  | c :: cs => c.isAlpha && cs.all Char.isAlphanum

def isUriChar (c : Char) : Bool := c.isAlphanum || c = ':' || c = '.' || c = '-'

def unescape : List Char → Option (List Char)
  | [] => some []
  | '&' :: 'a' :: 'm' :: 'p' :: ';' :: cs => (unescape cs).map ('&' :: ·)
  | '&' :: 'l' :: 't' :: ';' :: cs => (unescape cs).map ('<' :: ·)
  | '&' :: 'g' :: 't' :: ';' :: cs => (unescape cs).map ('>' :: ·)
  | '&' :: '#' :: '1' :: '3' :: ';' :: cs => (unescape cs).map ('\r' :: ·)
  | c :: cs =>
    if c = '&' || c = '\r' || !isXmlChar c then none else (unescape cs).map (c :: ·)

/-- A namespace may go by any name but those that XML keeps for itself. -/
def readDeclared (cs : List Char) : Option (String × String) :=
  match cs.splitOn '"' with
  | [key, uri, []] =>
    let name := key.tail.dropLast
    if uri = [] ∨ ¬ uri.all isUriChar then none
    else if key = ['='] then some ("", String.ofList uri)
    else if key = ':' :: name ++ ['='] ∧ isName name ∧ ¬ "xml".toList <+: name then
      some (String.ofList name, String.ofList uri)
    else none
  | _ => none

def readDeclaration : List Char → Option (String × String)
  | 'x' :: 'm' :: 'l' :: 'n' :: 's' :: cs => readDeclared cs
  | _ => none

def readStart (body : List Char) (closed : Bool) : Option Tag :=
  match body.splitOn ' ' with
  | [] => none
  | name :: declarations =>
    (declarations.mapM readDeclaration).bind fun namespaces =>
      if (namespaces.map Prod.fst).Nodup then some (.start (String.ofList name) namespaces closed)
      else none

def readTag (body : List Char) : Option Tag :=
  if body.head? = some '/' then some (.stop (String.ofList body.tail))
  else if body.getLast? = some '/' then readStart body.dropLast true
  else readStart body false

def readChunk (cs : List Char) : Option Chunk :=
  match cs.splitOn '>' with
  | [body, text] =>
    (readTag body).bind fun tag => (unescape text).map fun text => ⟨tag, String.ofList text⟩
  | _ => none

def readChunks (cs : List Char) : Option (List Chunk) :=
  match cs.splitOn '<' with
  | [] :: bodies => bodies.mapM readChunk
  | _ => none

structure Open where
  name : String
  tag : QName
  scope : List (String × String)
  text : String
  children : List Element

structure Builder where
  stack : List Open := []
  root : Option Element := none

def resolve (scope : List (String × String)) (name : String) : Option QName :=
  match name.toList.splitOn ':' with
  | [cs] => if isName cs then some ⟨(scope.lookup "").getD "", String.ofList cs⟩ else none
  | [p, cs] =>
    if isName p && isName cs then
      (scope.lookup (String.ofList p)).map fun uri => ⟨uri, String.ofList cs⟩
    else none
  | _ => none

namespace Builder

def scope (b : Builder) : List (String × String) := (b.stack.head?.map Open.scope).getD []

/-- The element is complete: it belongs to the innermost open one, or is the root. -/
def close (b : Builder) (e : Element) : Option Builder :=
  match b.stack with
  | [] => if e.tail = "" then some { stack := [], root := some e } else none
  | top :: below => some { b with stack := { top with children := top.children ++ [e] } :: below }

def step (b : Builder) (c : Chunk) : Option Builder :=
  if b.root.isSome then none
  else
    match c.tag with
    | .start name namespaces closed =>
      let scope := namespaces ++ b.scope
      (resolve scope name).bind fun tag =>
        if closed then b.close (.node (some tag) [] "" [] c.text)
        else some { b with stack := ⟨name, tag, scope, c.text, []⟩ :: b.stack }
    | .stop name =>
      match b.stack with
      | [] => none
      | top :: below =>
        if top.name = name then
          { b with stack := below }.close (.node (some top.tag) [] top.text top.children c.text)
        else none

end Builder

def build (chunks : List Chunk) : Option Element := (chunks.foldlM Builder.step {}).bind (·.root)

def parse (cs : List Char) : Option Element := (readChunks cs).bind build

/-! ### Reading what was written -/

-- The characters of a list are tried one by one, not all the characters there are.
instance (priority := 2000) decidableForallMem (cs : List Char) (p : Char → Prop) [DecidablePred p] :
    Decidable (∀ c ∈ cs, p c) := List.decidableBAll p cs

theorem mem_escapeChar {c d : Char} (h : d ∈ escapeChar c) : d ≠ '<' ∧ d ≠ '>' := by
  unfold escapeChar at h
  split at h
  case h_5 hamp hlt hgt _ =>
    obtain rfl := List.mem_singleton.mp h
    exact ⟨hlt, hgt⟩
  all_goals
    revert h
    revert d
    decide +kernel

theorem mem_escape {s : String} {d : Char} (h : d ∈ escape s) : d ≠ '<' ∧ d ≠ '>' := by
  obtain ⟨c, -, hd⟩ := List.mem_flatMap.mp h
  exact mem_escapeChar hd

theorem unescape_escapeChar {c : Char} (hc : isXmlChar c) (cs : List Char) :
    unescape (escapeChar c ++ cs) = (unescape cs).map (c :: ·) := by
  unfold escapeChar
  split
  case h_5 hamp _ _ hcr =>
    have hplain : ¬ (c = '&' || c = '\r' || !isXmlChar c) := by
      simp only [hc, Bool.not_true, Bool.or_false, Bool.or_eq_true, decide_eq_true_eq, not_or]
      exact ⟨hamp, hcr⟩
    rw [List.singleton_append, unescape, if_neg hplain]
    all_goals exact fun _ h => absurd h hamp
  all_goals rfl

theorem unescape_escape {s : String} (hs : ∀ c ∈ s.toList, isXmlChar c) :
    unescape (escape s) = some s.toList := by
  unfold escape
  generalize s.toList = cs at hs
  induction cs with
  | nil => rfl
  | cons c cs ih =>
    have hrest := ih fun d hd => hs d (List.mem_cons_of_mem _ hd)
    rw [List.flatMap_cons, unescape_escapeChar (hs c List.mem_cons_self), hrest]
    rfl

def Named (name : String) : Prop :=
  name ≠ "" ∧ ∀ c ∈ name.toList, c.isAlphanum ∨ c = ':'

def Declares : String × String → Prop
  | (name, uri) =>
    (name = "" ∨ isName name.toList ∧ ¬ "xml".toList <+: name.toList) ∧
      uri.toList ≠ [] ∧ uri.toList.all isUriChar

def Tag.Valid : Tag → Prop
  | .start name namespaces _ =>
    Named name ∧ (∀ d ∈ namespaces, Declares d) ∧ (namespaces.map Prod.fst).Nodup
  | .stop name => Named name

def Chunk.Valid (c : Chunk) : Prop := c.tag.Valid ∧ ∀ d ∈ c.text.toList, isXmlChar d

def Separates (c : Char) : Prop := c = '<' ∨ c = '>' ∨ c = ' ' ∨ c = '"' ∨ c = '/'

theorem not_separates_of_alphanum {c : Char} (h : c.isAlphanum) : ¬ Separates c := by
  rintro (rfl | rfl | rfl | rfl | rfl) <;> exact absurd h (by decide)

theorem not_separates_of_uriChar {c : Char} (h : isUriChar c) : ¬ Separates c := by
  rintro (rfl | rfl | rfl | rfl | rfl) <;> exact absurd h (by decide)

theorem Named.not_separates {name : String} (h : Named name) {c : Char} (hc : c ∈ name.toList) :
    ¬ Separates c := by
  rcases h.2 c hc with halpha | rfl
  · exact not_separates_of_alphanum halpha
  · rintro (h | h | h | h | h) <;> exact absurd h (by decide)

theorem isName_alphanum {cs : List Char} (h : isName cs) {c : Char} (hc : c ∈ cs) :
    c.isAlphanum := by
  cases cs with
  | nil => exact absurd hc List.not_mem_nil
  | cons d cs =>
    obtain ⟨hfirst, hrest⟩ := Bool.and_eq_true_iff.mp h
    rcases List.mem_cons.mp hc with rfl | hc
    · exact Bool.or_eq_true_iff.mpr (Or.inl hfirst)
    · exact List.all_eq_true.mp hrest c hc

theorem readDeclaration_declaration {d : String × String} (h : Declares d) :
    readDeclaration (declaration d) = some d := by
  obtain ⟨name, uri⟩ := d
  obtain ⟨hname, huri, hchars⟩ := h
  have hquote : '"' ∉ uri.toList := fun hmem =>
    not_separates_of_uriChar (List.all_eq_true.mp hchars _ hmem) (by simp [Separates])
  have hsplit : ∀ {key : List Char}, '"' ∉ key →
      (key ++ '"' :: uri.toList ++ ['"']).splitOn '"' = [key, uri.toList, []] := by
    intro key hkey
    have hjoined : key ++ '"' :: uri.toList ++ ['"'] = ['"'].intercalate [key, uri.toList, []] := by
      simp [List.intercalate]
    rw [hjoined]
    apply List.splitOn_intercalate
    · simp [hkey, hquote]
    · simp
  have hform : declaration (name, uri) = 'x' :: 'm' :: 'l' :: 'n' :: 's' ::
      ((if name = "" then ['='] else ':' :: name.toList ++ ['=']) ++ '"' :: uri.toList ++ ['"']) :=
    by simp [declaration]
  rw [hform]
  change readDeclared _ = _
  unfold readDeclared
  have hfine : ¬ (uri.toList = [] ∨ ¬ uri.toList.all isUriChar) := by simp [huri, hchars]
  rcases hname with rfl | ⟨hname, hfree⟩
  · rw [if_pos rfl, hsplit (by decide)]
    dsimp only
    rw [if_neg hfine, if_pos rfl, String.ofList_toList]
  · have hne : name ≠ "" := by
      rintro rfl
      exact absurd hname (by decide)
    have hkey : '"' ∉ ':' :: name.toList ++ ['='] := by
      have hmem : '"' ∉ name.toList := fun hmem => absurd (isName_alphanum hname hmem) (by decide)
      simp [hmem]
    have hlast : (':' :: name.toList ++ ['=']).tail.dropLast = name.toList := List.dropLast_concat
    rw [if_neg hne, hsplit hkey]
    dsimp only
    rw [if_neg hfine, if_neg (by simp), hlast, if_pos ⟨rfl, hname, hfree⟩, String.ofList_toList,
      String.ofList_toList]

theorem mapM_map_some {α β : Type} {write : α → β} {read : β → Option α} {xs : List α}
    (h : ∀ x ∈ xs, read (write x) = some x) : (xs.map write).mapM read = some xs := by
  induction xs with
  | nil => rfl
  | cons x xs ih =>
    have hrest := ih fun y hy => h y (List.mem_cons_of_mem _ hy)
    rw [List.map_cons, List.mapM_cons, h x List.mem_cons_self, hrest]
    rfl

theorem not_mem_declaration {d : String × String} (h : Declares d) {c : Char}
    (hc : Separates c) (hquote : c ≠ '"') : c ∉ declaration d := by
  obtain ⟨name, uri⟩ := d
  obtain ⟨hname, -, hchars⟩ := h
  have huri : c ∉ uri.toList := fun hmem =>
    not_separates_of_uriChar (List.all_eq_true.mp hchars _ hmem) hc
  have hkey : c ∉ name.toList := by
    rcases hname with rfl | ⟨hname, -⟩
    · simp
    · exact fun hmem => not_separates_of_alphanum (isName_alphanum hname hmem) hc
  dsimp only [declaration]
  rcases hc with rfl | rfl | rfl | rfl | rfl <;> split_ifs <;> simp_all

theorem not_mem_start {name : String} {namespaces : List (String × String)} (hname : Named name)
    (hdecl : ∀ d ∈ namespaces, Declares d) {c : Char} (hc : c = '<' ∨ c = '>' ∨ c = '/') :
    c ∉ name.toList ++ namespaces.flatMap (' ' :: declaration ·) := by
  have hsep : Separates c := by
    rcases hc with h | h | h <;> simp [Separates, h]
  have hother : c ≠ ' ' ∧ c ≠ '"' := by
    rcases hc with rfl | rfl | rfl <;> decide
  rw [List.mem_append, List.mem_flatMap]
  rintro (hmem | ⟨d, hd, hmem⟩)
  · exact hname.not_separates hmem hsep
  · rcases List.mem_cons.mp hmem with heq | hmem
    · exact hother.1 heq
    · exact not_mem_declaration (hdecl d hd) hsep hother.2 hmem

theorem readStart_body {name : String} {namespaces : List (String × String)} (closed : Bool)
    (hname : Named name) (hdecl : ∀ d ∈ namespaces, Declares d)
    (hdistinct : (namespaces.map Prod.fst).Nodup) :
    readStart (name.toList ++ namespaces.flatMap (' ' :: declaration ·)) closed =
      some (.start name namespaces closed) := by
  have hpieces : namespaces.flatMap (' ' :: declaration ·) =
      (namespaces.map declaration).flatMap (' ' :: ·) := by
    rw [List.flatMap_map]
  have hspace : ∀ piece ∈ namespaces.map declaration, ' ' ∉ piece := by
    rw [List.forall_mem_map]
    exact fun d hd => not_mem_declaration (hdecl d hd) (by simp [Separates]) (by decide)
  have hread : (namespaces.map declaration).mapM readDeclaration = some namespaces :=
    mapM_map_some fun d hd => readDeclaration_declaration (hdecl d hd)
  unfold readStart
  rw [hpieces, List.splitOn_pieces (fun hmem => hname.not_separates hmem (by simp [Separates])) hspace]
  dsimp only
  rw [hread, Option.bind_some, if_pos hdistinct, String.ofList_toList]

theorem readTag_body {tag : Tag} (h : tag.Valid) : readTag tag.body = some tag := by
  cases tag with
  | start name namespaces closed =>
    obtain ⟨hname, hdecl, hdistinct⟩ := h
    have hread := fun closed => readStart_body closed hname hdecl hdistinct
    have hslash := not_mem_start hname hdecl (c := '/') (by simp)
    dsimp only [Tag.body, readTag]
    have hfirst : (name.toList ++ namespaces.flatMap (' ' :: declaration ·) ++
        if closed then ['/'] else []).head? ≠ some '/' := by
      have hne : name.toList ≠ [] := fun h => hname.1 (String.toList_eq_nil_iff.mp h)
      obtain ⟨c, cs, hcs⟩ := List.exists_cons_of_ne_nil hne
      rw [hcs]
      rintro heq
      refine hslash (List.mem_append_left _ ?_)
      rw [hcs, Option.some.inj heq]
      exact List.mem_cons_self
    rw [if_neg hfirst]
    cases closed with
    | true =>
      rw [if_pos rfl, if_pos List.getLast?_concat, List.dropLast_concat]
      exact hread true
    | false =>
      rw [if_neg Bool.false_ne_true, List.append_nil]
      rw [if_neg fun h => hslash (List.mem_of_getLast? h)]
      exact hread false
  | stop name =>
    show some (Tag.stop (String.ofList name.toList)) = _
    rw [String.ofList_toList]

theorem not_mem_body {tag : Tag} (h : tag.Valid) {c : Char} (hc : c = '<' ∨ c = '>') :
    c ∉ tag.body := by
  have hslash : c ≠ '/' := by
    rcases hc with rfl | rfl <;> decide
  cases tag with
  | start name namespaces closed =>
    unfold Tag.body
    rw [List.mem_append]
    rintro (hmem | hmem)
    · exact not_mem_start h.1 h.2.1 (hc.elim Or.inl (Or.inr ∘ Or.inl)) hmem
    · split_ifs at hmem
      · exact hslash (List.mem_singleton.mp hmem)
      · exact absurd hmem List.not_mem_nil
  | stop name =>
    intro hmem
    rcases List.mem_cons.mp hmem with heq | hmem
    · exact hslash heq
    · exact Named.not_separates h hmem (hc.elim Or.inl (Or.inr ∘ Or.inl))

theorem readChunk_body {c : Chunk} (h : c.Valid) : readChunk c.body = some c := by
  have htext : '>' ∉ escape c.text := fun hmem => (mem_escape hmem).2 rfl
  unfold readChunk Chunk.body
  rw [List.splitOn_append_cons_self_of_not_mem (not_mem_body h.1 (Or.inr rfl)),
    List.splitOn_eq_singleton htext]
  dsimp only
  rw [readTag_body h.1, unescape_escape h.2, Option.bind_some, Option.map_some,
    String.ofList_toList]

/-- A document is read as it was written. -/
theorem readChunks_render {chunks : List Chunk} (h : ∀ c ∈ chunks, c.Valid) :
    readChunks (render chunks) = some chunks := by
  have hpieces : render chunks = [] ++ (chunks.map Chunk.body).flatMap ('<' :: ·) := by
    unfold render
    rw [List.nil_append, List.flatMap_map]
  have hbody : ∀ body ∈ chunks.map Chunk.body, '<' ∉ body := by
    rw [List.forall_mem_map]
    intro c hc hmem
    rcases List.mem_append.mp hmem with hmem | hmem
    · exact not_mem_body (h c hc).1 (Or.inl rfl) hmem
    · rcases List.mem_cons.mp hmem with heq | hmem
      · exact absurd heq (by decide)
      · exact (mem_escape hmem).1 rfl
  unfold readChunks
  rw [hpieces, List.splitOn_pieces List.not_mem_nil hbody]
  exact mapM_map_some fun c hc => readChunk_body (h c hc)

/-! ### Building what was written -/

section Build
variable {qualify : QName → String} {scope : List (String × String)}

def Plain (qualify : QName → String) (scope : List (String × String)) (e : Element) : Prop :=
  e.attributes = [] ∧ ∃ tag, e.tag = some tag ∧ resolve scope (qualify tag) = some tag

def Writable (qualify : QName → String) (e : Element) : Prop :=
  (∃ tag, e.tag = some tag ∧ Named (qualify tag)) ∧
    (∀ c ∈ e.text.toList, isXmlChar c) ∧ ∀ c ∈ e.tail.toList, isXmlChar c

theorem step_start {b : Builder} {namespaces : List (String × String)} {tag : QName} {closed : Bool}
    {text : String} (hroot : b.root = none) (hscope : namespaces ++ b.scope = scope)
    (htag : resolve scope (qualify tag) = some tag) :
    b.step ⟨.start (qualify tag) namespaces closed, text⟩ =
      if closed then b.close (.node (some tag) [] "" [] text)
      else some { b with stack := ⟨qualify tag, tag, scope, text, []⟩ :: b.stack } := by
  unfold Builder.step
  rw [hroot]
  dsimp only [Option.isSome_none]
  rw [if_neg Bool.false_ne_true, hscope, htag]
  rfl

theorem step_stop {b : Builder} {top : Open} {below : List Open} {text : String}
    (hroot : b.root = none) (hstack : b.stack = top :: below) :
    b.step ⟨.stop top.name, text⟩ =
      { b with stack := below }.close (.node (some top.tag) [] top.text top.children text) := by
  unfold Builder.step
  rw [hroot, hstack]
  dsimp only [Option.isSome_none]
  rw [if_neg Bool.false_ne_true, if_pos rfl]

mutual

theorem foldlM_chunks {b : Builder} {namespaces : List (String × String)} (hroot : b.root = none)
    (hscope : namespaces ++ b.scope = scope) :
    (e : Element) → (∀ x ∈ e.iter, Plain qualify scope x) →
      (e.chunks qualify namespaces e.tail).foldlM Builder.step b = b.close e
  | .node tag attributes text children tail, h => by
    have hself : Plain qualify scope (.node tag attributes text children tail) :=
      h _ List.mem_cons_self
    obtain ⟨rfl, tag, rfl, htag⟩ := hself
    have hbelow : ∀ x ∈ Element.iterAll children, Plain qualify scope x :=
      fun x hx => h x (List.mem_cons_of_mem _ hx)
    unfold Element.chunks
    dsimp only [Option.map_some, Option.getD_some, Element.tail]
    split
    · next hempty =>
      obtain ⟨htext, hchildren⟩ := Bool.and_eq_true_iff.mp hempty
      obtain rfl := of_decide_eq_true htext
      obtain rfl := List.isEmpty_iff.mp hchildren
      rw [List.foldlM_cons, step_start hroot hscope htag, if_pos rfl]
      exact bind_pure _
    · have hopen := foldlM_chunksAll
        (b := { b with stack := ⟨qualify tag, tag, scope, text, []⟩ :: b.stack }) hroot rfl rfl
        children hbelow
      rw [List.foldlM_cons, step_start hroot hscope htag, if_neg Bool.false_ne_true,
        Option.bind_eq_bind, Option.bind_some, List.foldlM_append, hopen, Option.bind_eq_bind,
        Option.bind_some, List.foldlM_cons]
      have hstop := @step_stop
        { b with stack := ⟨qualify tag, tag, scope, text, children⟩ :: b.stack } _ _ tail hroot rfl
      dsimp only [List.nil_append] at hstop ⊢
      rw [hstop]
      exact bind_pure _

theorem foldlM_chunksAll {b : Builder} {top : Open} {below : List Open} (hroot : b.root = none)
    (hstack : b.stack = top :: below) (hscope : top.scope = scope) :
    (es : List Element) → (∀ x ∈ Element.iterAll es, Plain qualify scope x) →
      (Element.chunksAll qualify es).foldlM Builder.step b =
        some { b with stack := { top with children := top.children ++ es } :: below }
  | [], _ => by
    unfold Element.chunksAll
    rw [List.append_nil, ← hstack]
    rfl
  | e :: es, h => by
    have hhead : [] ++ b.scope = scope := by
      unfold Builder.scope
      rw [hstack]
      exact hscope
    have he := foldlM_chunks hroot hhead e fun x hx => h x (List.mem_append_left _ hx)
    have hclose : b.close e =
        some { b with stack := { top with children := top.children ++ [e] } :: below } := by
      unfold Builder.close
      rw [hstack]
    unfold Element.chunksAll
    rw [List.foldlM_append, he, hclose, Option.bind_eq_bind, Option.bind_some]
    have hrest := foldlM_chunksAll
      (b := { b with stack := { top with children := top.children ++ [e] } :: below }) hroot rfl
      hscope es fun x hx => h x (List.mem_append_right _ hx)
    rw [hrest]
    dsimp only
    rw [List.append_assoc, List.singleton_append]

end

mutual

theorem valid_chunks {namespaces : List (String × String)} {tail : String}
    (hdecl : (∀ d ∈ namespaces, Declares d) ∧ (namespaces.map Prod.fst).Nodup)
    (htail : ∀ c ∈ tail.toList, isXmlChar c) :
    (e : Element) → (∀ x ∈ e.iter, Writable qualify x) →
      ∀ c ∈ e.chunks qualify namespaces tail, c.Valid
  | .node tag attributes text children _, h => by
    obtain ⟨⟨tag, rfl, hname⟩, htext, -⟩ := h _ List.mem_cons_self
    have hchildren := valid_chunksAll children fun x hx => h x (List.mem_cons_of_mem _ hx)
    unfold Element.chunks
    dsimp only [Option.map_some, Option.getD_some]
    split
    · rw [List.forall_mem_singleton]
      exact ⟨⟨hname, hdecl⟩, htail⟩
    · rw [List.forall_mem_cons, List.forall_mem_append, List.forall_mem_singleton]
      exact ⟨⟨⟨hname, hdecl⟩, htext⟩, hchildren, hname, htail⟩

theorem valid_chunksAll :
    (es : List Element) → (∀ x ∈ Element.iterAll es, Writable qualify x) →
      ∀ c ∈ Element.chunksAll qualify es, c.Valid
  | [], _ => fun _ hc => absurd hc List.not_mem_nil
  | e :: es, h => by
    have hself : e ∈ Element.iterAll (e :: es) := by
      cases e
      exact List.mem_cons_self
    have hhead := valid_chunks ⟨List.forall_mem_nil _, List.nodup_nil⟩ (h e hself).2.2 e
      fun x hx => h x (List.mem_append_left _ hx)
    have hrest := valid_chunksAll es fun x hx => h x (List.mem_append_right _ hx)
    unfold Element.chunksAll
    rw [List.forall_mem_append]
    exact ⟨hhead, hrest⟩

end

/-- The tree that a document was written from is built again. -/
theorem parse_render_chunks {namespaces : List (String × String)} {e : Element}
    (hvalid : ∀ c ∈ e.chunks qualify namespaces "", c.Valid) (htail : e.tail = "")
    (hplain : ∀ x ∈ e.iter, Plain qualify namespaces x) :
    parse (render (e.chunks qualify namespaces "")) = some e := by
  have hbuilt := foldlM_chunks (b := {}) rfl (List.append_nil namespaces) e hplain
  have hclose : Builder.close {} e = some { root := some e } := if_pos htail
  unfold parse
  rw [readChunks_render hvalid, Option.bind_some]
  unfold build
  rw [← htail, hbuilt, hclose]
  rfl

end Build
end Xml
