import Mathlib
import Acs.Omadm.SyncMl
import Acs.Omadm.WbxmlRoundTrip

/-! The XML and WBXML request paths: a message that was encoded and decoded is parsed as the
message itself. -/

namespace Acs.Omadm
open Xml Wbxml List

/-- A text without comments, CDATA sections, and processing instructions; an XML declaration is none
of these. -/
structure Unadorned (text : List Char) : Prop where
  comments : ¬ "<!--".toList <:+: text
  sections : ¬ "<![CDATA[".toList <:+: text
  instructions : ∀ before after, text = before ++ '<' :: '?' :: after →
    before = [] ∧ ∃ c rest, after = 'x' :: 'm' :: 'l' :: c :: rest ∧
      c ∈ [' ', '\t', '\r', '\n']

/-- `lxml.etree` beside `xml.etree.ElementTree`. -/
structure XmlParsers extends ElementTree where
  /-- `etree.fromstring` as `parse` calls it, or the text of its `XMLSyntaxError`. -/
  etree : Bytes → Except String Element
  /-- The characters of a document, in the encoding that it declares. -/
  characters : Bytes → Option (List Char)
  /-- What both take they read alike, but for comments and the like and for document types. -/
  alike : ∀ {payload text d root}, characters payload = some text → Unadorned text →
    fromstring payload = .ok d → d.doctype = false → etree payload = .ok root → root = d.root
  /-- What `decode` writes is within the limits of `lxml` without `huge_tree`. -/
  decoded : ∀ {wire : Bytes} {s : String} {root : Element}, decode wire = .ok (utf8 s) →
    Xml.parse s.toList = some root → Legal root → etree (utf8 s) = .ok root

def parse (py : PyText) (etree : Bytes → Except String Element) (payload : Bytes) :
    Except String SyncMlMessage :=
  ((etree payload).mapError ("malformed SyncML: " ++ ·)) >>= parseTree { py with strip }

theorem strip_of_isspace {s : String} (h : isspace s) : strip s = "" := by
  have hall : ∀ c ∈ s.toList, isSpaceChar c := by
    obtain ⟨-, hall⟩ := Bool.and_eq_true_iff.mp h
    exact List.all_eq_true.mp hall
  rw [strip, List.dropWhile_eq_nil_iff.mpr hall]
  rfl

section Same
variable {py : PyText} {e e' : Element} {es es' : List Element}

theorem forall₂_of_sameAll (h : SameAll es es') : Forall₂ Same es es' := by
  induction es generalizing es' with
  | nil =>
    cases es' with
    | nil => exact .nil
    | cons e' es' => cases h
  | cons e es ih =>
    cases es' with
    | nil => cases h
    | cons e' es' => exact .cons h.1 (ih h.2)

theorem same_children (h : Same e e') : Forall₂ Same e.children e'.children := by
  cases e
  cases e'
  exact forall₂_of_sameAll h.2.2.2.2

theorem same_localName (h : Same e e') : e'.localName = e.localName := by
  cases e
  cases e'
  obtain ⟨⟨q, q', rfl, rfl, hname, -⟩, -⟩ := h
  exact hname

theorem same_text (h : Same e e') : textOf { py with strip } e' = textOf { py with strip } e := by
  have htext : e'.text = e.text ∨ e'.text = "" ∧ isspace e.text := by
    cases e
    cases e'
    exact h.2.2.1.imp_right fun hblank => ⟨hblank.1, hblank.2.1⟩
  change strip e'.text = strip e.text
  rcases htext with heq | ⟨hempty, hspace⟩
  · rw [heq]
  · rw [hempty, strip_of_isspace hspace]
    rfl

mutual

theorem same_iter : (e : Element) → {e' : Element} → Same e e' → Forall₂ Same e.iter e'.iter
  | .node tag attributes text children tail, .node .., h => by
    unfold Element.iter
    exact .cons h (sameAll_iter children (forall₂_of_sameAll h.2.2.2.2))

theorem sameAll_iter :
    (es : List Element) → {es' : List Element} → Forall₂ Same es es' →
      Forall₂ Same (Element.iterAll es) (Element.iterAll es')
  | [], _, h => by
    cases h
    exact .nil
  | e :: es, _, h => by
    cases h with
    | cons he hes => exact rel_append (same_iter e he) (sameAll_iter es hes)

end

theorem same_find (name : String) (h : Forall₂ Same es es') :
    Option.Rel Same (es.find? (·.localName = name)) (es'.find? (·.localName = name)) := by
  induction h with
  | nil => exact .none
  | cons he hes ih =>
    rw [List.find?_cons, List.find?_cons, same_localName he]
    split
    · exact .some he
    · exact ih

theorem same_filter (name : String) (h : Forall₂ Same es es') :
    Forall₂ Same (es.filter (·.localName = name)) (es'.filter (·.localName = name)) := by
  refine rel_filter (fun e e' he => ?_) h
  simp only [same_localName he]

end Same

section Parse
variable (py : PyText) {e e' : Element} {es es' : List Element} {o o' : Option Element}

theorem textOf_rel (h : Option.Rel Same o o') :
    textOf { py with strip } o' = textOf { py with strip } o := by
  cases h with
  | none => rfl
  | some he => exact same_text he

theorem deepText_rel (name : String) (h : Option.Rel Same o o') :
    deepText { py with strip } o' name = deepText { py with strip } o name := by
  cases h with
  | none => rfl
  | some he => exact textOf_rel py (same_find name (same_iter _ he))

theorem find_rel (name : String) (h : Same e e') :
    Option.Rel Same (e.find name) (e'.find name) := same_find name (same_children h)

theorem parseItem_same (h : Same e e') :
    parseItem { py with strip } e' = parseItem { py with strip } e := by
  unfold parseItem
  rw [deepText_rel py _ (find_rel "Target" h), deepText_rel py _ (find_rel "Source" h),
    textOf_rel py (find_rel "Data" h), deepText_rel py _ (find_rel "Meta" h),
    deepText_rel py _ (find_rel "Meta" h)]

theorem parseCommand_same (name : String) (h : Same e e') :
    parseCommand { py with strip } name e' = parseCommand { py with strip } name e := by
  have hitems : (e'.children.filter (·.localName = "Item")).map (parseItem { py with strip }) =
      (e.children.filter (·.localName = "Item")).map (parseItem { py with strip }) := by
    have hfiltered := same_filter "Item" (same_children h)
    generalize e.children.filter (·.localName = "Item") = items,
      e'.children.filter (·.localName = "Item") = items' at hfiltered
    induction hfiltered with
    | nil => rfl
    | cons he hes ih => rw [List.map_cons, List.map_cons, parseItem_same py he, ih]
  unfold parseCommand
  rw [textOf_rel py (find_rel "CmdID" h), hitems, textOf_rel py (find_rel "Data" h),
    textOf_rel py (find_rel "CmdRef" h), textOf_rel py (find_rel "MsgRef" h),
    textOf_rel py (find_rel "Cmd" h)]

theorem map_rel {f : Element → α} (hf : ∀ e e', Same e e' → f e' = f e) (h : Option.Rel Same o o') :
    o'.map f = o.map f := by
  cases h with
  | none => rfl
  | some he => exact congrArg some (hf _ _ he)

theorem parseHeader_same (h : Same e e') :
    parseHeader { py with strip } e' = parseHeader { py with strip } e := by
  have hlift : ∀ (f : Option Element → Credentials) (o : Option Element),
      (do let a ← o; pure (some a) : Option (Option Element)).map f = o.map fun a => f (some a) :=
    fun f o => by cases o <;> rfl
  unfold parseHeader
  rw [hlift, hlift, map_rel ?_ (find_rel "Cred" h)]
  · simp only [textOf_rel py (find_rel _ h), deepText_rel py _ (find_rel _ h)]
  · intro cred cred' hcred
    have hsome : Option.Rel Same (some cred) (some cred') := .some hcred
    simp only [deepText_rel py _ hsome]

theorem parseCommands_same (h : Forall₂ Same es es') :
    parseCommands { py with strip } es' = parseCommands { py with strip } es := by
  induction h with
  | nil => rfl
  | cons he hes ih =>
    unfold parseCommands
    rw [same_localName he, ih, parseCommand_same py _ he]

theorem parseTree_same (h : Same e e') :
    parseTree { py with strip } e' = parseTree { py with strip } e := by
  have hhdr := find_rel "SyncHdr" h
  have hbody := find_rel "SyncBody" h
  unfold parseTree
  rw [same_localName h]
  generalize e.find "SyncHdr" = hdr, e'.find "SyncHdr" = hdr' at hhdr
  generalize e.find "SyncBody" = body, e'.find "SyncBody" = body' at hbody
  cases hhdr with
  | none => rfl
  | some hhdr =>
    cases hbody with
    | none => rfl
    | some hbody =>
      dsimp only
      rw [parseHeader_same py hhdr, parseCommands_same py (same_children hbody)]

end Parse

section Paths
variable {options : Options} {ns : String} {payload wire : List UInt8} {d : Document}

/-- Encoded and decoded, a message is parsed as it is, or refused as it is. -/
theorem parse_decode_encode (parsers : XmlParsers) (py : PyText) {text : List Char} {root : Element}
    (htext : parsers.characters payload = some text) (hbare : Unadorned text)
    (htaken : parsers.etree payload = .ok root) (hread : parsers.fromstring payload = .ok d)
    (hns : syncmlNamespace d.root options = some ns)
    (h : encode parsers.toElementTree payload options = .ok wire)
    (hwithin : Within ns d.root wire) :
    ∃ out, decode wire = .ok out ∧
      parse py parsers.etree out = parse py parsers.etree payload := by
  obtain ⟨hdecode, hparse, hlegal, hsame, hdoctype⟩ :=
    document_of_encode parsers.toElementTree hread hns h hwithin
  obtain rfl : root = d.root := parsers.alike htext hbare hread hdoctype htaken
  have hdocument : parsers.etree (utf8 (document ns d.root)) = .ok (decoded ns d.root) :=
    parsers.decoded hdecode hparse hlegal
  refine ⟨_, hdecode, ?_⟩
  rw [parse, parse, htaken, hdocument]
  exact parseTree_same py hsame

/-- Both parsers where they read plain markup and nothing else. -/
def plainParsers : XmlParsers where
  toElementTree := plainXml
  etree payload :=
    match plainXml.fromstring payload with
    | .ok d => .ok d.root
    | .error _ => .error "not plain markup"
  characters payload := (fromUtf8 payload).map String.toList
  alike := by
    intro payload text d root _ _ hread _ hroot
    rw [hread] at hroot
    exact (Except.ok.inj hroot).symm
  decoded := by
    intro wire s root _ hparse hlegal
    rw [plainXml.plain hparse hlegal]

theorem plainParsers_toElementTree : plainParsers.toElementTree = plainXml := rfl

theorem characters_utf8 (s : String) : plainParsers.characters (utf8 s) = some s.toList := by
  change (fromUtf8 (utf8 s)).map String.toList = _
  rw [fromUtf8_utf8, Option.map_some]

theorem etree_of_fromstring (h : plainXml.fromstring payload = .ok d) :
    plainParsers.etree payload = .ok d.root := by
  unfold plainParsers
  dsimp only
  rw [h]

theorem unadorned_of_not_mem {text : List Char} (hbang : '!' ∉ text) (hquestion : '?' ∉ text) :
    Unadorned text where
  comments h := hbang (h.subset (by decide))
  sections h := hbang (h.subset (by decide))
  instructions before after h := absurd (by rw [h]; simp) hquestion

theorem unadorned_tree : Unadorned (written Lab.ns (declared Lab.ns) Lab.tree) :=
  unadorned_of_not_mem (by decide +kernel) (by decide +kernel)

end Paths

/-- An indented message, one of whose texts has an escaped bracket in it. -/
theorem parse_decode_encode_indented :
    ∃ wire out, encode plainXml (utf8 (String.ofList (written Lab.ns (declared Lab.ns) Lab.tree)))
        Lab.options = .ok wire ∧
      decode wire = .ok out ∧ parse asciiText plainParsers.etree out =
        parse asciiText plainParsers.etree
          (utf8 (String.ofList (written Lab.ns (declared Lab.ns) Lab.tree))) := by
  obtain ⟨wire, hencode, hwithin⟩ := Lab.encoded_tree
  have hread := Lab.fromstring_tree
  have htext : plainParsers.characters
      (utf8 (String.ofList (written Lab.ns (declared Lab.ns) Lab.tree))) =
        some (written Lab.ns (declared Lab.ns) Lab.tree) := by
    rw [characters_utf8, String.toList_ofList]
  have htaken : plainParsers.etree
      (utf8 (String.ofList (written Lab.ns (declared Lab.ns) Lab.tree))) =
        .ok (inPages Lab.ns Lab.tree) := etree_of_fromstring hread
  rw [← plainParsers_toElementTree] at hread hencode ⊢
  obtain ⟨out, hdecode, hparse⟩ := parse_decode_encode plainParsers asciiText htext
    unadorned_tree htaken hread Lab.ns_tree hencode hwithin
  exact ⟨wire, out, hencode, hdecode, hparse⟩

end Acs.Omadm
