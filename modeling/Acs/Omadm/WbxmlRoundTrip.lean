import Acs.Omadm.WbxmlPasses

/-! Decoding undoes encoding. -/

namespace Acs.Wbxml
open Xml

/-! ### Documents -/

section Documents
variable {env : Encoding} {ns : String}

/-- A tag of one of the two code pages. -/
def Tagged (tag : Option QName) : Prop :=
  ∃ q token, tag = some q ∧ pageOf q < 2 ∧ (token, q.name) ∈ tagPages.getD (pageOf q) []

mutual

theorem elementContent_tagged :
    (e : Element) → {o o' : Encoder} → elementContent env e o = .ok o' → ∀ x ∈ e.iter, Tagged x.tag
  | .node tag attributes text children tail, o, o', h => by
    unfold elementContent at h
    obtain ⟨⟨page, token⟩, htoken, hrest⟩ := Except.bind_eq_ok.mp h
    obtain ⟨q, hq, hpage, hless, hentry⟩ := tagToken_ok htoken
    obtain ⟨o₁, -, hbody⟩ := Except.bind_eq_ok.mp hrest
    have hself : Tagged tag := ⟨q, token, hq, hpage ▸ hless, hpage ▸ hentry⟩
    unfold Element.iter
    rw [List.forall_mem_cons]
    refine ⟨hself, ?_⟩
    split_ifs at hbody with hcontent
    · obtain ⟨o₂, -, hbody⟩ := Except.bind_eq_ok.mp hbody
      obtain ⟨o₃, -, hbody⟩ := Except.bind_eq_ok.mp hbody
      obtain ⟨o₄, hchildren, -⟩ := Except.bind_eq_ok.mp hbody
      exact childrenContent_tagged children hchildren
    · have hnone : children = [] := by simpa using (not_or.mp hcontent).2
      rw [hnone]
      exact fun x hx => absurd hx List.not_mem_nil

theorem childrenContent_tagged :
    (es : List Element) → {o o' : Encoder} → childrenContent env es o = .ok o' →
      ∀ x ∈ Element.iterAll es, Tagged x.tag
  | [], _, _, _ => fun _ hx => absurd hx List.not_mem_nil
  | e :: es, o, o', h => by
    unfold childrenContent at h
    obtain ⟨o₁, helement, h₁⟩ := Except.bind_eq_ok.mp h
    obtain ⟨o₂, -, hrest⟩ := Except.bind_eq_ok.mp h₁
    unfold Element.iterAll
    rw [List.forall_mem_append]
    exact ⟨elementContent_tagged e helement, childrenContent_tagged es hrest⟩

end

mutual

theorem iter_inPages (ns : String) : (e : Element) → (inPages ns e).iter = e.iter.map (inPages ns)
  | .node tag attributes text children tail => by
    unfold inPages Element.iter
    rw [List.map_cons, iterAll_inPages ns children]
    rfl

theorem iterAll_inPages (ns : String) :
    (es : List Element) →
      Element.iterAll (allInPages ns es) = (Element.iterAll es).map (inPages ns)
  | [] => rfl
  | e :: es => by
    unfold allInPages Element.iterAll
    rw [iter_inPages ns e, iterAll_inPages ns es, List.map_append]

end

mutual

theorem iter_stripBlanks : (e : Element) → (stripBlanks e).iter = e.iter.map stripBlanks
  | .node tag attributes text children tail => by
    unfold stripBlanks Element.iter
    rw [List.map_cons, iterAll_stripBlanks children]
    rfl

theorem iterAll_stripBlanks :
    (es : List Element) → Element.iterAll (stripAll es) = (Element.iterAll es).map stripBlanks
  | [] => rfl
  | e :: es => by
    unfold stripAll Element.iterAll
    rw [iter_stripBlanks e, iterAll_stripBlanks es, List.map_append]

end

mutual

theorem depth_stripBlanks : (e : Element) → (stripBlanks e).depth = e.depth
  | .node tag attributes text children tail => by
    unfold stripBlanks Element.depth
    rw [depthAll_stripBlanks children]

theorem depthAll_stripBlanks :
    (es : List Element) → Element.depthAll (stripAll es) = Element.depthAll es
  | [] => rfl
  | e :: es => by
    unfold stripAll Element.depthAll
    rw [depth_stripBlanks e, depthAll_stripBlanks es]

end

theorem tag_stripBlanks (e : Element) : (stripBlanks e).tag = e.tag := by
  cases e
  rfl

theorem tail_stripBlanks {e : Element} (h : e.tail = "") : (stripBlanks e).tail = "" := by
  cases e with
  | node tag attributes text children tail =>
    obtain rfl : tail = "" := h
    rfl

theorem tail_inPages (ns : String) (e : Element) : (inPages ns e).tail = e.tail := by
  cases e
  rfl

theorem textual_inPages {e : Element} (h : Textual e) : Textual (inPages ns e) := by
  cases e
  exact h

theorem textual_stripBlanks {e : Element} (h : Textual e) : Textual (stripBlanks e) := by
  cases e with
  | node tag attributes text children tail =>
    unfold stripBlanks
    constructor <;> dsimp only [Element.text, Element.tail] <;> split_ifs
    · exact fun c hc => absurd hc List.not_mem_nil
    · exact h.1
    · exact fun c hc => absurd hc List.not_mem_nil
    · exact h.2

theorem names_spec : ∀ page < 2, ∀ entry ∈ tagPages.getD page [],
    (qualifiedName page entry.2 ≠ "" ∧
      ∀ c ∈ (qualifiedName page entry.2).toList, c.isAlphanum ∨ c = ':') ∧
    ∀ id ∈ publicIds, resolve (declared id.2.2) (qualifiedName page entry.2) =
      some ⟨if page = 0 then id.2.2 else metinfNs, entry.2⟩ := by
  decide +kernel

theorem publicIds_spec : ∀ id ∈ publicIds, id.2.2 ≠ metinfNs ∧
    (∀ d ∈ declared id.2.2, Declares d) ∧ ((declared id.2.2).map Prod.fst).Nodup := by
  have hmetinf : Declares ("metinf", metinfNs) :=
    ⟨Or.inr (by decide +kernel), by decide +kernel, by decide +kernel⟩
  intro id hid
  simp only [publicIds, List.mem_cons, List.not_mem_nil, or_false] at hid
  rcases hid with rfl | rfl
  all_goals
    refine ⟨by decide, ?_, by decide +kernel⟩
    unfold declared
    rw [List.forall_mem_cons, List.forall_mem_singleton]
    exact ⟨⟨Or.inl rfl, by decide +kernel, by decide +kernel⟩, hmetinf⟩

theorem parse_written {id : Nat × String × String} (hid : id ∈ publicIds) {e : Element}
    (htail : e.tail = "") (htags : ∀ x ∈ e.iter, Tagged x.tag) (htexts : ∀ x ∈ e.iter, Textual x) :
    parse (written id.2.2 (declared id.2.2) e) = some (inPages id.2.2 e) := by
  obtain ⟨hns, hdecl⟩ := publicIds_spec id hid
  have htag : ∀ x ∈ e.iter, ∃ q token, x.tag = some q ∧ pageOf q < 2 ∧
      (token, q.name) ∈ tagPages.getD (pageOf q) [] := htags
  have hinner : ∀ x ∈ e.iter, Plain qualify (declared id.2.2) (inPages id.2.2 x) ∧
      Writable qualify (inPages id.2.2 x) := by
    intro x hx
    obtain ⟨q, token, hq, hless, hentry⟩ := htag x hx
    obtain ⟨hname, hresolve⟩ := names_spec _ hless _ hentry
    have hqualify := qualify_inPages (q := q) hns
    obtain ⟨htext, htail⟩ := htexts x hx
    cases x with
    | node tag attributes text children tail =>
      obtain rfl : tag = some q := hq
      refine ⟨⟨rfl, _, rfl, ?_⟩, ⟨_, rfl, ?_⟩, htext, htail⟩
      · rw [hqualify]
        exact hresolve id hid
      · rw [hqualify]
        exact hname
  apply parse_render_chunks
  · apply valid_chunks hdecl (fun c hc => absurd hc List.not_mem_nil)
    rw [iter_inPages, List.forall_mem_map]
    exact fun x hx => (hinner x hx).2
  · cases e
    exact htail
  · rw [iter_inPages, List.forall_mem_map]
    exact fun x hx => (hinner x hx).1

end Documents

section Headers
variable {root : Element} {options : Options} {ns : String}

theorem publicId_of_namespace (h : syncmlNamespace root options = some ns) :
    ∃ id ∈ publicIds, id.2.2 = ns ∧ (id.1 : Int) = numericId (rootNs root) options.publicId := by
  unfold syncmlNamespace at h
  obtain ⟨id, hfind, rfl⟩ := Option.map_eq_some_iff.mp h
  have hequal := List.find?_some (p := fun entry : Nat × String × String =>
    decide ((entry.1 : Int) = numericId (rootNs root) options.publicId)) hfind
  exact ⟨id, List.mem_of_find?_eq_some hfind, rfl, of_decide_eq_true hequal⟩

theorem publicIdNamed_eq {id : Nat × String × String} (hid : id ∈ publicIds) {name : String}
    (h : publicIdNamed name = id.1) : name = id.2.1 := by
  have hdistinct : ∀ id ∈ publicIds, id.1 ≠ 0 ∧ ∀ other ∈ publicIds, other.1 = id.1 → other = id := by
    decide
  obtain ⟨hpositive, honly⟩ := hdistinct id hid
  unfold publicIdNamed at h
  cases hfind : publicIds.find? (·.2.1 = name) with
  | none =>
    rw [hfind] at h
    exact absurd h.symm hpositive
  | some other =>
    rw [hfind] at h
    have hname := List.find?_some (p := fun entry : Nat × String × String =>
      decide (entry.2.1 = name)) hfind
    rw [← honly other (List.mem_of_find?_eq_some hfind) h]
    exact (of_decide_eq_true hname).symm

theorem integer_zero (rest : List UInt8) : integer (0 :: rest) = .ok (0, rest) := by
  have hzero : mbUint32 0 = .ok [0] := by
    unfold mbUint32
    rw [if_pos (by decide)]
    change Except.ok (highGroups 0 [0]) = _
    rw [highGroups, dif_pos rfl]
  exact integer_mbUint32 hzero rest

theorem publicId_read_number {bytes rest : List UInt8} {id : Nat × String × String} {value : Int}
    (hid : id ∈ publicIds) (hvalue : (id.1 : Int) = value) (hbytes : mbUint32 value = .ok bytes)
    (table : List UInt8) :
    ∃ publicId offset rest₁, integer (bytes ++ rest) = .ok (publicId, rest₁) ∧
      publicOffsetOf publicId rest₁ = .ok (offset, rest) ∧
      publicIdOf table publicId offset = .ok id.1 := by
  have hpositive : ∀ id ∈ publicIds, id.1 ≠ 0 := by decide
  refine ⟨id.1, none, rest, ?_, if_neg (hpositive id hid), rfl⟩
  rw [integer_mbUint32 hbytes, ← hvalue, Int.toNat_natCast]

theorem publicId_read_name {rest : List UInt8} {id : Nat × String × String} (hid : id ∈ publicIds)
    {table more : List UInt8} (htable : table = utf8 id.2.1 ++ [0x00] ++ more) :
    ∃ publicId offset rest₁, integer ([0x00, 0x00] ++ rest) = .ok (publicId, rest₁) ∧
      publicOffsetOf publicId rest₁ = .ok (offset, rest) ∧
      publicIdOf table publicId offset = .ok id.1 := by
  have hnames : ∀ id ∈ publicIds, '\x00' ∉ id.2.1.toList ∧ id.2.1.toList.all isXmlChar = true ∧
      publicIdNamed id.2.1 = id.1 := by
    decide +kernel
  obtain ⟨hnul, hchars, hnamed⟩ := hnames id hid
  have hstring : tableString table 0 = .ok (utf8 id.2.1) := by
    rw [htable]
    exact tableString_append (@tableString_length [] _ (zero_notMem_utf8 hnul)) more
  have htext : utf8Text (utf8 id.2.1) = .ok id.2.1 := by
    unfold utf8Text
    rw [fromUtf8_utf8]
    exact if_pos hchars
  refine ⟨0, some 0, 0 :: rest, integer_zero _, ?_, ?_⟩
  · unfold publicOffsetOf
    rw [if_pos rfl, integer_zero]
    rfl
  · unfold publicIdOf
    dsimp only [bind, Except.bind]
    rw [hstring]
    dsimp only
    rw [htext]
    dsimp only
    rw [hnamed]
    rfl

theorem publicId_read {bytes rest : List UInt8} {id : Nat × String × String} (hid : id ∈ publicIds)
    (hnumeric : (id.1 : Int) = numericId (rootNs root) options.publicId)
    (hbytes : publicIdBytes (rootNs root) options.publicId = .ok bytes)
    (hsound : ∃ more,
      (stringTable root options).table = (startTable options.publicId).table ++ more) :
    ∃ publicId offset rest₁, integer (bytes ++ rest) = .ok (publicId, rest₁) ∧
      publicOffsetOf publicId rest₁ = .ok (offset, rest) ∧
      publicIdOf (stringTable root options).table publicId offset = .ok id.1 := by
  match hoption : options.publicId with
  | none =>
    rw [hoption] at hnumeric hbytes
    exact publicId_read_number hid hnumeric hbytes _
  | some (.number value) =>
    rw [hoption] at hnumeric hbytes
    exact publicId_read_number hid hnumeric hbytes _
  | some (.name name) =>
    rw [hoption] at hnumeric hbytes
    obtain ⟨more, htable⟩ := hsound
    obtain rfl : [0x00, 0x00] = bytes := Except.ok.inj hbytes
    obtain rfl : name = id.2.1 := publicIdNamed_eq hid (Int.ofNat_inj.mp hnumeric).symm
    rw [hoption] at htable
    exact publicId_read_name hid htable

theorem header_eq {version : UInt8} {bytes charset length body : List UInt8}
    (hversion : version = version12 ∨ version = version13)
    (hns : syncmlNamespace root options = some ns)
    (hbytes : publicIdBytes (rootNs root) options.publicId = .ok bytes)
    (hcharset : mbUint32 charsetUtf8 = .ok charset)
    (hlength : mbUint32 (stringTable root options).table.length = .ok length)
    (hsound : ∃ more,
      (stringTable root options).table = (startTable options.publicId).table ++ more) :
    header (version :: (bytes ++ (charset ++ (length ++
        ((stringTable root options).table ++ body))))) =
      .ok (ns, (stringTable root options).table, body) := by
  obtain ⟨id, hid, rfl, hnumeric⟩ := publicId_of_namespace hns
  have hread (rest : List UInt8) := @publicId_read _ _ _ rest _ hid hnumeric hbytes hsound
  obtain ⟨publicId, offset, rest₁, hinteger, hoffset, hnumber⟩ :=
    hread (charset ++ (length ++ ((stringTable root options).table ++ body)))
  have hlookup : ∀ id ∈ publicIds, publicIds.lookup id.1 = some id.2 := by decide
  have hknown : ¬ (version ≠ version12 ∧ version ≠ version13) := by
    rcases hversion with rfl | rfl <;> decide
  unfold header
  rw [byte_cons]
  dsimp only [bind, Except.bind]
  rw [if_neg hknown, hinteger]
  dsimp only
  rw [hoffset]
  dsimp only
  rw [integer_mbUint32 hcharset]
  dsimp only
  rw [if_neg (by decide), integer_mbUint32 hlength]
  dsimp only
  rw [Int.toNat_natCast, take_append]
  dsimp only
  rw [hnumber]
  dsimp only
  rw [hlookup id hid]
  rfl

end Headers

/-! ### The round trip -/

mutual

/-- The second tree is the first one but for blanks between elements. -/
def Same : Element → Element → Prop
  | .node tag attributes text children tail, .node tag' attributes' text' children' tail' =>
    (∃ q q', tag = some q ∧ tag' = some q' ∧ q'.name = q.name ∧ pageOf q' = pageOf q) ∧
      attributes' = attributes ∧
      (text' = text ∨ text' = "" ∧ isspace text ∧ children ≠ []) ∧
      (tail' = tail ∨ tail' = "" ∧ isspace tail) ∧ SameAll children children'

def SameAll : List Element → List Element → Prop
  | [], [] => True
  | e :: es, e' :: es' => Same e e' ∧ SameAll es es'
  | _, _ => False

end

/-- What the decoder is to make of a document. -/
def decoded (ns : String) (root : Element) : Element := inPages ns (stripBlanks root)

def document (ns : String) (root : Element) : String :=
  String.ofList (written ns (declared ns) (stripBlanks root))

/-- An encoding that the decoder's limits let through. -/
structure Within (ns : String) (root : Element) (wire : List UInt8) : Prop where
  input : wire.length ≤ maxInputBytes
  output : (utf8 (document ns root)).length ≤ maxXmlBytes
  depth : root.depth ≤ maxDepth
  elements : root.iter.length ≤ maxElements

section RoundTrip
variable {root : Element} {options : Options} {ns : String} {wire : List UInt8}

theorem sound_of_texts (hns : syncmlNamespace root options = some ns)
    (htexts : ∀ x ∈ root.iter, Textual x) :
    (stringTable root options).Sound ∧
      ∃ more, (stringTable root options).table = (startTable options.publicId).table ++ more := by
  apply stringTable_sound
  · intro name hoption
    obtain ⟨id, hid, -, hnumeric⟩ := publicId_of_namespace hns
    rw [hoption] at hnumeric
    obtain rfl : name = id.2.1 := publicIdNamed_eq hid (Int.ofNat_inj.mp hnumeric).symm
    have hnames : ∀ id ∈ publicIds, '\x00' ∉ id.2.1.toList := by decide +kernel
    exact hnames id hid
  · intro text htext
    obtain ⟨x, hx, hmem⟩ := List.mem_flatMap.mp (List.mem_of_mem_filter htext)
    simp only [List.mem_cons, List.not_mem_nil, or_false] at hmem
    rcases hmem with rfl | rfl
    · exact nul_notMem (htexts x hx).1
    · exact nul_notMem (htexts x hx).2

/-- The decoder walks over the body of an encoding, and is then through with it. -/
theorem walkAll_elementContent {env : Encoding} {t : StringTable} {o o' : Encoder}
    (hsound : t.Sound) (hoffsets : env.offsets = t.offsets) (hns : ns ≠ metinfNs)
    (hroot : ∀ q, root.tag = some q → pageOf q = 0) (hname : root.localName = "SyncML")
    (htexts : ∀ x ∈ root.iter, Textual x) (hpage : o.page = 0)
    (h : elementContent env root o = .ok o')
    (houtput : (utf8 (String.ofList (written ns (declared ns) root))).length ≤ maxXmlBytes)
    (hdepth : root.depth ≤ maxDepth) (helements : root.iter.length ≤ maxElements) :
    ∃ body, o'.output.data = o.output.data ++ body ∧ ∃ w, w.stack = [] ∧ w.elements ≠ 0 ∧
      w.output.data = utf8 (String.ofList (written ns (declared ns) root)) ∧
      walkAll ns t.table body.length {} body = .ok w := by
  obtain ⟨body, hdata, hwalks⟩ :=
    elementContent_walks hsound hoffsets hns root htexts h
  have hwalk := hwalks {} [] hpage.symm (Or.inr ⟨rfl, hroot, hname⟩)
    (by simpa using hdepth) (by simpa using helements)
    (by simpa [Walk.Room, Output.Room, Walk.namespaces] using houtput)
  rw [List.append_nil] at hwalk
  obtain ⟨passes, -, hall⟩ := hwalk.walkAll (Nat.le_refl _)
  have hsome : root.iter.length ≠ 0 := by
    cases root
    exact Nat.succ_ne_zero _
  refine ⟨body, hdata, Walk.after {} (written ns (declared ns) root) o'.page root.iter.length, rfl,
    ?_, rfl, ?_⟩
  · rw [Walk.after, Nat.zero_add]
    exact hsome
  · rw [hall]
    cases passes <;> rfl

theorem decode_encodeTree (hversion : options.version = 2 ∨ options.version = 3)
    (hns : syncmlNamespace root options = some ns)
    (hrootNs : rootNs root = "" ∨ rootNs root = ns) (hname : root.localName = "SyncML")
    (htexts : ∀ x ∈ root.iter, Textual x)
    (h : encodeTree root options ns = .ok wire) (hinput : wire.length ≤ maxInputBytes)
    (houtput : (utf8 (String.ofList (written ns (declared ns) root))).length ≤ maxXmlBytes)
    (hdepth : root.depth ≤ maxDepth) (helements : root.iter.length ≤ maxElements) :
    decode wire = .ok (utf8 (String.ofList (written ns (declared ns) root))) ∧
      ∀ x ∈ root.iter, Tagged x.tag := by
  obtain ⟨hsound, htable⟩ := sound_of_texts hns htexts
  obtain ⟨id, hid, hidns, -⟩ := publicId_of_namespace hns
  have hmetinf : ns ≠ metinfNs := hidns ▸ (publicIds_spec id hid).1
  -- the decoder starts on the first code page
  have hroot : ∀ q, root.tag = some q → pageOf q = 0 := by
    intro q hq
    have hq' : rootNs root = q.ns := by rw [rootNs, hq]; rfl
    rw [hq'] at hrootNs
    apply if_neg
    rcases hrootNs with heq | heq
    · rw [heq]
      decide
    · exact heq ▸ hmetinf
  unfold encodeTree at h
  obtain ⟨o₁, hversions, h⟩ := Except.bind_eq_ok.mp h
  obtain ⟨bytes, hbytes, h⟩ := Except.bind_eq_ok.mp h
  obtain ⟨o₂, hids, h⟩ := Except.bind_eq_ok.mp h
  obtain ⟨charset, hcharset, h⟩ := Except.bind_eq_ok.mp h
  obtain ⟨length, hlength, h⟩ := Except.bind_eq_ok.mp h
  obtain ⟨o₃, htables, h⟩ := Except.bind_eq_ok.mp h
  obtain ⟨o₄, hbody, h⟩ := Except.bind_eq_ok.mp h
  obtain rfl : o₄.output.data = wire := Except.ok.inj h
  obtain ⟨hdata₁, hpage₁⟩ := Encoder.write_ok hversions
  obtain ⟨hdata₂, hpage₂⟩ := Encoder.write_ok hids
  obtain ⟨hdata₃, hpage₃⟩ := Encoder.write_ok htables
  obtain ⟨body, hdata₄, w, hstack, hsome, hout, hwalk⟩ := walkAll_elementContent hsound rfl hmetinf
    hroot hname htexts (by rw [hpage₃, hpage₂, hpage₁]) hbody houtput hdepth helements
  refine ⟨?_, elementContent_tagged root hbody⟩
  -- the version, the public identifier, the charset, the table and the body
  have hwire : o₄.output.data = UInt8.ofNat options.version.toNat :: (bytes ++ (charset ++
      (length ++ ((stringTable root options).table ++ body)))) := by
    rw [hdata₄, hdata₃, hdata₂, hdata₁]
    simp only [List.append_assoc, List.nil_append, List.cons_append]
  have hknown : UInt8.ofNat options.version.toNat = version12 ∨
      UInt8.ofNat options.version.toNat = version13 := by
    rcases hversion with heq | heq <;> rw [heq] <;> decide
  have hheader := @header_eq _ _ _ _ _ _ _ body hknown hns hbytes hcharset hlength htable
  unfold decode
  rw [if_neg (Nat.not_lt.mpr hinput), hwire, hheader]
  dsimp only [bind, Except.bind]
  rw [hwalk]
  dsimp only
  rw [if_neg (not_not.mpr hstack), if_neg hsome, hout]
  rfl

theorem readTree_ok {xml : ElementTree} {payload : List UInt8} (h : readTree xml payload = .ok root) :
    ∃ d, xml.fromstring payload = .ok d ∧ d.root = root ∧ (∀ e ∈ root.iter, e.attributes = []) ∧
      d.doctype = false := by
  unfold readTree at h
  split at h
  · cases h
  · cases h
  · next d hread =>
    split at h
    · cases h
    · next hnone =>
      obtain rfl := Except.ok.inj h
      obtain ⟨hdoctype, -, -, hplain⟩ := refuse_eq_none.mp hnone
      exact ⟨d, hread, rfl, hplain, hdoctype⟩

mutual

theorem same_decoded (hns : ns ≠ metinfNs) :
    (e : Element) → (∀ x ∈ e.iter, Tagged x.tag ∧ x.attributes = []) → Same e (decoded ns e)
  | .node tag attributes text children tail, h => by
    obtain ⟨⟨q, token, rfl, -, -⟩, rfl⟩ := h _ List.mem_cons_self
    have hpage : pageOf ⟨if pageOf q = 0 then ns else metinfNs, q.name⟩ = pageOf q := by
      unfold pageOf
      split_ifs <;> simp_all
    refine ⟨⟨q, _, rfl, rfl, rfl, hpage⟩, rfl, ?_, ?_,
      sameAll_decoded hns children fun x hx => h x (List.mem_cons_of_mem _ hx)⟩
    · split_ifs with hblank
      · obtain ⟨hchildren, hspace⟩ := Bool.and_eq_true_iff.mp hblank
        exact Or.inr ⟨rfl, hspace, by simpa using hchildren⟩
      · exact Or.inl rfl
    · split_ifs with hspace
      · exact Or.inr ⟨rfl, hspace⟩
      · exact Or.inl rfl

theorem sameAll_decoded (hns : ns ≠ metinfNs) :
    (es : List Element) → (∀ x ∈ Element.iterAll es, Tagged x.tag ∧ x.attributes = []) →
      SameAll es (allInPages ns (stripAll es))
  | [], _ => trivial
  | e :: es, h =>
    ⟨same_decoded hns e fun x hx => h x (List.mem_append_left _ hx),
      sameAll_decoded hns es fun x hx => h x (List.mem_append_right _ hx)⟩

end

theorem document_of_encode (xml : ElementTree) {payload : List UInt8} {d : Document}
    (hread : xml.fromstring payload = .ok d) (hns : syncmlNamespace d.root options = some ns)
    (h : encode xml payload options = .ok wire) (hwithin : Within ns d.root wire) :
    decode wire = .ok (utf8 (document ns d.root)) ∧
      parse (document ns d.root).toList = some (decoded ns d.root) ∧ Legal (decoded ns d.root) ∧
      Same d.root (decoded ns d.root) ∧ d.doctype = false := by
  unfold encode at h
  split_ifs at h with hsize hversion
  obtain ⟨root, htree, h⟩ := Except.bind_eq_ok.mp h
  obtain ⟨d', hread', rfl, hplain, hdoctype⟩ := readTree_ok htree
  obtain rfl : d = d' := Except.ok.inj (hread.symm.trans hread')
  split_ifs at h with hname
  rw [hns] at h
  dsimp only at h
  split_ifs at h with hrootNs
  obtain ⟨htail, htexts⟩ := xml.legal hread
  -- indentation is dropped before the tree is written
  have hstripped : ∀ x ∈ (stripBlanks d.root).iter, Textual x := by
    rw [iter_stripBlanks, List.forall_mem_map]
    exact fun x hx => textual_stripBlanks (htexts x hx)
  have htag := tag_stripBlanks d.root
  have hnsStripped : syncmlNamespace (stripBlanks d.root) options = some ns := by
    unfold syncmlNamespace rootNs
    rw [htag]
    exact hns
  have hrootStripped : rootNs (stripBlanks d.root) = "" ∨ rootNs (stripBlanks d.root) = ns := by
    unfold rootNs
    rw [htag]
    exact or_iff_not_imp_left.mpr fun hne => not_not.mp fun hother => hrootNs ⟨hne, hother⟩
  have hnameStripped : (stripBlanks d.root).localName = "SyncML" := by
    unfold Element.localName
    rw [htag]
    exact not_not.mp hname
  have hknown : options.version = 2 ∨ options.version = 3 := by
    have h12 : (version12.toNat : Int) = 2 := rfl
    have h13 : (version13.toNat : Int) = 3 := rfl
    omega
  obtain ⟨hdecode, htags⟩ := decode_encodeTree hknown hnsStripped hrootStripped hnameStripped
    hstripped h hwithin.input hwithin.output (by rw [depth_stripBlanks]; exact hwithin.depth)
    (by rw [iter_stripBlanks, List.length_map]; exact hwithin.elements)
  obtain ⟨id, hid, rfl, -⟩ := publicId_of_namespace hns
  have htailStripped : (stripBlanks d.root).tail = "" := tail_stripBlanks htail
  refine ⟨hdecode, ?_, ⟨(tail_inPages _ _).trans htailStripped, ?_⟩, ?_, hdoctype⟩
  · rw [document, String.toList_ofList]
    exact parse_written hid htailStripped htags hstripped
  · rw [decoded, iter_inPages, List.forall_mem_map]
    exact fun x hx => textual_inPages (hstripped x hx)
  · apply same_decoded (publicIds_spec id hid).1
    rw [iter_stripBlanks, List.forall_mem_map] at htags
    intro x hx
    exact ⟨tag_stripBlanks x ▸ htags x hx, hplain x hx⟩

/-- Whatever the version, the public identifier and the ways of writing text. -/
theorem decode_encode (xml : ElementTree) {payload : List UInt8} {d : Document}
    (hread : xml.fromstring payload = .ok d) (hns : syncmlNamespace d.root options = some ns)
    (h : encode xml payload options = .ok wire) (hwithin : Within ns d.root wire) :
    ∃ out root, decode wire = .ok out ∧ xml.fromstring out = .ok { root } ∧ Same d.root root := by
  obtain ⟨hdecode, hparse, hlegal, hsame, -⟩ := document_of_encode xml hread hns h hwithin
  exact ⟨_, decoded ns d.root, hdecode, xml.plain hparse hlegal, hsame⟩

end RoundTrip
/-! ### A document that goes both ways -/

instance (root : Element) : Decidable (Legal root) := inferInstanceAs (Decidable (_ ∧ _))

def plainXml : ElementTree where
  fromstring payload :=
    match (fromUtf8 payload).bind fun s => parse s.toList with
    | none => .error (.malformed false [])
    | some root => if Legal root then .ok { root } else .error (.malformed false [])
  legal := by
    intro payload d h
    split at h
    · cases h
    · split_ifs at h with hlegal
      exact Except.ok.inj h ▸ hlegal
  plain := by
    intro s root hparse hlegal
    rw [fromUtf8_utf8, Option.bind_some, hparse]
    exact if_pos hlegal

namespace Lab

def ns : String := "SYNCML:SYNCML1.2"

def leaf (name text tail : String) : Element := .node (some ⟨ns, name⟩) [] text [] tail

def tree : Element :=
  .node (some ⟨ns, "SyncML"⟩) [] "\n"
    [leaf "SessionID" "./DevInfo" " ",
      .node (some ⟨ns, "Meta"⟩) [] "" [.node (some ⟨metinfNs, "Type"⟩) [] " <\r" [] ""] "",
      leaf "Data" "./DevInfo" "", leaf "Final" "" ""] ""

def options : Options :=
  { publicId := some (.name "-//SYNCML//DTD SyncML 1.2//EN"), useStringTable := true }

theorem texts_tree : ∀ x ∈ tree.iter, Textual x := by
  unfold Textual
  decide +kernel

theorem tags_tree : ∀ x ∈ tree.iter, Tagged x.tag := by
  have hrun : (elementContent ⟨ns, [], false⟩ tree
      { output := { limit := maxEncodeBytes } }).isOk = true := by decide +kernel
  match h : elementContent ⟨ns, [], false⟩ tree { output := { limit := maxEncodeBytes } } with
  | .ok o => exact elementContent_tagged tree h
  | .error e =>
    rw [h] at hrun
    cases hrun

theorem legal_tree : Legal (inPages ns tree) := by
  decide +kernel

theorem fromstring_tree :
    plainXml.fromstring (utf8 (String.ofList (written ns (declared ns) tree))) =
      .ok { root := inPages ns tree } := by
  have hid : (publicId12, "-//SYNCML//DTD SyncML 1.2//EN", ns) ∈ publicIds := by decide
  have hparse : parse (written ns (declared ns) tree) = some (inPages ns tree) :=
    parse_written hid rfl tags_tree texts_tree
  exact plainXml.plain (by rw [String.toList_ofList]; exact hparse) legal_tree

theorem encode_tree {payload : List UInt8} (hsize : payload.length ≤ maxEncodeXmlBytes)
    (hread : plainXml.fromstring payload = .ok { root := inPages ns tree }) :
    encode plainXml payload options = encodeTree (stripBlanks (inPages ns tree)) options ns := by
  have hroot : readTree plainXml payload = .ok (inPages ns tree) := by
    unfold readTree
    rw [hread]
    dsimp only
    rw [refuse_eq_none.mpr (by decide +kernel)]
  have hns : syncmlNamespace (inPages ns tree) options = some ns := by decide +kernel
  unfold encode
  rw [if_neg (Nat.not_lt.mpr hsize), if_neg (by decide), hroot]
  dsimp only [bind, Except.bind]
  rw [if_neg (by decide +kernel), hns]
  dsimp only
  rw [if_neg (by decide +kernel)]

theorem size_tree :
    (utf8 (String.ofList (written ns (declared ns) tree))).length ≤ maxEncodeXmlBytes := by
  unfold utf8
  rw [String.toList_ofList]
  decide +kernel

theorem within_tree {wire : List UInt8} (h : wire.length ≤ maxInputBytes) :
    Within ns (inPages ns tree) wire := by
  refine ⟨h, ?_, by decide +kernel, by decide +kernel⟩
  unfold document utf8
  rw [String.toList_ofList]
  decide +kernel

theorem ns_tree : syncmlNamespace (inPages ns tree) options = some ns := by decide +kernel

theorem encoded_tree :
    ∃ wire, encode plainXml (utf8 (String.ofList (written ns (declared ns) tree))) options =
      .ok wire ∧ Within ns (inPages ns tree) wire := by
  have hrun : (match encodeTree (stripBlanks (inPages ns tree)) options ns with
      | .ok wire => decide (wire.length ≤ maxInputBytes)
      | .error _ => false) = true := by decide +kernel
  have hencode := encode_tree size_tree fromstring_tree
  split at hrun
  · next wire hwire =>
    rw [hwire] at hencode
    exact ⟨wire, hencode, within_tree (of_decide_eq_true hrun)⟩
  · cases hrun

end Lab

theorem decode_encode_indented :
    ∃ wire out root, encode plainXml
        (utf8 (String.ofList (written Lab.ns (declared Lab.ns) Lab.tree))) Lab.options = .ok wire ∧
      decode wire = .ok out ∧ plainXml.fromstring out = .ok { root } ∧
      Same (inPages Lab.ns Lab.tree) root := by
  obtain ⟨wire, hencode, hwithin⟩ := Lab.encoded_tree
  obtain ⟨out, root, hall⟩ := decode_encode plainXml Lab.fromstring_tree Lab.ns_tree hencode hwithin
  exact ⟨wire, out, root, hencode, hall⟩

end Acs.Wbxml
