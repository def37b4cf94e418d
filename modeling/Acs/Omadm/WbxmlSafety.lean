import Mathlib
import Acs.Data.Building
import Acs.Omadm.WbxmlRoundTrip

/-! Whatever bytes it is given, the decoder refuses them or writes a document of the two tag tables,
within its limits; the encoder takes every such document. -/

namespace Acs.Wbxml
open Xml

section Readers
variable {rest rest' raw table : List UInt8}

theorem take_ok {length : Nat} (h : take length rest = .ok (raw, rest')) :
    rest'.length ≤ rest.length := by
  unfold take at h
  split_ifs at h
  obtain ⟨-, rfl⟩ := Prod.mk.inj (Except.ok.inj h)
  rw [List.length_drop]
  omega

theorem byte_ok {b : UInt8} (h : byte rest = .ok (b, rest')) : rest = b :: rest' := by
  cases rest with
  | nil => exact nomatch h
  | cons c rest =>
    rw [byte_cons] at h
    cases h
    rfl

theorem integerFrom_shrinks {value left n : Nat} (h : integerFrom value left rest = .ok (n, rest')) :
    rest'.length < rest.length := by
  induction left generalizing value rest with
  | zero => exact nomatch h
  | succ left ih =>
    rw [integerFrom] at h
    obtain ⟨⟨b, rest₁⟩, hbyte, hgroup⟩ := Except.bind_eq_ok.mp h
    have hrest : rest = b :: rest₁ := byte_ok hbyte
    rw [hrest, List.length_cons]
    dsimp only at hgroup
    split_ifs at hgroup with hmax hlast
    · cases hgroup
      exact Nat.lt_succ_self _
    · exact (ih hgroup).trans (Nat.lt_succ_self _)

theorem inline_shrinks (h : inline rest = .ok (raw, rest')) : rest'.length < rest.length := by
  unfold inline at h
  split_ifs at h
  obtain ⟨⟨text, rest₁⟩, htext, h⟩ := Except.bind_eq_ok.mp h
  obtain ⟨⟨zero, rest₂⟩, hzero, h⟩ := Except.bind_eq_ok.mp h
  cases h
  have hless := take_ok htext
  unfold take at hzero
  split_ifs at hzero
  obtain ⟨-, rfl⟩ := Prod.mk.inj (Except.ok.inj hzero)
  rw [List.length_drop]
  omega

theorem rawText_shrinks {token : UInt8} (h : rawText table token rest = .ok (raw, rest')) :
    rest'.length < rest.length := by
  unfold rawText at h
  split_ifs at h
  · exact inline_shrinks h
  all_goals obtain ⟨⟨n, rest₁⟩, hinteger, h⟩ := Except.bind_eq_ok.mp h
  · obtain ⟨text, -, h⟩ := Except.bind_eq_ok.mp h
    cases h
    exact integerFrom_shrinks hinteger
  · exact (take_ok h).trans_lt (integerFrom_shrinks hinteger)

end Readers

/-! ### The document that the loop is writing -/

def Known (ns : String) : Prop := ∃ id ∈ publicIds, id.2.2 = ns

def Listed (ns : String) (q : QName) : Prop :=
  ∃ token, (q.ns = ns ∧ (token, q.name) ∈ syncmlTags) ∨
    (q.ns = metinfNs ∧ (token, q.name) ∈ metinfTags)

/-- The root declares the two namespaces, and nothing else declares any. -/
def OnlyRootDeclares (ns : String) (chunks : List Chunk) : Prop :=
  (∀ c ∈ chunks.head?, c.tag.namespaces = declared ns) ∧ ∀ c ∈ chunks.tail, c.tag.namespaces = []

/-- The tags and texts of the loop's output, and what they have built. -/
structure Tracks (ns : String) (w : Walk) (chunks : List Chunk) (b : Builder) : Prop where
  page : w.page < 2
  limit : w.output.limit = maxXmlBytes
  within : w.output.data.length ≤ maxXmlBytes
  data : w.output.data = utf8 (String.ofList (render chunks))
  valid : ∀ c ∈ chunks, c.Valid
  declares : OnlyRootDeclares ns chunks
  run : Builder.run chunks = some b
  sound : b.Sound (Listed ns) (declared ns) maxDepth
  names : b.names = w.stack
  named : ∀ name ∈ w.stack, Named name
  size : b.size = w.elements
  few : w.elements ≤ maxElements
  fresh : w.elements = 0 → chunks = []
  unfinished : b.root = none ↔ w.elements = 0 ∨ w.stack ≠ []
  rootTag : w.elements ≠ 0 → b.rootTag = some ⟨ns, "SyncML"⟩

section Loop
variable {ns : String} {table : List UInt8} {w w' : Walk} {rest rest' : List UInt8}
  {chunks : List Chunk} {b : Builder} {token : UInt8}

theorem OnlyRootDeclares.concat (h : OnlyRootDeclares ns chunks) {c : Chunk}
    (hc : c.tag.namespaces = if chunks = [] then declared ns else []) :
    OnlyRootDeclares ns (chunks ++ [c]) := by
  cases chunks with
  | nil => exact ⟨by simpa using hc, nofun⟩
  | cons first chunks =>
    rw [if_neg (List.cons_ne_nil _ _)] at hc
    refine ⟨h.1, ?_⟩
    simp only [List.cons_append, List.tail_cons, List.forall_mem_append, List.forall_mem_singleton]
    exact ⟨h.2, hc⟩

theorem OnlyRootDeclares.text {c : Chunk} (h : OnlyRootDeclares ns (chunks ++ [c])) (text : String) :
    OnlyRootDeclares ns (chunks ++ [⟨c.tag, text⟩]) := by
  cases chunks with
  | nil => exact ⟨by simpa using h.1, nofun⟩
  | cons first chunks =>
    refine ⟨h.1, ?_⟩
    have htail := h.2
    simp only [List.cons_append, List.tail_cons, List.forall_mem_append,
      List.forall_mem_singleton] at htail ⊢
    exact htail

theorem Output.write_within {o o' : Output} {data : List UInt8} (h : o.write data = .ok o')
    (hwithin : o.data.length ≤ o.limit) : o'.limit = o.limit ∧ o'.data.length ≤ o.limit := by
  unfold Output.write at h
  split_ifs at h
  cases h
  refine ⟨rfl, ?_⟩
  rw [List.length_append]
  omega

namespace Tracks

theorem start : Tracks ns {} [] {} where
  page := Nat.zero_lt_two
  limit := rfl
  within := Nat.zero_le _
  data := rfl
  valid := nofun
  declares := ⟨nofun, nofun⟩
  run := rfl
  sound := ⟨trivial, nofun⟩
  names := rfl
  named := nofun
  size := rfl
  few := Nat.zero_le _
  fresh _ := rfl
  unfinished := ⟨fun _ => Or.inl rfl, fun _ => rfl⟩
  rootTag h := absurd rfl h

theorem stack_length (h : Tracks ns w chunks b) : b.stack.length = w.stack.length := by
  rw [← h.names, Builder.names, List.length_map]

theorem builder_fresh (h : Tracks ns w chunks b) (hnone : chunks = []) : b = {} := by
  have hrun := h.run
  rw [hnone] at hrun
  exact (Option.some.inj hrun).symm

theorem chunks_ne_nil (h : Tracks ns w chunks b) (hsome : w.stack ≠ []) : chunks ≠ [] := by
  intro hnone
  refine hsome ?_
  rw [← h.names, h.builder_fresh hnone]
  rfl

theorem elements_ne_zero (h : Tracks ns w chunks b) (hsome : w.stack ≠ []) : w.elements ≠ 0 :=
  fun hzero => h.chunks_ne_nil hsome (h.fresh hzero)

theorem write (h : Tracks ns w chunks b) {data : List UInt8} {o : Output}
    (hwrite : w.output.write data = .ok o) :
    o.limit = maxXmlBytes ∧ o.data.length ≤ maxXmlBytes ∧
      o.data = utf8 (String.ofList (render chunks)) ++ data := by
  obtain ⟨hlimit, hwithin⟩ := Output.write_within hwrite (h.limit ▸ h.within)
  rw [h.limit] at hlimit hwithin
  exact ⟨hlimit, hwithin, by rw [Output.write_ok hwrite, h.data]⟩

theorem data_concat {tag : Tag} :
    utf8 (String.ofList (render chunks)) ++ utf8 (String.ofList ('<' :: tag.body ++ ['>'])) =
      utf8 (String.ofList (render (chunks ++ [⟨tag, ""⟩]))) := by
  rw [render_concat, ← utf8_ofList_append]
  simp [escape]

theorem noText : ∀ c ∈ "".toList, isXmlChar c = true := by simp

theorem pageToken (h : Tracks ns w chunks b) (hpage : Wbxml.pageToken w rest = .ok (w', rest')) :
    rest'.length < rest.length ∧ Tracks ns w' chunks b := by
  unfold Wbxml.pageToken at hpage
  obtain ⟨⟨page, rest₁⟩, hbyte, hpage⟩ := Except.bind_eq_ok.mp hpage
  have hrest : rest = page :: rest₁ := byte_ok hbyte
  dsimp only at hpage
  split_ifs at hpage with hmany
  cases hpage
  rw [hrest]
  refine ⟨Nat.lt_succ_self _, { h with page := Nat.lt_of_not_le hmany }⟩

theorem endTag (h : Tracks ns w chunks b) (hend : Wbxml.endTag w = .ok w') :
    ∃ chunks' b', Tracks ns w' chunks' b' := by
  unfold Wbxml.endTag at hend
  cases hstack : w.stack with
  | nil =>
    rw [hstack] at hend
    cases hend
  | cons name stack =>
    rw [hstack] at hend
    obtain ⟨output, hwrite, hend⟩ := Except.bind_eq_ok.mp hend
    cases hend
    have hne : w.stack ≠ [] := by simp [hstack]
    have hroot : b.root = none := h.unfinished.mpr (Or.inr hne)
    -- the innermost open element is the one that ends
    obtain ⟨top, below, hopen, hname, hbelow⟩ :
        ∃ top below, b.stack = top :: below ∧ top.name = name ∧ below.map Open.name = stack :=
      List.map_eq_cons_iff.mp (h.names.trans hstack)
    obtain ⟨b', hstep, hnames, hunfinished⟩ := Builder.stop_exists hroot hopen
    rw [hname] at hstep
    have hvalid : Named name := h.named name (by simp [hstack])
    have htext : "</" ++ name ++ ">" = String.ofList ('<' :: (Tag.stop name).body ++ ['>']) := by
      rw [← String.toList_inj, String.toList_ofList]
      simp [Tag.body]
    obtain ⟨hlimit, hwithin, hdata⟩ := h.write hwrite
    rw [htext, data_concat] at hdata
    obtain ⟨-, hsize, -⟩ := Builder.step_spec hstep
    have hchunks := h.chunks_ne_nil hne
    have hsome := h.elements_ne_zero hne
    have hcontent : b.stack ≠ [] := by simp [hopen]
    have hall : ∀ c ∈ chunks ++ [⟨.stop name, ""⟩], c.Valid := by
      rw [List.forall_mem_append, List.forall_mem_singleton]
      exact ⟨h.valid, hvalid, noText⟩
    exact ⟨chunks ++ [⟨.stop name, ""⟩], b',
      { page := h.page
        limit := hlimit
        within := hwithin
        data := by rw [hdata]
        valid := hall
        declares := h.declares.concat (if_neg hchunks).symm
        run := by rw [Builder.run_concat, h.run]; exact hstep
        sound := h.sound.step hstep trivial noText
        names := hnames.trans hbelow
        named := fun other hother => h.named other (hstack ▸ List.mem_cons_of_mem _ hother)
        size := hsize.trans h.size
        few := h.few
        fresh := fun hzero => absurd hzero hsome
        unfinished := by simpa [hsome, ← hbelow] using hunfinished
        rootTag := fun _ => ((Builder.step_rootTag hstep).2 hcontent).trans (h.rootTag hsome) }⟩

theorem textToken (h : Tracks ns w chunks b)
    (htoken : Wbxml.textToken table token w rest = .ok (w', rest')) :
    rest'.length < rest.length ∧ ∃ chunks' b', Tracks ns w' chunks' b' := by
  unfold Wbxml.textToken at htoken
  split_ifs at htoken with hstack
  obtain ⟨⟨raw, rest₁⟩, hraw, htoken⟩ := Except.bind_eq_ok.mp htoken
  obtain ⟨text, htext, htoken⟩ := Except.bind_eq_ok.mp htoken
  obtain ⟨output, hwrite, htoken⟩ := Except.bind_eq_ok.mp htoken
  cases htoken
  refine ⟨rawText_shrinks hraw, ?_⟩
  have hchars : ∀ c ∈ text.toList, isXmlChar c := by
    unfold utf8Text at htext
    split at htext
    · cases htext
    · split_ifs at htext with hall
      cases htext
      exact List.all_eq_true.mp hall
  have hopen : b.stack ≠ [] := by
    intro hnil
    exact hstack (by rw [← h.names, Builder.names, hnil]; rfl)
  have hroot : b.root = none := h.unfinished.mpr (Or.inr hstack)
  -- the text belongs to the last tag
  obtain ⟨before, c, rfl⟩ : ∃ before c, chunks = before ++ [c] :=
    (List.eq_nil_or_concat' chunks).resolve_left (h.chunks_ne_nil hstack)
  obtain ⟨hlimit, hwithin, hdata⟩ := h.write hwrite
  have hlast : utf8 (String.ofList (render (before ++ [c]))) ++ utf8 (String.ofList (escape text)) =
      utf8 (String.ofList (render (before ++ [⟨c.tag, c.text ++ text⟩]))) := by
    rw [render_concat, render_concat, ← utf8_ofList_append]
    simp [escape, String.toList_append, List.flatMap_append]
  obtain ⟨hsize, -, hnames, hsame⟩ := Builder.addText_spec hopen text
  obtain ⟨hbefore, hc⟩ := List.forall_mem_append.mp h.valid
  obtain ⟨hctag, hctext⟩ := List.forall_mem_singleton.mp hc
  have hall : ∀ d ∈ before ++ [⟨c.tag, c.text ++ text⟩], d.Valid := by
    rw [List.forall_mem_append, List.forall_mem_singleton]
    refine ⟨hbefore, hctag, ?_⟩
    rw [String.toList_append, List.forall_mem_append]
    exact ⟨hctext, hchars⟩
  exact ⟨before ++ [⟨c.tag, c.text ++ text⟩], b.addText text,
    { page := h.page
      limit := hlimit
      within := hwithin
      data := by rw [hdata, hlast]
      valid := hall
      declares := h.declares.text _
      run := Builder.run_addText h.run hopen text
      sound := h.sound.addText hchars
      names := hnames.trans h.names
      named := h.named
      size := hsize.trans h.size
      few := h.few
      fresh := fun hzero => absurd hzero (h.elements_ne_zero hstack)
      unfinished := by rw [hsame]; exact h.unfinished
      rootTag := fun hsome => (Builder.addText_rootTag hopen hroot text).trans (h.rootTag hsome) }⟩

theorem scope (h : Tracks ns w chunks b) (hplace : w.elements = 0 ∨ w.stack ≠ []) :
    w.namespaces ns ++ b.scope = declared ns := by
  by_cases hzero : w.elements = 0
  · rw [Walk.namespaces, if_pos hzero, h.builder_fresh (h.fresh hzero)]
    exact List.append_nil _
  · obtain ⟨top, below, hstack⟩ : ∃ top below, b.stack = top :: below := by
      apply List.exists_cons_of_ne_nil
      intro hnil
      exact hplace.resolve_left hzero (by rw [← h.names, Builder.names, hnil]; rfl)
    have hsound := h.sound.stack
    rw [hstack] at hsound
    rw [Walk.namespaces, if_neg hzero, List.nil_append, Builder.scope, hstack]
    exact hsound.1.scope

theorem startTag_ok (h : Wbxml.startTag ns token w = .ok w') :
    ∃ name output closed, (token &&& 0x3F, name) ∈ tagPages.getD w.page [] ∧
      w.stack.length < maxDepth ∧ w.elements < maxElements ∧
      (w.elements = 0 → w.page = 0 ∧ name = "SyncML") ∧
      w.output.write (utf8 (String.ofList ('<' ::
        (Tag.start (qualifiedName w.page name) (w.namespaces ns) closed).body ++ ['>']))) =
          .ok output ∧
      w' = { w with
        output
        elements := w.elements + 1
        stack := if closed then w.stack else qualifiedName w.page name :: w.stack } := by
  unfold Wbxml.startTag at h
  split at h
  · cases h
  split at h
  · cases h
  split at h
  · cases h
  next name hlookup =>
  split at h
  · cases h
  next hdepth =>
  split at h
  · cases h
  next hmany =>
  split at h
  · cases h
  next hfirst =>
  dsimp only at h
  obtain ⟨output, hwrite, h⟩ := Except.bind_eq_ok.mp h
  generalize hclosed : decide (token &&& content = 0) = closed
  -- the decoder spells a tag piece by piece
  have htext : "<" ++ qualifiedName w.page name ++
      (if w.elements + 1 = 1 then " xmlns=\"" ++ ns ++ "\" xmlns:metinf=\"" ++ metinfNs ++ "\""
        else "") ++ (if token &&& content ≠ 0 then ">" else "/>") =
      String.ofList ('<' ::
        (Tag.start (qualifiedName w.page name) (w.namespaces ns) closed).body ++ ['>']) := by
    rw [← String.toList_inj, String.toList_ofList]
    cases closed <;> by_cases hroot : w.elements = 0 <;>
      simp_all [Tag.body, Walk.namespaces, declared, declaration]
  refine ⟨name, output, closed, mem_of_lookup hlookup, Nat.lt_of_not_le hdepth, by omega, ?_,
    htext ▸ hwrite, ?_⟩
  · intro hzero
    by_contra hother
    exact hfirst ⟨by omega, not_and_or.mp hother⟩
  · cases h
    cases closed <;> simp_all

theorem startTag (h : Tracks ns w chunks b) (hns : Known ns)
    (hplace : w.elements = 0 ∨ w.stack ≠ []) (hstart : Wbxml.startTag ns token w = .ok w') :
    ∃ chunks' b', Tracks ns w' chunks' b' := by
  obtain ⟨name, output, closed, hentry, hdepth, hmany, hfirst, hwrite, rfl⟩ := startTag_ok hstart
  obtain ⟨hname, hresolves⟩ := names_spec _ h.page _ hentry
  obtain ⟨id, hid, rfl⟩ := hns
  have hresolve := hresolves id hid
  obtain ⟨-, hdeclares, hdistinct⟩ := publicIds_spec id hid
  dsimp only at hname hresolve
  obtain ⟨hlimit, hwithin, hdata⟩ := h.write hwrite
  rw [data_concat] at hdata
  have hscope := h.scope hplace
  have hroot : b.root = none := h.unfinished.mpr hplace
  obtain ⟨b', hstep, hnames, hunfinished⟩ :=
    Builder.start_exists closed hroot (hscope ▸ hresolve)
  obtain ⟨-, hsize, -⟩ := Builder.step_spec hstep
  -- what has been written so far is the text of the chunks, and the new tag is one more
  have hall : ∀ c ∈ chunks ++
      [⟨.start (qualifiedName w.page name) (w.namespaces id.2.2) closed, ""⟩], c.Valid := by
    rw [List.forall_mem_append, List.forall_mem_singleton]
    refine ⟨h.valid, ⟨hname, ?_⟩, noText⟩
    unfold Walk.namespaces
    split_ifs
    · exact ⟨hdeclares, hdistinct⟩
    · exact ⟨fun _ h => (by cases h), List.nodup_nil⟩
  have hlisted : Listed id.2.2 ⟨if w.page = 0 then id.2.2 else metinfNs, name⟩ := by
    have hpage : w.page = 0 ∨ w.page = 1 := by have := h.page; omega
    rcases hpage with hpage | hpage <;> rw [hpage] at hentry ⊢
    · exact ⟨_, Or.inl ⟨rfl, hentry⟩⟩
    · exact ⟨_, Or.inr ⟨rfl, hentry⟩⟩
  have hadmits : b.Admits (Listed id.2.2) (declared id.2.2) maxDepth
      (.start (qualifiedName w.page name) (w.namespaces id.2.2) closed) := by
    refine ⟨hscope, fun q hq => ?_, ?_⟩
    · rw [hresolve] at hq
      cases hq
      exact hlisted
    · rw [h.stack_length]
      exact hdepth
  -- the tag is the first one just when it is that of the root
  have hfresh : chunks = [] ↔ w.elements = 0 := by
    refine ⟨fun hnil => ?_, h.fresh⟩
    rw [← h.size, h.builder_fresh hnil]
    rfl
  have hnamespaces : w.namespaces id.2.2 = if chunks = [] then declared id.2.2 else [] := by
    rw [Walk.namespaces]
    simp only [hfresh]
  have hqualified : Named (qualifiedName w.page name) := hname
  refine ⟨_, b',
    { page := h.page
      limit := hlimit
      within := hwithin
      data := by rw [hdata]
      valid := hall
      declares := h.declares.concat hnamespaces
      run := by rw [Builder.run_concat, h.run]; exact hstep
      sound := h.sound.step hstep hadmits noText
      names := by rw [hnames, h.names]
      named := ?_
      size := hsize.trans (congrArg (· + 1) h.size)
      few := hmany
      fresh := fun h => absurd h (Nat.succ_ne_zero _)
      unfinished := ?_
      rootTag := fun _ => ?_ }⟩
  · dsimp only
    split_ifs
    · exact h.named
    · exact List.forall_mem_cons.mpr ⟨hqualified, h.named⟩
  · have hempty : b.stack = [] ↔ w.stack = [] := by
      rw [← h.names, Builder.names, List.map_eq_nil_iff]
    rw [hunfinished]
    cases closed <;> simp [hempty]
  · obtain ⟨hroots, hbelow⟩ := Builder.step_rootTag hstep
    by_cases hzero : w.elements = 0
    · obtain ⟨hpage, rfl⟩ := hfirst hzero
      have hnil : b.stack = [] := by rw [h.builder_fresh (h.fresh hzero)]
      obtain ⟨_, _, _, htag, hrootTag⟩ := hroots hnil
      cases htag
      rw [hrootTag, hscope, hresolve, if_pos hpage]
    · have hne : b.stack ≠ [] := by
        intro hnil
        exact hplace.resolve_left hzero (by rw [← h.names, Builder.names, hnil]; rfl)
      rw [hbelow hne]
      exact h.rootTag hzero

theorem walk (h : Tracks ns w chunks b) (hns : Known ns)
    (hwalk : Wbxml.walk ns table w rest = .ok (w', rest')) :
    rest'.length < rest.length ∧ ∃ chunks' b', Tracks ns w' chunks' b' := by
  unfold Wbxml.walk at hwalk
  split_ifs at hwalk with htrailing
  have hplace : w.elements = 0 ∨ w.stack ≠ [] :=
    or_iff_not_imp_left.mpr fun hsome hnil => htrailing ⟨hsome, hnil⟩
  obtain ⟨⟨token, rest₁⟩, hbyte, hwalk⟩ := Except.bind_eq_ok.mp hwalk
  have hrest : rest = token :: rest₁ := byte_ok hbyte
  have hless : rest₁.length < rest.length := hrest ▸ Nat.lt_succ_self _
  dsimp only [anyToken] at hwalk
  split_ifs at hwalk
  · obtain ⟨hshrinks, hsame⟩ := h.pageToken hwalk
    exact ⟨hshrinks.trans hless, chunks, b, hsame⟩
  · obtain ⟨w₁, hend, hw⟩ := Except.map_eq_ok.mp hwalk
    cases hw
    exact ⟨hless, h.endTag hend⟩
  · obtain ⟨hshrinks, hmore⟩ := h.textToken hwalk
    exact ⟨hshrinks.trans hless, hmore⟩
  · obtain ⟨w₁, hstart, hw⟩ := Except.map_eq_ok.mp hwalk
    cases hw
    exact ⟨hless, h.startTag hns hplace hstart⟩

theorem walkAll (h : Tracks ns w chunks b) (hns : Known ns) {passes : Nat}
    (hwalk : Wbxml.walkAll ns table passes w rest = .ok w') :
    ∃ chunks' b', Tracks ns w' chunks' b' := by
  induction passes generalizing w rest chunks b with
  | zero =>
    cases hwalk
    exact ⟨chunks, b, h⟩
  | succ passes ih =>
    rw [Wbxml.walkAll] at hwalk
    split_ifs at hwalk with hnil
    · cases hwalk
      exact ⟨chunks, b, h⟩
    · obtain ⟨⟨w₁, rest₁⟩, hpass, hwalk⟩ := Except.bind_eq_ok.mp hwalk
      obtain ⟨-, chunks₁, b₁, h₁⟩ := h.walk hns hpass
      exact ih h₁ hwalk

/-- The loop ends when the bytes do: more passes make no difference. -/
theorem walkAll_enough (h : Tracks ns w chunks b) (hns : Known ns) {passes more : Nat}
    (hpasses : rest.length ≤ passes) (hmore : rest.length ≤ more) :
    Wbxml.walkAll ns table passes w rest = Wbxml.walkAll ns table more w rest := by
  induction passes generalizing w rest chunks b more with
  | zero =>
    obtain rfl : rest = [] := List.length_eq_zero_iff.mp (Nat.le_zero.mp hpasses)
    cases more <;> rfl
  | succ passes ih =>
    by_cases hnil : rest = []
    · subst hnil
      cases more <;> rfl
    · have hlength : 0 < rest.length := List.length_pos_iff.mpr hnil
      obtain ⟨more, rfl⟩ : ∃ n, more = n + 1 := ⟨more - 1, by omega⟩
      rw [Wbxml.walkAll, Wbxml.walkAll, if_neg hnil, if_neg hnil]
      cases hpass : Wbxml.walk ns table w rest with
      | error e => rfl
      | ok next =>
        obtain ⟨w₁, rest₁⟩ := next
        obtain ⟨hless, chunks₁, b₁, h₁⟩ := h.walk hns hpass
        exact ih h₁ (by omega) (by omega)

end Tracks
end Loop

/-- The document that the decoder gives out. -/
structure SafeDocument (ns text : String) (root : Element) : Prop where
  size : (utf8 text).length ≤ maxXmlBytes
  parsed : parse text.toList = some root
  legal : Legal root
  declares : ∃ chunks, readChunks text.toList = some chunks ∧ OnlyRootDeclares ns chunks
  tag : root.tag = some ⟨ns, "SyncML"⟩
  listed : ∀ x ∈ root.iter, ∃ q, x.tag = some q ∧ Listed ns q
  plain : ∀ x ∈ root.iter, x.attributes = []
  elements : root.iter.length ≤ maxElements
  depth : root.depth ≤ maxDepth

theorem known_of_header {payload table body : List UInt8} {ns : String}
    (h : header payload = .ok (ns, table, body)) : Known ns := by
  unfold header at h
  obtain ⟨⟨version, rest⟩, -, hpublic⟩ := Except.bind_eq_ok.mp h
  dsimp only at hpublic
  split_ifs at hpublic
  obtain ⟨⟨publicId, rest₁⟩, -, hoffset⟩ := Except.bind_eq_ok.mp hpublic
  obtain ⟨⟨offset, rest₂⟩, -, hcharset⟩ := Except.bind_eq_ok.mp hoffset
  obtain ⟨⟨charset, rest₃⟩, -, hlength⟩ := Except.bind_eq_ok.mp hcharset
  dsimp only at hlength
  split_ifs at hlength
  obtain ⟨⟨length, rest₄⟩, -, htable⟩ := Except.bind_eq_ok.mp hlength
  obtain ⟨⟨table', rest₅⟩, -, hid⟩ := Except.bind_eq_ok.mp htable
  obtain ⟨id, -, hns⟩ := Except.bind_eq_ok.mp hid
  split at hns
  · cases hns
  · next name ns' hlookup =>
    cases hns
    exact ⟨_, mem_of_lookup hlookup, rfl⟩

theorem Tracks.document {ns : String} {w : Walk} {chunks : List Chunk} {b : Builder}
    (h : Tracks ns w chunks b) (hstack : w.stack = []) (hsome : w.elements ≠ 0) :
    ∃ text root, w.output.data = utf8 text ∧ SafeDocument ns text root ∧
      Element.mass [root] ≤ (utf8 text).length := by
  have hopen : b.stack = [] := by
    rw [← List.map_eq_nil_iff (f := Open.name)]
    exact h.names.trans hstack
  obtain ⟨root, hroot⟩ : ∃ root, b.root = some root := by
    rw [← Option.ne_none_iff_exists']
    intro hnone
    exact (h.unfinished.mp hnone).elim hsome fun hne => hne hstack
  obtain ⟨htail, hdepth, hall⟩ := h.sound.root root hroot
  have hbytes : (utf8 (String.ofList (render chunks))).length ≤ maxXmlBytes := h.data ▸ h.within
  have hread := readChunks_render h.valid
  have hiter : Element.iterAll b.root.toList = root.iter := by
    rw [hroot]
    exact Element.iterAll_singleton root
  have hsize : b.size = root.iter.length := by
    rw [Builder.size, hopen, hiter]
    exact Nat.zero_add _
  have hmass : b.mass = Element.mass [root] := by
    rw [Builder.mass, hopen, hroot]
    exact Nat.zero_add _
  refine ⟨String.ofList (render chunks), root, h.data,
    { size := hbytes
      parsed := ?_
      legal := ⟨htail, fun x hx => ⟨(hall x hx).text, (hall x hx).tail⟩⟩
      declares := ⟨chunks, by rw [String.toList_ofList, hread], h.declares⟩
      tag := ?_
      listed := fun x hx => (hall x hx).tag
      plain := fun x hx => (hall x hx).attributes
      elements := by rw [← hsize, h.size]; exact h.few
      depth := hdepth }, hmass ▸ Builder.mass_le_render h.run⟩
  · have hrun : chunks.foldlM Builder.step {} = some b := h.run
    rw [String.toList_ofList, parse, hread, Option.bind_some, build, hrun, Option.bind_some, hroot]
  · have htag := h.rootTag hsome
    rwa [Builder.rootTag, hroot] at htag

/-! ### The encoder has room for it -/

/-- A step of the encoder that succeeds where there is room for `n` bytes, and writes no more. -/
def Costs (n : Nat) (step : Encoder → Except WbxmlError Encoder) : Prop :=
  ∀ o : Encoder, o.output.Room n → ∃ o', step o = .ok o' ∧ o'.output.limit = o.output.limit ∧
    o'.output.data.length ≤ o.output.data.length + n

section Costs
variable {n m : Nat} {step next : Encoder → Except WbxmlError Encoder}

theorem Costs.mono (h : Costs n step) (hle : n ≤ m) : Costs m step := by
  intro o hroom
  unfold Output.Room at hroom
  obtain ⟨o', hstep, hlimit, hlength⟩ := h o (by unfold Output.Room; omega)
  exact ⟨o', hstep, hlimit, by omega⟩

theorem Costs.nothing : Costs n (Except.ok ·) := fun o _ => ⟨o, rfl, rfl, Nat.le_add_right _ _⟩

theorem Costs.bind (h : Costs n step) (hnext : Costs m next) :
    Costs (n + m) fun o => step o >>= next := by
  intro o hroom
  unfold Output.Room at hroom
  obtain ⟨o₁, hstep, hlimit, hlength⟩ := h o (by unfold Output.Room; omega)
  obtain ⟨o₂, hstep₂, hlimit₂, hlength₂⟩ := hnext o₁ (by unfold Output.Room; omega)
  refine ⟨o₂, ?_, hlimit₂.trans hlimit, by omega⟩
  change (step o >>= next) = _
  rw [hstep]
  exact hstep₂

theorem Costs.write (data : List UInt8) : Costs data.length (Encoder.write · data) := by
  intro o hroom
  refine ⟨{ o with output := { o.output with data := o.output.data ++ data } }, ?_, rfl, ?_⟩
  · change (Encoder.write o data) = _
    unfold Encoder.write
    rw [Output.write_eq hroom]
    rfl
  · exact Nat.le_of_eq List.length_append

theorem Costs.switch (page : Nat) : Costs 2 (Encoder.switch · page) := by
  intro o hroom
  by_cases hsame : page = o.page
  · exact ⟨o, if_pos hsame, rfl, Nat.le_add_right _ _⟩
  · obtain ⟨o', hwrite, hlimit, hlength⟩ := Costs.write [switchPage, UInt8.ofNat page] o hroom
    refine ⟨{ o' with page }, ?_, hlimit, hlength⟩
    change (Encoder.switch o page) = _
    dsimp only at hwrite
    rw [Encoder.switch, if_neg hsame, hwrite]
    rfl

variable {env : Encoding}

theorem Costs.text (hoffsets : env.offsets = []) (hverbatim : env.opaqueText = false) (text : String) :
    Costs ((utf8 text).length + 2) (textContent env text) := by
  have hstep : textContent env text =
      fun o => if text = "" then .ok o else o.write (strI :: utf8 text ++ [0x00]) := by
    funext o
    rw [textContent, hverbatim, hoffsets]
    rfl
  rw [hstep]
  by_cases hempty : text = ""
  · simp only [hempty, if_true]
    exact Costs.nothing
  · simp only [hempty, if_false]
    refine (Costs.write (strI :: utf8 text ++ [0x00])).mono ?_
    rw [List.cons_append, List.length_cons, List.length_append, List.length_singleton]

/-- The bytes that the encoder may need for some elements. -/
def weight (es : List Element) : Nat := 8 * (Element.iterAll es).length + Element.mass es

def bare (e : Element) : Nat := 6 + (utf8 e.text).length + weight e.children

theorem weight_cons (e : Element) (es : List Element) :
    weight (e :: es) = bare e + ((utf8 e.tail).length + 2) + weight es := by
  cases e with
  | node tag attributes text children tail =>
    have hmass := Element.mass_append [.node tag attributes text children tail] es
    rw [Element.mass_node, List.singleton_append] at hmass
    rw [weight, hmass, Element.iterAll, Element.iter, List.length_append, List.length_cons, bare,
      weight, weight, Element.text, Element.children, Element.tail]
    omega

theorem Listed.tagged {ns : String} {q : QName} (h : Listed ns q) (hns : ns ≠ metinfNs) :
    (q.ns = ns ∨ q.ns = metinfNs) ∧ pageOf q < 2 ∧
      ∃ token, (token, q.name) ∈ tagPages.getD (pageOf q) [] := by
  obtain ⟨token, ⟨hq, hentry⟩ | ⟨hq, hentry⟩⟩ := h
  · have hpage : pageOf q = 0 := if_neg (hq ▸ hns)
    rw [hpage]
    exact ⟨Or.inl hq, by decide, token, hentry⟩
  · have hpage : pageOf q = 1 := if_pos hq
    rw [hpage]
    exact ⟨Or.inr hq, by decide, token, hentry⟩

theorem tagToken_listed {q : QName} (hns : env.syncmlNamespace ≠ metinfNs)
    (h : Listed env.syncmlNamespace q) : ∃ token, tagToken env (some q) = .ok (pageOf q, token) := by
  have hnames : ∀ page < 2, ∀ entry ∈ tagPages.getD page [],
      ((tagTokens.getD page []).lookup entry.2).isSome := by
    decide +kernel
  obtain ⟨hq, hpage, token, hentry⟩ := h.tagged hns
  obtain ⟨found, hfound⟩ := Option.isSome_iff_exists.mp (hnames _ hpage _ hentry)
  have hknown : ¬ (q.ns ≠ "" ∧ q.ns ≠ env.syncmlNamespace ∧ q.ns ≠ metinfNs) :=
    fun hother => hq.elim hother.2.1 hother.2.2
  refine ⟨found, ?_⟩
  have hlookup : (tagTokens.getD (if q.ns = metinfNs then 1 else 0) []).lookup q.name = some found :=
    hfound
  simp only [tagToken, Option.map_some, Option.getD_some]
  rw [if_neg hknown, hlookup]
  rfl

/-- An encoding that writes its texts where they stand. -/
structure Encoding.Inline (env : Encoding) : Prop where
  ns : env.syncmlNamespace ≠ metinfNs
  offsets : env.offsets = []
  opaqueText : env.opaqueText = false

mutual

theorem elementContent_costs (henv : env.Inline) :
    (e : Element) → (∀ x ∈ e.iter, ∃ q, x.tag = some q ∧ Listed env.syncmlNamespace q) →
      Costs (bare e) (elementContent env e)
  | .node tag attributes text children tail, htags => by
    obtain ⟨q, rfl, hlisted⟩ := htags _ List.mem_cons_self
    obtain ⟨token, htoken⟩ := tagToken_listed henv.ns hlisted
    have hbelow := childrenContent_costs henv children fun x hx => htags x (List.mem_cons_of_mem _ hx)
    have htext := Costs.text henv.offsets henv.opaqueText text
    -- the switch, the tag, the text, the children and the end
    have hopen := ((Costs.switch (pageOf q)).bind ((Costs.write [token ||| content]).bind
      (htext.bind (hbelow.bind (Costs.write [endToken])))))
    have hclosed := (Costs.switch (pageOf q)).bind (Costs.write [token])
    have hstep : elementContent env (.node (some q) attributes text children tail) =
        fun o => o.switch (pageOf q) >>= fun o =>
          if text ≠ "" ∨ !children.isEmpty then
            o.write [token ||| content] >>= fun o => textContent env text o >>= fun o =>
              childrenContent env children o >>= fun o => o.write [endToken]
          else o.write [token] := by
      funext o
      rw [elementContent, htoken]
      rfl
    rw [hstep]
    split_ifs with hcontent
    · refine hopen.mono ?_
      simp only [bare, Element.text, Element.children, List.length_singleton]
      omega
    · refine hclosed.mono ?_
      simp only [bare, List.length_singleton]
      omega

theorem childrenContent_costs (henv : env.Inline) :
    (es : List Element) →
      (∀ x ∈ Element.iterAll es, ∃ q, x.tag = some q ∧ Listed env.syncmlNamespace q) →
      Costs (weight es) (childrenContent env es)
  | [], _ => by
    have hstep : childrenContent env [] = fun o => .ok o := by
      funext o
      rw [childrenContent]
    rw [hstep]
    exact Costs.nothing
  | e :: es, htags => by
    have hfirst := elementContent_costs henv e fun x hx => htags x (List.mem_append_left _ hx)
    have hrest := childrenContent_costs henv es fun x hx => htags x (List.mem_append_right _ hx)
    have hstep : childrenContent env (e :: es) = fun o => elementContent env e o >>= fun o =>
        textContent env e.tail o >>= fun o => childrenContent env es o := by
      funext o
      rw [childrenContent]
    rw [hstep, weight_cons, Nat.add_assoc]
    exact hfirst.bind ((Costs.text henv.offsets henv.opaqueText e.tail).bind hrest)

end

end Costs

theorem highGroups_length (bound : Nat) {value : Nat} (hbound : value < 128 ^ bound)
    (below : List UInt8) : (highGroups value below).length ≤ bound + below.length := by
  induction bound generalizing value below with
  | zero =>
    obtain rfl : value = 0 := by omega
    rw [highGroups, dif_pos rfl]
    omega
  | succ bound ih =>
    rw [highGroups]
    split_ifs with hzero
    · omega
    · have hshift : value >>> 7 = value / 128 := Nat.shiftRight_eq_div_pow value 7
      have hless : value >>> 7 < 128 ^ bound := by
        rw [hshift]
        exact Nat.div_lt_of_lt_mul (by rw [pow_succ] at hbound; omega)
      have hgroups := ih hless (UInt8.ofNat (value &&& 0x7F ||| 0x80) :: below)
      rw [List.length_cons] at hgroups
      omega

theorem mbUint32_exists {value : Nat} (h : value ≤ maxUint32) :
    ∃ bytes, mbUint32 value = .ok bytes ∧ bytes.length ≤ maxMbUint32Bytes := by
  have hless : value >>> 7 < 128 ^ 4 := by
    rw [Nat.shiftRight_eq_div_pow]
    unfold maxUint32 at h
    omega
  have hlength := highGroups_length 4 hless [UInt8.ofNat (value &&& 0x7F)]
  refine ⟨_, if_pos ⟨by omega, by omega⟩, ?_⟩
  rw [Int.toNat_natCast]
  exact hlength

theorem utf8_blanked (p : Prop) [Decidable p] (text : String) :
    (utf8 (if p then "" else text)).length ≤ (utf8 text).length := by
  split_ifs
  · simp [utf8]
  · exact Nat.le_refl _

theorem mass_stripAll (es : List Element) : Element.mass (stripAll es) ≤ Element.mass es := by
  rw [Element.mass, Element.mass, iterAll_stripBlanks, List.map_map]
  apply List.sum_le_sum
  intro x _
  cases x with
  | node tag attributes text children tail =>
    exact Nat.add_le_add (utf8_blanked _ text) (utf8_blanked _ tail)

theorem weight_stripAll (es : List Element) : weight (stripAll es) ≤ weight es := by
  have hmass := mass_stripAll es
  rw [weight, weight, iterAll_stripBlanks, List.length_map]
  omega

theorem numericId_known {ns : String} (h : Known ns) :
    ∃ id : Nat, numericId ns none = id ∧ id ≤ maxUint32 ∧
      (publicIds.find? fun entry => (entry.1 : Int) = id).map (·.2.2) = some ns := by
  have hall : ∀ entry ∈ publicIds,
      ((publicIds.find? (·.2.2 = entry.2.2)).map Prod.fst).getD publicId12 ≤ maxUint32 ∧
        (publicIds.find? fun found => (found.1 : Int) =
          (((publicIds.find? (·.2.2 = entry.2.2)).map Prod.fst).getD publicId12 : Nat)).map
            (·.2.2) = some entry.2.2 := by
    decide +kernel
  obtain ⟨entry, hentry, rfl⟩ := h
  exact ⟨_, rfl, hall entry hentry⟩

theorem encodeTree_exists {ns : String} {root : Element} (hns : ns ≠ metinfNs)
    (htags : ∀ x ∈ root.iter, ∃ q, x.tag = some q ∧ Listed ns q)
    (hid : ∃ id : Nat, numericId (rootNs root) none = id ∧ id ≤ maxUint32)
    (hroom : 16 + weight [root] ≤ maxEncodeBytes) : ∃ wire, encodeTree root {} ns = .ok wire := by
  obtain ⟨id, hid, hless⟩ := hid
  obtain ⟨ids, hids, hidsLength⟩ := mbUint32_exists hless
  obtain ⟨charset, hcharset, hcharsetLength⟩ :=
    mbUint32_exists (show charsetUtf8 ≤ maxUint32 by decide)
  obtain ⟨length, hlength, hlengthLength⟩ := mbUint32_exists (Nat.zero_le maxUint32)
  have helement := @elementContent_costs ⟨ns, [], false⟩ ⟨hns, rfl, rfl⟩ root htags
  have hall := (Costs.write [UInt8.ofNat 3]).bind ((Costs.write ids).bind
    ((Costs.write (charset ++ length ++ [])).bind helement))
  have hbare : bare root + ((utf8 root.tail).length + 2) + weight [] = weight [root] :=
    (weight_cons root []).symm
  obtain ⟨o, ho, -⟩ := hall { output := { limit := maxEncodeBytes } } (by
    unfold Output.Room
    unfold maxMbUint32Bytes at hidsLength hcharsetLength hlengthLength
    simp only [List.length_append, List.length_nil, List.length_singleton]
    omega)
  obtain ⟨o₁, hversion, ho₁⟩ := Except.bind_eq_ok.mp ho
  obtain ⟨o₂, hpublic, ho₂⟩ := Except.bind_eq_ok.mp ho₁
  obtain ⟨o₃, htable, ho₃⟩ := Except.bind_eq_ok.mp ho₂
  have hbytes : publicIdBytes (rootNs root) none = .ok ids := by
    rw [publicIdBytes, hid]
    · exact hids
    · nofun
  have hplain : stringTable root {} = {} := rfl
  refine ⟨o.output.data, ?_⟩
  rw [encodeTree, hplain, hbytes, hcharset]
  refine Except.bind_eq_ok.mpr ⟨o₁, hversion, ?_⟩
  refine Except.bind_eq_ok.mpr ⟨ids, rfl, ?_⟩
  refine Except.bind_eq_ok.mpr ⟨o₂, hpublic, ?_⟩
  refine Except.bind_eq_ok.mpr ⟨charset, rfl, ?_⟩
  refine Except.bind_eq_ok.mpr ⟨length, hlength, ?_⟩
  refine Except.bind_eq_ok.mpr ⟨o₃, htable, ?_⟩
  exact Except.bind_eq_ok.mpr ⟨o, ho₃, rfl⟩

theorem encode_safe (xml : ElementTree) {ns text : String} {root : Element} (hns : Known ns)
    (h : SafeDocument ns text root) (hmass : Element.mass [root] ≤ (utf8 text).length) :
    ∃ wire, encode xml (utf8 text) {} = .ok wire := by
  have hsize := h.size
  have helements := h.elements
  have hread : readTree xml (utf8 text) = .ok root := by
    -- the decoder's limits lie within those of the encoder
    have hdepth := h.depth
    have hshallow : root.depth ≤ maxEncodeDepth := by
      unfold maxEncodeDepth
      unfold maxDepth at hdepth
      omega
    have hfew : root.iter.length ≤ maxEncodeElements := by
      unfold maxEncodeElements
      omega
    unfold readTree
    rw [xml.plain h.parsed h.legal]
    dsimp only
    rw [refuse_eq_none.mpr ⟨rfl, hshallow, hfew, h.plain⟩]
  have hrootNs : rootNs root = ns := by
    rw [rootNs, h.tag]
    rfl
  have hname : root.localName = "SyncML" := by
    rw [Element.localName, h.tag]
    rfl
  obtain ⟨id, hid, hless, hfind⟩ := numericId_known hns
  have hnamespace : syncmlNamespace root {} = some ns := by
    rw [syncmlNamespace, hrootNs, hid]
    exact hfind
  have hstripped : rootNs (stripBlanks root) = ns := by
    rw [rootNs, tag_stripBlanks]
    exact hrootNs
  obtain ⟨entry, hentry, rfl⟩ := hns
  have hmetinf := (publicIds_spec entry hentry).1
  unfold encode
  rw [if_neg (by unfold maxEncodeXmlBytes; unfold maxXmlBytes at hsize; omega), if_neg (by decide),
    hread]
  dsimp only [bind, Except.bind]
  rw [if_neg (not_not.mpr hname), hnamespace]
  dsimp only
  rw [if_neg fun hother => hother.2 hrootNs]
  refine encodeTree_exists hmetinf ?_ ⟨id, by rw [hstripped]; exact hid, hless⟩ ?_
  · rw [iter_stripBlanks, List.forall_mem_map]
    intro x hx
    rw [tag_stripBlanks]
    exact h.listed x hx
  -- the texts weigh no more than the document is long
  · have hweight := weight_stripAll [root]
    have hiter := Element.iterAll_singleton root
    rw [stripAll, stripAll] at hweight
    rw [weight, weight, hiter] at hweight
    rw [weight]
    unfold maxElements at helements
    unfold maxXmlBytes at hsize
    unfold maxEncodeBytes
    omega

/-- Whatever the bytes, the loop ends, and the decoder refuses them or gives out a document that is
safe and that the encoder takes. -/
theorem decode_safe (xml : ElementTree) (payload : List UInt8) :
    (∀ ns table body passes, header payload = .ok (ns, table, body) → body.length ≤ passes →
      walkAll ns table passes {} body = walkAll ns table body.length {} body) ∧
    ((∃ error, decode payload = .error error) ∨
      ∃ ns table body text root, header payload = .ok (ns, table, body) ∧
        decode payload = .ok (utf8 text) ∧ SafeDocument ns text root ∧
        xml.fromstring (utf8 text) = .ok { root } ∧
        ∃ wire, encode xml (utf8 text) {} = .ok wire) := by
  refine ⟨fun ns table body passes hheader hpasses =>
    Tracks.start.walkAll_enough (known_of_header hheader) hpasses (Nat.le_refl _), ?_⟩
  cases hdecode : decode payload with
  | error error => exact Or.inl ⟨error, rfl⟩
  | ok out =>
    right
    unfold decode at hdecode
    split_ifs at hdecode with hsize
    obtain ⟨⟨ns, table, body⟩, hheader, hloop⟩ := Except.bind_eq_ok.mp hdecode
    obtain ⟨w, hwalk, hout⟩ := Except.bind_eq_ok.mp hloop
    split_ifs at hout with hstack hsome
    cases hout
    have hns := known_of_header hheader
    obtain ⟨chunks, b, htracks⟩ := Tracks.start.walkAll hns hwalk
    obtain ⟨text, root, hdata, hsafe, hmass⟩ := htracks.document (not_not.mp hstack) hsome
    exact ⟨ns, table, body, text, root, hheader, congrArg _ hdata, hsafe,
      xml.plain hsafe.parsed hsafe.legal, encode_safe xml hns hsafe hmass⟩

end Acs.Wbxml
