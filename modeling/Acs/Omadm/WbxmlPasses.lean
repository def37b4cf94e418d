import Mathlib
import Acs.Omadm.Wbxml

/-! What the encoder writes, the decoder's loop walks over: integers, texts and elements. -/

namespace Acs.Wbxml
open Xml

section Integers

theorem byte_cons (b : UInt8) (rest : List UInt8) : byte (b :: rest) = .ok (b, rest) := by
  unfold byte take
  rw [if_neg (by simp)]
  rfl

theorem low_group (value : Nat) : value &&& 0x7F = value % 128 :=
  Nat.and_two_pow_sub_one_eq_mod value 7

theorem high_group {group : Nat} (h : group < 128) :
    (UInt8.ofNat (group ||| 0x80)).toNat &&& 0x7F = group ∧
      UInt8.ofNat (group ||| 0x80) &&& 0x80 ≠ 0 := by
  revert h
  revert group
  decide

theorem last_group {group : Nat} (h : group < 128) :
    (UInt8.ofNat group).toNat &&& 0x7F = group ∧ UInt8.ofNat group &&& 0x80 = 0 := by
  revert h
  revert group
  decide

theorem join_groups (value : Nat) : value >>> 7 <<< 7 ||| value % 128 = value := by
  rw [← Nat.shiftLeft_add_eq_or_of_lt (Nat.mod_lt value (by decide)), Nat.shiftLeft_eq,
    Nat.shiftRight_eq_div_pow]
  omega

/-- The groups above the last one have been read when their number has. -/
theorem integerFrom_highGroups (bound : Nat) {value : Nat} (hbound : value < 128 ^ bound)
    (hmax : value ≤ maxUint32) (below rest : List UInt8) {left : Nat} (hleft : bound ≤ left) :
    ∃ left', left - bound ≤ left' ∧
      integerFrom 0 left (highGroups value below ++ rest) =
        integerFrom value left' (below ++ rest) := by
  induction bound generalizing value below with
  | zero =>
    obtain rfl : value = 0 := by omega
    rw [highGroups, dif_pos rfl]
    exact ⟨left, Nat.sub_le _ _, rfl⟩
  | succ bound ih =>
    by_cases hzero : value = 0
    · subst hzero
      rw [highGroups, dif_pos rfl]
      exact ⟨left, Nat.sub_le _ _, rfl⟩
    · have hshift : value >>> 7 = value / 128 := Nat.shiftRight_eq_div_pow value 7
      have hless : value >>> 7 < 128 ^ bound := by
        rw [hshift]
        exact Nat.div_lt_of_lt_mul (by rw [pow_succ] at hbound; omega)
      have hsmall : value >>> 7 ≤ maxUint32 := by
        rw [hshift]
        exact (Nat.div_le_self _ _).trans hmax
      obtain ⟨left', hmore, heq⟩ :=
        ih hless hsmall (UInt8.ofNat (value &&& 0x7F ||| 0x80) :: below) (by omega)
      obtain ⟨left', rfl⟩ : ∃ m, left' = m + 1 := ⟨left' - 1, by omega⟩
      refine ⟨left', by omega, ?_⟩
      obtain ⟨hlow, hhigh⟩ := high_group (Nat.mod_lt value (by decide : 0 < 128))
      rw [highGroups, dif_neg hzero, heq, List.cons_append, integerFrom, byte_cons, low_group]
      change (if _ then _ else _) = _
      rw [hlow, join_groups, if_neg (by omega), if_neg hhigh]

theorem integer_mbUint32 {value : Int} {bytes : List UInt8} (h : mbUint32 value = .ok bytes)
    (rest : List UInt8) : integer (bytes ++ rest) = .ok (value.toNat, rest) := by
  unfold mbUint32 at h
  split_ifs at h with hrange
  obtain rfl := Except.ok.inj h
  have hmax : value.toNat ≤ maxUint32 := by omega
  have hless : value.toNat >>> 7 < 128 ^ 4 := by
    rw [Nat.shiftRight_eq_div_pow]
    unfold maxUint32 at hmax
    omega
  have hsmall : value.toNat >>> 7 ≤ maxUint32 := by
    rw [Nat.shiftRight_eq_div_pow]
    exact (Nat.div_le_self _ _).trans hmax
  obtain ⟨left', hmore, heq⟩ := integerFrom_highGroups 4 hless hsmall
    [UInt8.ofNat (value.toNat &&& 0x7F)] rest (show 4 ≤ maxMbUint32Bytes by decide)
  obtain ⟨left', rfl⟩ : ∃ m, left' = m + 1 := ⟨left' - 1, by unfold maxMbUint32Bytes at hmore; omega⟩
  obtain ⟨hlow, hhigh⟩ := last_group (Nat.mod_lt value.toNat (by decide : 0 < 128))
  unfold integer
  rw [heq, List.cons_append, List.nil_append, integerFrom, byte_cons, low_group]
  change (if _ then _ else _) = _
  rw [hlow, join_groups, if_neg (by omega), if_pos hhigh]
  rfl

end Integers

section Tables
variable {table raw : List UInt8} {offset : Nat}

theorem takeWhile_append_zero {raw rest : List UInt8} (h : 0 ∉ raw) :
    (raw ++ 0 :: rest).takeWhile (· ≠ 0) = raw := by
  have hall : ∀ b ∈ raw, decide (b ≠ 0) = true := fun b hb =>
    decide_eq_true fun hzero => h (hzero ▸ hb)
  rw [List.takeWhile_append_of_pos hall, List.takeWhile_cons_of_neg (by decide), List.append_nil]

theorem tableString_append (h : tableString table offset = .ok raw) (more : List UInt8) :
    tableString (table ++ more) offset = .ok raw := by
  unfold tableString at h ⊢
  split_ifs at h with hlen hzero
  have hdrop : (table ++ more).drop offset = table.drop offset ++ more :=
    List.drop_append_of_le_length (by omega)
  rw [if_neg (by rw [List.length_append]; omega), hdrop, if_pos (List.mem_append_left _ hzero)]
  obtain ⟨first, rest, hsplit, hfirst⟩ := List.eq_append_cons_of_mem hzero
  rw [hsplit, takeWhile_append_zero hfirst] at h
  rw [hsplit, List.append_assoc, List.cons_append, takeWhile_append_zero hfirst]
  exact h

theorem tableString_length (h : 0 ∉ raw) :
    tableString (table ++ (raw ++ [0x00])) table.length = .ok raw := by
  unfold tableString
  rw [if_neg (by simp), List.drop_left, if_pos (by simp)]
  exact congrArg _ (takeWhile_append_zero h)

/-- Every text of the table is where its offset says. -/
def StringTable.Sound (t : StringTable) : Prop :=
  ∀ text offset, t.offsets.lookup text = some offset →
    tableString t.table offset = .ok (utf8 text)

theorem StringTable.Sound.add {t : StringTable} (h : t.Sound) {text : String}
    (htext : '\x00' ∉ text.toList) : (t.add text).Sound := by
  intro other offset hlookup
  unfold StringTable.add at hlookup ⊢
  dsimp only at hlookup ⊢
  rw [List.lookup_cons] at hlookup
  split at hlookup
  · next heq =>
    obtain rfl := beq_iff_eq.mp heq
    obtain rfl := Option.some.inj hlookup
    exact tableString_length (zero_notMem_utf8 htext)
  · exact tableString_append (h other offset hlookup) _

theorem foldl_addRepeated_sound {all some : List String} {t : StringTable} (h : t.Sound)
    (hsome : ∀ text ∈ some, '\x00' ∉ text.toList) :
    (some.foldl (StringTable.addRepeated all) t).Sound ∧
      ∃ more, (some.foldl (StringTable.addRepeated all) t).table = t.table ++ more := by
  induction some generalizing t with
  | nil => exact ⟨h, [], (List.append_nil _).symm⟩
  | cons text rest ih =>
    obtain ⟨htext, hrest⟩ := List.forall_mem_cons.mp hsome
    have hadded : (t.addRepeated all text).Sound ∧
        ∃ more, (t.addRepeated all text).table = t.table ++ more := by
      unfold StringTable.addRepeated
      split_ifs
      · exact ⟨h.add htext, _, rfl⟩
      · exact ⟨h, [], (List.append_nil _).symm⟩
    obtain ⟨hsound, more, htable⟩ := hadded
    obtain ⟨hsounds, evenMore, htables⟩ := ih hsound hrest
    exact ⟨hsounds, more ++ evenMore, by rw [List.foldl_cons, htables, htable, List.append_assoc]⟩

theorem startTable_sound {publicId : Option PublicId}
    (h : ∀ id, publicId = some (.name id) → '\x00' ∉ id.toList) : (startTable publicId).Sound := by
  have hnil : StringTable.Sound {} := fun _ _ h => nomatch h
  match publicId, h with
  | none, _ => exact hnil
  | some (.number _), _ => exact hnil
  | some (.name id), h => exact hnil.add (h id rfl)

theorem stringTable_sound {root : Element} {options : Options}
    (hid : ∀ id, options.publicId = some (.name id) → '\x00' ∉ id.toList)
    (htexts : ∀ text ∈ texts root, '\x00' ∉ text.toList) :
    (stringTable root options).Sound ∧
      ∃ more, (stringTable root options).table = (startTable options.publicId).table ++ more := by
  unfold stringTable
  split_ifs
  · apply foldl_addRepeated_sound (startTable_sound hid)
    exact fun text htext => htexts text (List.mem_eraseDups.mp htext)
  · exact ⟨startTable_sound hid, [], (List.append_nil _).symm⟩

end Tables

/-! ### The passes of the decoder's loop -/

section Passes

def Output.Room (o : Output) (n : Nat) : Prop := o.data.length + n ≤ o.limit

/-- The passes that lead from one place of the loop to another. -/
inductive Walks (ns : String) (table : List UInt8) :
    Walk → List UInt8 → Walk → List UInt8 → Prop
  | here (w : Walk) (rest : List UInt8) : Walks ns table w rest w rest
  | pass {w w₁ w' : Walk} {rest rest₁ rest' : List UInt8} : walk ns table w rest = .ok (w₁, rest₁) →
    rest₁.length < rest.length → Walks ns table w₁ rest₁ w' rest' → Walks ns table w rest w' rest'

variable {ns : String} {table : List UInt8} {w w' w₁ : Walk} {rest rest' rest₁ : List UInt8}

theorem Walks.trans (h : Walks ns table w rest w₁ rest₁) (h' : Walks ns table w₁ rest₁ w' rest') :
    Walks ns table w rest w' rest' := by
  induction h with
  | here => exact h'
  | pass hpass hless _ ih => exact .pass hpass hless (ih h')

theorem Walks.one (h : walk ns table w rest = .ok (w', rest')) (hless : rest'.length < rest.length) :
    Walks ns table w rest w' rest' := .pass h hless (.here _ _)

theorem Walks.walkAll (h : Walks ns table w rest w' rest') {passes : Nat}
    (hpasses : rest.length ≤ passes) :
    ∃ passes', rest'.length ≤ passes' ∧
      Wbxml.walkAll ns table passes w rest = Wbxml.walkAll ns table passes' w' rest' := by
  induction h generalizing passes with
  | here w rest => exact ⟨passes, hpasses, rfl⟩
  | @pass w w₁ w' rest rest₁ rest' hpass hless _ ih =>
    obtain ⟨passes, rfl⟩ : ∃ n, passes = n + 1 := ⟨passes - 1, by omega⟩
    obtain ⟨passes', hmore, heq⟩ := @ih passes (by omega)
    refine ⟨passes', hmore, ?_⟩
    have hne : rest ≠ [] := List.ne_nil_of_length_pos (by omega)
    rw [Wbxml.walkAll, if_neg hne, hpass]
    exact heq

theorem utf8_ofList_append (cs ds : List Char) :
    utf8 (String.ofList (cs ++ ds)) = utf8 (String.ofList cs) ++ utf8 (String.ofList ds) := by
  rw [String.ofList_append, utf8_append]

def Walk.wrote (w : Walk) (cs : List Char) : Walk :=
  { w with output := { w.output with data := w.output.data ++ utf8 (String.ofList cs) } }

def Walk.Room (w : Walk) (cs : List Char) : Prop := w.output.Room (utf8 (String.ofList cs)).length

theorem Walk.wrote_nil (w : Walk) : w.wrote [] = w := by
  unfold Walk.wrote
  rw [show utf8 (String.ofList []) = [] from rfl, List.append_nil]

theorem Walk.wrote_wrote (w : Walk) (cs ds : List Char) :
    (w.wrote cs).wrote ds = w.wrote (cs ++ ds) := by
  unfold Walk.wrote
  rw [utf8_ofList_append, List.append_assoc]

theorem Walk.room_append {cs ds : List Char} :
    w.Room (cs ++ ds) ↔ w.Room cs ∧ (w.wrote cs).Room ds := by
  unfold Walk.Room Output.Room Walk.wrote
  rw [utf8_ofList_append]
  simp only [List.length_append]
  omega

theorem Output.write_eq {o : Output} {data : List UInt8} (h : o.Room data.length) :
    o.write data = .ok { o with data := o.data ++ data } := by
  unfold Output.Room at h
  exact if_neg (by omega)

theorem Output.write_ok {o o' : Output} {data : List UInt8} (h : o.write data = .ok o') :
    o'.data = o.data ++ data := by
  unfold Output.write at h
  split_ifs at h
  exact Except.ok.inj h ▸ rfl

theorem walk_cons (hplace : w.elements = 0 ∨ w.stack ≠ []) (token : UInt8) :
    walk ns table w (token :: rest) = anyToken ns table token w rest := by
  have hgo : ¬ (w.elements ≠ 0 ∧ w.stack = []) := fun h => hplace.elim h.1 fun hne => hne h.2
  unfold walk
  rw [if_neg hgo, byte_cons]
  rfl

theorem walk_switch (hplace : w.elements = 0 ∨ w.stack ≠ []) {page : Nat} (hpage : page < 2) :
    walk ns table w (switchPage :: UInt8.ofNat page :: rest) = .ok ({ w with page }, rest) := by
  have hnumber : (UInt8.ofNat page).toNat = page := by
    rw [UInt8.toNat_ofNat', Nat.mod_eq_of_lt (by omega)]
  have hknown : ¬ tagPages.length ≤ page := by
    rw [show tagPages.length = 2 from rfl]
    omega
  rw [walk_cons hplace]
  unfold anyToken pageToken
  rw [if_pos rfl, byte_cons]
  change (if _ then _ else Except.ok ({ w with page := (UInt8.ofNat page).toNat }, rest)) = _
  rw [hnumber, if_neg hknown]

theorem walk_end {name : String} {stack : List String} (hstack : w.stack = name :: stack)
    (hroom : w.Room ('<' :: (Tag.stop name).body ++ ['>'])) :
    walk ns table w (endToken :: rest) =
      .ok ({ w.wrote ('<' :: (Tag.stop name).body ++ ['>']) with stack }, rest) := by
  have htext : "</" ++ name ++ ">" = String.ofList ('<' :: (Tag.stop name).body ++ ['>']) := by
    rw [← String.toList_inj, String.toList_ofList]
    simp [Tag.body]
  rw [walk_cons (Or.inr (by simp [hstack]))]
  unfold anyToken endTag
  rw [if_neg (by decide), if_pos rfl, hstack]
  dsimp only
  rw [htext, Output.write_eq hroom]
  rfl

theorem walk_text {token : UInt8} {bytes : List UInt8} {text : String}
    (htoken : token = strI ∨ token = strT ∨ token = opaqueData) (hstack : w.stack ≠ [])
    (hraw : rawText table token (bytes ++ rest) = .ok (utf8 text, rest))
    (hchars : ∀ c ∈ text.toList, isXmlChar c)
    (hroom : w.Room (escape text)) :
    walk ns table w (token :: bytes ++ rest) = .ok (w.wrote (escape text), rest) := by
  have hother : token ≠ switchPage ∧ token ≠ endToken := by
    rcases htoken with rfl | rfl | rfl <;> decide
  have htext : utf8Text (utf8 text) = .ok text := by
    unfold utf8Text
    rw [fromUtf8_utf8]
    exact if_pos (List.all_eq_true.mpr hchars)
  rw [List.cons_append, walk_cons (Or.inr hstack)]
  unfold anyToken textToken
  rw [if_neg hother.1, if_neg hother.2, if_pos htoken, if_neg hstack, hraw]
  dsimp only [bind, Except.bind]
  rw [htext]
  dsimp only
  rw [Output.write_eq hroom]
  rfl

def declared (ns : String) : List (String × String) := [("", ns), ("metinf", metinfNs)]

def Walk.namespaces (ns : String) (w : Walk) : List (String × String) :=
  if w.elements = 0 then declared ns else []

/-- The loop is below the root. -/
def Walk.Inside (w : Walk) : Prop := w.stack ≠ [] ∧ w.elements ≠ 0

def tagByte (token : UInt8) (closed : Bool) : UInt8 := if closed then token else token ||| content

theorem tagByte_spec : ∀ page < 2, ∀ entry ∈ tagPages.getD page [], ∀ closed : Bool,
    tagByte entry.1 closed ∉ [switchPage, endToken, strI, strT, opaqueData, 0x84, 0xC4] ∧
      5 ≤ tagByte entry.1 closed &&& 0x3F ∧ tagByte entry.1 closed &&& attributes = 0 ∧
      (tagByte entry.1 closed &&& content ≠ 0 ↔ closed = false) ∧
      (tagPages.getD page []).lookup (tagByte entry.1 closed &&& 0x3F) = some entry.2 := by
  decide +kernel

theorem walk_tag {token : UInt8} {name : String} (closed : Bool) (hpage : w.page < 2)
    (hentry : (token, name) ∈ tagPages.getD w.page [])
    (hplace : w.Inside ∨ w.elements = 0 ∧ w.page = 0 ∧ name = "SyncML")
    (hdepth : w.stack.length < maxDepth) (helements : w.elements < maxElements)
    (hroom : w.Room
      ('<' :: (Tag.start (qualifiedName w.page name) (w.namespaces ns) closed).body ++ ['>'])) :
    walk ns table w (tagByte token closed :: rest) =
      .ok ({ w.wrote
          ('<' :: (Tag.start (qualifiedName w.page name) (w.namespaces ns) closed).body ++ ['>']) with
        elements := w.elements + 1
        stack := if closed then w.stack else qualifiedName w.page name :: w.stack }, rest) := by
  obtain ⟨hother, hglobal, hplain, hcontent, hlookup⟩ := tagByte_spec _ hpage _ hentry closed
  simp only [List.mem_cons, List.not_mem_nil, or_false, not_or] at hother
  obtain ⟨hswitch, hend, hstrI, hstrT, hdata, hliteral, hliterals⟩ := hother
  -- only the tag of the root declares the namespaces
  have htext : "<" ++ qualifiedName w.page name ++
      (if w.elements + 1 = 1 then " xmlns=\"" ++ ns ++ "\" xmlns:metinf=\"" ++ metinfNs ++ "\""
        else "") ++ (if tagByte token closed &&& content ≠ 0 then ">" else "/>") =
      String.ofList ('<' ::
        (Tag.start (qualifiedName w.page name) (w.namespaces ns) closed).body ++ ['>']) := by
    rw [← String.toList_inj, String.toList_ofList]
    by_cases hroot : w.elements = 0 <;> cases closed <;>
      simp [hcontent, hroot, Tag.body, Walk.namespaces, declared, declaration]
  have hstart : startTag ns (tagByte token closed) w = .ok { w.wrote
      ('<' :: (Tag.start (qualifiedName w.page name) (w.namespaces ns) closed).body ++ ['>']) with
        elements := w.elements + 1
        stack := if closed then w.stack else qualifiedName w.page name :: w.stack } := by
    -- none of the refusals of `startTag` applies
    have hattributes : ¬ (tagByte token closed = 0x84 ∨ tagByte token closed = 0xC4 ∨
        5 ≤ tagByte token closed &&& 0x3F ∧ tagByte token closed &&& attributes ≠ 0) := by
      rintro (h | h | h)
      · exact hliteral h
      · exact hliterals h
      · exact h.2 hplain
    have hdeep : ¬ maxDepth ≤ w.stack.length := Nat.not_le.mpr hdepth
    have hmany : ¬ maxElements < w.elements + 1 := Nat.not_lt.mpr helements
    have hroot : ¬ (w.elements + 1 = 1 ∧ (w.page ≠ 0 ∨ name ≠ "SyncML")) := by
      rintro ⟨hfirst, hother⟩
      rcases hplace with hinside | ⟨-, hpage, hname⟩
      · exact hinside.2 (by omega)
      · exact hother.elim (fun h => h hpage) fun h => h hname
    unfold startTag
    rw [if_neg hattributes, if_neg (UInt8.not_lt.mpr hglobal), hlookup]
    dsimp only
    simp only [hdeep, hmany, hroot, if_false]
    rw [htext, Output.write_eq hroom]
    cases closed
    · have hopen : tagByte token false &&& content ≠ 0 := hcontent.mpr rfl
      simp only [hopen, Bool.false_eq_true, ne_eq, not_false_eq_true, if_true, if_false]
      rfl
    · have hclosed : ¬ tagByte token true &&& content ≠ 0 := fun h => (by cases hcontent.mp h)
      simp only [hclosed, if_true, if_false]
      rfl
  rw [walk_cons (hplace.elim (fun h => Or.inr h.1) fun h => Or.inl h.1)]
  unfold anyToken
  rw [if_neg hswitch, if_neg hend, if_neg (by simp [hstrI, hstrT, hdata]), hstart]
  rfl

end Passes

section Texts
variable {env : Encoding} {o o' : Encoder} {text : String} {rest : List UInt8}

theorem Encoder.write_ok {data : List UInt8} (h : o.write data = .ok o') :
    o'.output.data = o.output.data ++ data ∧ o'.page = o.page := by
  unfold Encoder.write at h
  obtain ⟨output, houtput, h⟩ := Except.bind_eq_ok.mp h
  obtain rfl := Except.ok.inj h
  exact ⟨Output.write_ok houtput, rfl⟩

theorem nul_notMem (hchars : ∀ c ∈ text.toList, isXmlChar c) : '\x00' ∉ text.toList :=
  fun hmem => absurd (hchars _ hmem) (by decide)

theorem take_append (data : List UInt8) : take data.length (data ++ rest) = .ok (data, rest) := by
  unfold take
  rw [if_neg (by simp), List.take_left, List.drop_left]

theorem inline_utf8 (htext : '\x00' ∉ text.toList) :
    inline (utf8 text ++ 0x00 :: rest) = .ok (utf8 text, rest) := by
  unfold inline
  rw [if_pos (by simp), takeWhile_append_zero (zero_notMem_utf8 htext), take_append]
  rfl

theorem Walks.ofText {ns : String} {table : List UInt8} {w : Walk} {token : UInt8}
    (htoken : token = strI ∨ token = strT ∨ token = opaqueData) (bytes : List UInt8)
    (hraw : rawText table token (bytes ++ rest) = .ok (utf8 text, rest))
    (hchars : ∀ c ∈ text.toList, isXmlChar c) (hstack : w.stack ≠ [])
    (hroom : w.Room (escape text)) :
    Walks ns table w (token :: bytes ++ rest) (w.wrote (escape text)) rest := by
  apply Walks.one (walk_text htoken hstack hraw hchars hroom)
  rw [List.cons_append, List.length_cons, List.length_append]
  omega

theorem textContent_walks (ns : String) {t : StringTable} (hsound : t.Sound)
    (hoffsets : env.offsets = t.offsets) (h : textContent env text o = .ok o')
    (hchars : ∀ c ∈ text.toList, isXmlChar c) :
    ∃ bytes, o'.output.data = o.output.data ++ bytes ∧ o'.page = o.page ∧
      ∀ w rest, w.stack ≠ [] → w.Room (escape text) →
        Walks ns t.table w (bytes ++ rest) (w.wrote (escape text)) rest := by
  unfold textContent at h
  split_ifs at h with hempty hverbatim
  · obtain rfl := Except.ok.inj h
    refine ⟨[], (List.append_nil _).symm, rfl, fun w rest _ _ => ?_⟩
    have hnone : w.wrote (escape text) = w := by
      rw [hempty]
      exact w.wrote_nil
    rw [hnone]
    exact .here _ _
  · obtain ⟨length, hlength, h⟩ := Except.bind_eq_ok.mp h
    obtain ⟨hdata, hpage⟩ := Encoder.write_ok h
    refine ⟨_, hdata, hpage, fun w rest =>
      Walks.ofText (Or.inr (Or.inr rfl)) (length ++ utf8 text) ?_ hchars⟩
    unfold rawText
    rw [if_neg (by decide), if_neg (by decide), List.append_assoc, integer_mbUint32 hlength]
    exact take_append _
  · split at h
    · next offset hlookup =>
      obtain ⟨bytes, hbytes, h⟩ := Except.bind_eq_ok.mp h
      obtain ⟨hdata, hpage⟩ := Encoder.write_ok h
      refine ⟨_, hdata, hpage, fun w rest => Walks.ofText (Or.inr (Or.inl rfl)) bytes ?_ hchars⟩
      have hfound := hsound text offset (hoffsets ▸ hlookup)
      unfold rawText
      rw [if_neg (by decide), if_pos rfl, integer_mbUint32 hbytes]
      dsimp only [bind, Except.bind]
      rw [Int.toNat_natCast, hfound]
      rfl
    · obtain ⟨hdata, hpage⟩ := Encoder.write_ok h
      refine ⟨_, hdata, hpage, fun w rest =>
        Walks.ofText (Or.inl rfl) (utf8 text ++ [0x00]) ?_ hchars⟩
      unfold rawText
      rw [if_pos rfl, List.append_assoc]
      exact inline_utf8 (nul_notMem hchars)

end Texts

/-! ### Trees -/

section Trees

def pageOf (tag : QName) : Nat := if tag.ns = metinfNs then 1 else 0

def qualify (tag : QName) : String := qualifiedName (pageOf tag) tag.name

mutual

def inPages (ns : String) : Element → Element
  | .node tag _ text children tail =>
    .node (tag.map fun q => ⟨if pageOf q = 0 then ns else metinfNs, q.name⟩) [] text
      (allInPages ns children) tail

def allInPages (ns : String) : List Element → List Element
  | [] => []
  | e :: es => inPages ns e :: allInPages ns es

end

def Walk.after (w : Walk) (cs : List Char) (page elements : Nat) : Walk :=
  { w.wrote cs with page, elements := w.elements + elements }

/-- What the decoder is to write for an element. -/
def written (ns : String) (namespaces : List (String × String)) (e : Element) : List Char :=
  render ((inPages ns e).chunks qualify namespaces "")

def allWritten (ns : String) (es : List Element) : List Char :=
  render (Element.chunksAll qualify (allInPages ns es))

def Textual (e : Element) : Prop :=
  (∀ c ∈ e.text.toList, isXmlChar c) ∧ ∀ c ∈ e.tail.toList, isXmlChar c

theorem render_append (a b : List Chunk) : render (a ++ b) = render a ++ render b :=
  List.flatMap_append

theorem render_chunks_tail (namespaces : List (String × String)) (tail : String) (e : Element) :
    render (e.chunks qualify namespaces tail) =
      render (e.chunks qualify namespaces "") ++ escape tail := by
  cases e with
  | node tag attributes text children =>
    unfold Element.chunks
    dsimp only
    split
    · simp [render, Chunk.body, escape]
    · simp [render, Chunk.body, escape]

theorem allWritten_cons (ns : String) (e : Element) (es : List Element) :
    allWritten ns (e :: es) = written ns [] e ++ escape e.tail ++ allWritten ns es := by
  have htail : (inPages ns e).tail = e.tail := by
    cases e
    rfl
  change render ((inPages ns e).chunks qualify [] (inPages ns e).tail ++ _) = _
  rw [render_append, render_chunks_tail, htail]
  rfl

theorem mem_of_lookup {α β : Type} [BEq α] [LawfulBEq α] {entries : List (α × β)} {k : α} {v : β}
    (h : entries.lookup k = some v) : (k, v) ∈ entries := by
  obtain ⟨before, behind, hsplit, -⟩ := List.lookup_eq_some_iff.mp h
  rw [hsplit]
  exact List.mem_append_right _ List.mem_cons_self

theorem tagTokens_spec : ∀ page < 2, ∀ entry ∈ tagTokens.getD page [],
    entry.1 ≠ "" ∧ (entry.2, entry.1) ∈ tagPages.getD page [] := by
  decide +kernel

theorem tagToken_ok {env : Encoding} {tag : Option QName} {page : Nat} {token : UInt8}
    (h : tagToken env tag = .ok (page, token)) :
    ∃ q, tag = some q ∧ page = pageOf q ∧ page < 2 ∧ (token, q.name) ∈ tagPages.getD page [] := by
  unfold tagToken at h
  dsimp only at h
  rw [ite_eq_iff] at h
  obtain ⟨-, h⟩ | ⟨-, h⟩ := h
  · cases h
  split at h
  · cases h
  next found hlookup =>
  obtain ⟨hpage, hfound⟩ := Prod.mk.inj (Except.ok.inj h)
  have hless : page < 2 := by
    rw [← hpage]
    split_ifs <;> decide
  rw [hpage, hfound] at hlookup
  obtain ⟨hne, hentry⟩ := tagTokens_spec page hless _ (mem_of_lookup hlookup)
  cases tag with
  | none => exact absurd rfl hne
  | some q => exact ⟨q, rfl, hpage.symm, hless, hentry⟩

section Written
variable {ns : String} {q : QName} {attributes : List (String × String)} {text tail : String}
  {children : List Element} {namespaces : List (String × String)}

theorem qualify_inPages (hns : ns ≠ metinfNs) :
    qualify ⟨if pageOf q = 0 then ns else metinfNs, q.name⟩ = qualifiedName (pageOf q) q.name := by
  unfold qualify
  congr 1
  unfold pageOf
  split_ifs <;> simp_all

theorem written_closed (hns : ns ≠ metinfNs) :
    written ns namespaces (.node (some q) attributes "" [] tail) =
      '<' :: (Tag.start (qualifiedName (pageOf q) q.name) namespaces true).body ++ ['>'] := by
  rw [← qualify_inPages hns]
  simp [written, inPages, allInPages, Element.chunks, render, Chunk.body, escape]

theorem written_open (hns : ns ≠ metinfNs) (hcontent : text ≠ "" ∨ children ≠ []) :
    written ns namespaces (.node (some q) attributes text children tail) =
      '<' :: (Tag.start (qualifiedName (pageOf q) q.name) namespaces false).body ++ ['>'] ++
        (escape text ++ (allWritten ns children ++
          ('<' :: (Tag.stop (qualifiedName (pageOf q) q.name)).body ++ ['>']))) := by
  have hchildren : allInPages ns children = [] ↔ children = [] := by
    cases children <;> simp [allInPages]
  have hopen : (text = "" && (allInPages ns children).isEmpty) = false := by
    rw [Bool.and_eq_false_iff]
    rcases hcontent with h | h
    · exact Or.inl (decide_eq_false h)
    · exact Or.inr (by simpa [hchildren] using h)
  rw [← qualify_inPages hns]
  simp [written, allWritten, inPages, Element.chunks, hopen, render, Chunk.body, escape]

end Written

section Walking
variable {env : Encoding} {ns : String} {t : StringTable}

theorem switch_walks {o o' : Encoder} {page : Nat} (h : o.switch page = .ok o') (hpage : page < 2) :
    ∃ bytes, o'.output.data = o.output.data ++ bytes ∧ o'.page = page ∧
      ∀ w rest, w.page = o.page → (w.elements = 0 ∨ w.stack ≠ []) →
        Walks ns t.table w (bytes ++ rest) { w with page } rest := by
  unfold Encoder.switch at h
  split_ifs at h with hsame
  · obtain rfl := Except.ok.inj h
    refine ⟨[], (List.append_nil _).symm, hsame.symm, fun w rest hw _ => ?_⟩
    have hnone : { w with page } = w := by
      rw [hsame, ← hw]
    rw [hnone]
    exact .here _ _
  · obtain ⟨o₁, hwrite, h⟩ := Except.bind_eq_ok.mp h
    obtain rfl := Except.ok.inj h
    obtain ⟨hdata, -⟩ := Encoder.write_ok hwrite
    refine ⟨_, hdata, rfl, fun w rest _ hplace => .one (walk_switch hplace hpage) ?_⟩
    simp only [List.cons_append, List.nil_append, List.length_cons]
    omega

def startText (ns : String) (w : Walk) (q : QName) (closed : Bool) : List Char :=
  '<' :: (Tag.start (qualifiedName (pageOf q) q.name) (w.namespaces ns) closed).body ++ ['>']

theorem tag_walks {o o₁ o₂ : Encoder} {q : QName} {token : UInt8} (closed : Bool)
    (hpage : pageOf q < 2) (hentry : (token, q.name) ∈ tagPages.getD (pageOf q) [])
    (hswitch : o.switch (pageOf q) = .ok o₁) (hwrite : o₁.write [tagByte token closed] = .ok o₂) :
    ∃ bytes, o₂.output.data = o.output.data ++ bytes ∧ o₂.page = pageOf q ∧
      ∀ w rest, w.page = o.page →
        (w.Inside ∨ w.elements = 0 ∧ pageOf q = 0 ∧ q.name = "SyncML") →
        w.stack.length < maxDepth → w.elements < maxElements → w.Room (startText ns w q closed) →
        Walks ns t.table w (bytes ++ rest)
          { w.after (startText ns w q closed) (pageOf q) 1 with
            stack := if closed then w.stack else qualifiedName (pageOf q) q.name :: w.stack }
          rest := by
  obtain ⟨switch, hdata, hpage₁, hswitches⟩ := @switch_walks ns t _ _ _ hswitch hpage
  obtain ⟨hdata₂, hpage₂⟩ := Encoder.write_ok hwrite
  refine ⟨switch ++ [tagByte token closed], by rw [hdata₂, hdata, List.append_assoc],
    hpage₂.trans hpage₁, ?_⟩
  intro w rest hw hplace hdepth helements hroom
  rw [List.append_assoc]
  apply (hswitches w _ hw (hplace.elim (fun h => Or.inr h.1) fun h => Or.inl h.1)).trans
  have htag := @walk_tag _ t.table { w with page := pageOf q } rest _ _ closed
    hpage hentry hplace hdepth helements hroom
  exact .one htag (by simp)

mutual

theorem elementContent_walks (hsound : t.Sound) (hoffsets : env.offsets = t.offsets)
    (hns : ns ≠ metinfNs) :
    (e : Element) → (∀ x ∈ e.iter, Textual x) → {o o' : Encoder} →
      elementContent env e o = .ok o' →
      ∃ bytes, o'.output.data = o.output.data ++ bytes ∧ ∀ w rest, w.page = o.page →
        (w.Inside ∨ w.elements = 0 ∧ (∀ q, e.tag = some q → pageOf q = 0) ∧
          e.localName = "SyncML") →
        w.stack.length + e.depth ≤ maxDepth → w.elements + e.iter.length ≤ maxElements →
        w.Room (written ns (w.namespaces ns) e) →
        Walks ns t.table w (bytes ++ rest)
          (w.after (written ns (w.namespaces ns) e) o'.page e.iter.length) rest
  | .node tag attributes text children tail, htexts, o, o', h => by
    unfold elementContent at h
    obtain ⟨⟨page, token⟩, htoken, hrest⟩ := Except.bind_eq_ok.mp h
    clear h
    obtain ⟨q, rfl, rfl, hpage, hentry⟩ := tagToken_ok htoken
    dsimp only at hrest
    obtain ⟨o₁, hswitch, hbody⟩ := Except.bind_eq_ok.mp hrest
    clear hrest
    split_ifs at hbody with hcontent
    -- an element with content: its tag, its text, its children and the end token
    · obtain ⟨o₂, htag, hbody⟩ := Except.bind_eq_ok.mp hbody
      obtain ⟨o₃, htext, hbody⟩ := Except.bind_eq_ok.mp hbody
      obtain ⟨o₄, hchildren, hend⟩ := Except.bind_eq_ok.mp hbody
      obtain ⟨tag, hdata₂, hpage₂, htags⟩ :=
        @tag_walks ns t _ _ _ _ _ false hpage hentry hswitch htag
      obtain ⟨texts, hdata₃, hpage₃, htexts'⟩ :=
        textContent_walks ns hsound hoffsets htext (htexts _ List.mem_cons_self).1
      obtain ⟨below, hdata₄, hbelow⟩ := childrenContent_walks hsound hoffsets hns children
        (fun x hx => htexts x (List.mem_cons_of_mem _ hx)) hchildren
      obtain ⟨hdata, hpage'⟩ := Encoder.write_ok hend
      refine ⟨tag ++ (texts ++ (below ++ [endToken])), by
        rw [hdata, hdata₄, hdata₃, hdata₂]; simp only [List.append_assoc], ?_⟩
      intro w rest hw hplace hdepth helements hroom
      have hopen : written ns (w.namespaces ns) (.node (some q) attributes text children tail) =
          startText ns w q false ++ (escape text ++ (allWritten ns children ++
            ('<' :: (Tag.stop (qualifiedName (pageOf q) q.name)).body ++ ['>']))) :=
        written_open hns (hcontent.imp id fun h => by simpa using h)
      rw [hopen] at hroom ⊢
      obtain ⟨hroom₁, hroom⟩ := Walk.room_append.mp hroom
      obtain ⟨hroom₂, hroom⟩ := Walk.room_append.mp hroom
      obtain ⟨hroom₃, hroom₄⟩ := Walk.room_append.mp hroom
      have hless : w.stack.length + 1 + Element.depthAll children ≤ maxDepth := by
        rw [Element.depth] at hdepth
        omega
      have hfew : w.elements + 1 + (Element.iterAll children).length ≤ maxElements := by
        rw [Element.iter, List.length_cons] at helements
        omega
      have hfirst := htags w (texts ++ (below ++ ([endToken] ++ rest))) hw
        (hplace.imp id fun h => ⟨h.1, h.2.1 q rfl, h.2.2⟩) (by omega) (by omega) hroom₁
      rw [if_neg Bool.false_ne_true] at hfirst
      -- `u` is where the loop stands behind the start tag
      generalize hu : ({ w.after (startText ns w q false) (pageOf q) 1 with
        stack := qualifiedName (pageOf q) q.name :: w.stack } : Walk) = u at hfirst
      have hstack : u.stack = qualifiedName (pageOf q) q.name :: w.stack := by rw [← hu]
      have hinside : (u.wrote (escape text)).Inside := by
        rw [← hu]
        exact ⟨List.cons_ne_nil _ _, Nat.succ_ne_zero _⟩
      have hsecond := htexts' u (below ++ ([endToken] ++ rest)) hinside.1 (by rw [← hu]; exact hroom₂)
      have hthird := hbelow (u.wrote (escape text)) ([endToken] ++ rest)
        (by rw [← hu, hpage₃, hpage₂]; rfl) hinside
        (by rw [← hu]; exact hless) (by rw [← hu]; exact hfew) (by rw [← hu]; exact hroom₃)
      have hlast := @walk_end ns t.table
        ((u.wrote (escape text)).after (allWritten ns children) o₄.page
          (Element.iterAll children).length) rest _ _ hstack (by rw [← hu]; exact hroom₄)
      have hall := ((hfirst.trans hsecond).trans hthird).trans (.one hlast (by simp))
      simp only [List.append_assoc]
      -- the four parts together leave what the element leaves
      have hsame : w.after (startText ns w q false ++ (escape text ++ (allWritten ns children ++
          ('<' :: (Tag.stop (qualifiedName (pageOf q) q.name)).body ++ ['>'])))) o'.page
          (Element.iter (.node (some q) attributes text children tail)).length =
        { ((u.wrote (escape text)).after (allWritten ns children) o₄.page
            (Element.iterAll children).length).wrote
          ('<' :: (Tag.stop (qualifiedName (pageOf q) q.name)).body ++ ['>']) with
          stack := w.stack } := by
        rw [← hu, hpage']
        unfold Walk.after Walk.wrote
        simp only [utf8_ofList_append, List.append_assoc, Element.iter, List.length_cons]
        congr 1
        omega
      rw [hsame]
      exact hall
    -- an empty element is closed by its own tag
    · obtain ⟨htext, hchildren⟩ := not_or.mp hcontent
      obtain rfl : text = "" := not_not.mp htext
      obtain rfl : children = [] := by simpa using hchildren
      obtain ⟨bytes, hdata, hpage₁, htags⟩ :=
        @tag_walks ns t _ _ _ _ _ true hpage hentry hswitch hbody
      refine ⟨bytes, hdata, fun w rest hw hplace hdepth helements hroom => ?_⟩
      rw [written_closed hns] at hroom ⊢
      rw [hpage₁]
      exact htags w rest hw (hplace.imp id fun h => ⟨h.1, h.2.1 q rfl, h.2.2⟩)
        (by simp [Element.depth] at hdepth; omega) (by simp [Element.iter] at helements; omega) hroom

theorem childrenContent_walks (hsound : t.Sound) (hoffsets : env.offsets = t.offsets)
    (hns : ns ≠ metinfNs) :
    (es : List Element) → (∀ x ∈ Element.iterAll es, Textual x) → {o o' : Encoder} →
      childrenContent env es o = .ok o' →
      ∃ bytes, o'.output.data = o.output.data ++ bytes ∧ ∀ w rest, w.page = o.page → w.Inside →
        w.stack.length + Element.depthAll es ≤ maxDepth →
        w.elements + (Element.iterAll es).length ≤ maxElements → w.Room (allWritten ns es) →
        Walks ns t.table w (bytes ++ rest)
          (w.after (allWritten ns es) o'.page (Element.iterAll es).length) rest
  | [], htexts, o, o', h => by
    unfold childrenContent at h
    obtain rfl := Except.ok.inj h
    refine ⟨[], (List.append_nil _).symm, fun w rest hw _ _ _ _ => ?_⟩
    have hnone : w.after (allWritten ns []) o.page (Element.iterAll []).length = w := by
      rw [← hw]
      change { w.wrote [] with page := w.page, elements := w.elements + 0 } = w
      rw [w.wrote_nil]
      rfl
    rw [hnone]
    exact .here _ _
  | e :: es, htexts, o, o', h => by
    unfold childrenContent at h
    obtain ⟨o₁, helement, h₁⟩ := Except.bind_eq_ok.mp h
    obtain ⟨o₂, htail, hrest⟩ := Except.bind_eq_ok.mp h₁
    obtain ⟨first, hdata₁, hfirst⟩ := elementContent_walks hsound hoffsets hns e
      (fun x hx => htexts x (List.mem_append_left _ hx)) helement
    have hself : e ∈ Element.iterAll (e :: es) := by
      cases e
      exact List.mem_cons_self
    obtain ⟨tail, hdata₂, hpage₂, htails⟩ :=
      textContent_walks ns hsound hoffsets htail (htexts e hself).2
    obtain ⟨more, hdata₃, hmore⟩ := childrenContent_walks hsound hoffsets hns es
      (fun x hx => htexts x (List.mem_append_right _ hx)) hrest
    refine ⟨first ++ (tail ++ more), by rw [hdata₃, hdata₂, hdata₁]; simp only [List.append_assoc],
      fun w rest hw hinside hdepth helements hroom => ?_⟩
    have hdeep := Nat.le_max_left e.depth (Element.depthAll es)
    have hdeeper := Nat.le_max_right e.depth (Element.depthAll es)
    rw [Element.depthAll] at hdepth
    rw [Element.iterAll, List.length_append] at helements
    -- below the root no element declares a namespace
    have hnone : w.namespaces ns = [] := if_neg hinside.2
    rw [allWritten_cons, ← hnone] at hroom ⊢
    obtain ⟨hroom₁, hroom₃⟩ := Walk.room_append.mp hroom
    obtain ⟨hroom₁, hroom₂⟩ := Walk.room_append.mp hroom₁
    rw [← Walk.wrote_wrote] at hroom₃
    have hone := hfirst w (tail ++ (more ++ rest)) hw (Or.inl hinside) (by omega) (by omega) hroom₁
    -- `u` is where the loop stands behind the first element and its tail
    generalize hu : (w.after (written ns (w.namespaces ns) e) o₁.page e.iter.length).wrote
      (escape e.tail) = u
    have htwo := htails (w.after (written ns (w.namespaces ns) e) o₁.page e.iter.length)
      (more ++ rest) hinside.1 hroom₂
    rw [hu] at htwo
    have hcount : u.elements = w.elements + e.iter.length := by
      rw [← hu]
      rfl
    have hstack : u.stack = w.stack := by
      rw [← hu]
      rfl
    have hthree := hmore u rest (by rw [hpage₂, ← hu]; rfl)
      ⟨by rw [hstack]; exact hinside.1, by rw [hcount]; have := hinside.2; omega⟩
      (by rw [hstack]; omega) (by omega) (by rw [← hu]; exact hroom₃)
    have hall := (hone.trans htwo).trans hthree
    have hsame : w.after (written ns (w.namespaces ns) e ++ escape e.tail ++ allWritten ns es)
        o'.page (Element.iterAll (e :: es)).length =
          u.after (allWritten ns es) o'.page (Element.iterAll es).length := by
      rw [← hu]
      unfold Walk.after Walk.wrote
      simp only [utf8_ofList_append, List.append_assoc, Element.iterAll, List.length_append]
      congr 1
      omega
    rw [hsame]
    simp only [List.append_assoc]
    exact hall

end

end Walking

end Trees

end Acs.Wbxml
