import Acs.Auth.Gba
import Acs.Data.SplitOn
import Acs.Security.Numbers

/-! Which `Authorization` headers `parse_authorization` reads back: directives written between
commas, quoted or as tokens. -/

namespace Acs.Gba
open Msisdn

/-! ### How a header is written -/

def asciiLower (s : String) : String := String.ofList (s.toList.map Char.toLower)

/-- The documentation's `str.lower`: ASCII letters one by one, and a space parts what stands before
it from what follows. -/
structure LowersAscii (lower : String → String) : Prop where
  ascii : ∀ s, isAscii s = true → lower s = asciiLower s
  space : ∀ s rest, isAscii s = true → lower (s ++ " " ++ rest) = asciiLower s ++ " " ++ lower rest

def isTokenChar (c : Char) : Bool :=
  c.isAlphanum || ['!', '#', '$', '%', '&', Char.ofNat 39, '*', '+', '-', '.', '^', '_', '|', '~',
    Char.ofNat 96].contains c

def IsToken (s : String) : Prop := s ≠ "" ∧ ∀ c ∈ s.toList, isTokenChar c = true

def Blanks (cs : List Char) : Prop := ∀ c ∈ cs, c = ' ' ∨ c = '\t'

/-- A directive as a client writes it, with blanks around it. -/
structure Directive where
  name : String
  value : String
  quoted : Bool := true
  before : List Char := []
  after : List Char := []

structure Directive.WellFormed (d : Directive) : Prop where
  name : IsToken d.name
  value : '"' ∉ d.value.toList ∧ '\\' ∉ d.value.toList
  unquoted : d.quoted = false → IsToken d.value
  before : Blanks d.before
  after : Blanks d.after

def Directive.written (d : Directive) : List Char :=
  d.before ++ d.name.toList ++ '=' ::
    (if d.quoted then '"' :: d.value.toList ++ ['"'] else d.value.toList) ++ d.after

/-- The header after the word `Digest`, in whatever case that is. -/
def headerOf (word : String) (ds : List Directive) : String :=
  word ++ " " ++ String.ofList (List.intercalate [','] (ds.map Directive.written))

def meaning (ds : List Directive) : List (String × String) :=
  ds.map fun d => (asciiLower d.name, d.value)

section One
variable {py : PyText} {lower : String → String} {d : Directive}

theorem token_ascii {c : Char} (h : isTokenChar c = true) :
    c.toNat < 128 ∧ isSpaceChar c = false ∧ c ∉ ['=', ',', '"'] := by
  unfold isTokenChar at h
  rcases Bool.or_eq_true_iff.1 h with h | h
  · obtain ⟨hascii, hspace, -⟩ := bare_of_isAlphanum h
    refine ⟨hascii, hspace, fun hmem => ?_⟩
    simp only [List.mem_cons, List.not_mem_nil, or_false] at hmem
    rcases hmem with rfl | rfl | rfl <;> exact absurd h (by decide)
  · have hsigns : (['!', '#', '$', '%', '&', Char.ofNat 39, '*', '+', '-', '.', '^', '_', '|', '~',
        Char.ofNat 96].all fun c => c.toNat < 128 && !isSpaceChar c && !(['=', ',', '"'].contains c)) =
        true := by decide
    have hsign := List.all_eq_true.1 hsigns c (List.contains_iff_mem.1 h)
    simp only [Bool.and_eq_true, decide_eq_true_eq, Bool.not_eq_true', ← Bool.not_eq_true,
      List.contains_iff_mem] at hsign
    exact ⟨hsign.1.1, Bool.not_eq_true _ ▸ hsign.1.2, hsign.2⟩

theorem IsToken.isAscii {s : String} (h : IsToken s) : isAscii s = true :=
  List.all_eq_true.2 fun c hc => decide_eq_true (token_ascii (h.2 c hc)).1

theorem blank_space {cs : List Char} (h : Blanks cs) : ∀ c ∈ cs, isSpaceChar c = true := by
  intro c hc
  rcases h c hc with rfl | rfl <;> decide

theorem strip_blanks (hpy : py.Lawful) {before after cs : List Char} (hbefore : Blanks before)
    (hafter : Blanks after) (hhead : ∀ c ∈ cs.head?, isSpaceChar c = false)
    (hlast : ∀ c ∈ cs.getLast?, isSpaceChar c = false) (hne : cs ≠ []) :
    py.strip (String.ofList (before ++ cs ++ after)) = String.ofList cs := by
  have hall : ∀ {l : List Char}, Blanks l → l.dropWhile isSpaceChar = [] :=
    fun h => List.dropWhile_eq_nil_iff.2 (blank_space h)
  have hfront : (before ++ cs ++ after).dropWhile isSpaceChar = cs ++ after := by
    obtain ⟨c, rest, rfl⟩ := List.exists_cons_of_ne_nil hne
    rw [List.append_assoc, List.dropWhile_append, hall hbefore, List.isEmpty_nil, if_pos rfl,
      List.cons_append]
    exact List.dropWhile_cons_of_neg (by rw [hhead c rfl]; exact Bool.false_ne_true)
  have hback : (cs ++ after).rdropWhile isSpaceChar = cs := by
    have hreverse : Blanks after.reverse := fun c hc => hafter c (List.mem_reverse.1 hc)
    unfold List.rdropWhile
    rw [List.reverse_append, List.dropWhile_append, hall hreverse, List.isEmpty_nil, if_pos rfl]
    have hself : cs.rdropWhile isSpaceChar = cs := by
      rw [List.rdropWhile_eq_self_iff]
      intro hne hspace
      rw [hlast _ (List.getLast?_eq_some_getLast hne)] at hspace
      exact Bool.false_ne_true hspace
    exact hself
  rw [hpy.strip]
  unfold strip
  rw [String.toList_ofList, hfront, hback]

theorem IsToken.ends {s : String} (h : IsToken s) :
    (∀ c ∈ s.toList.head?, isSpaceChar c = false) ∧
      ∀ c ∈ s.toList.getLast?, isSpaceChar c = false :=
  ⟨fun c hc => (token_ascii (h.2 c (List.mem_of_mem_head? hc))).2.1,
    fun c hc => (token_ascii (h.2 c (List.mem_of_getLast? hc))).2.1⟩

theorem toList_ne_nil {s : String} (h : s ≠ "") : s.toList ≠ [] :=
  fun hnil => h (String.toList_eq_nil_iff.1 hnil)

theorem stripChar_quoted {value : List Char} (h : '"' ∉ value) :
    Enrichment.stripChar '"' ('"' :: value ++ ['"']) = value := by
  unfold Enrichment.stripChar
  rw [List.cons_append, List.dropWhile_cons_of_pos (by simp)]
  cases value with
  | nil => rfl
  | cons c value =>
    have hc : c ≠ '"' := fun hq => h (hq ▸ List.mem_cons_self)
    have hreverse : '"' ∉ (c :: value).reverse := fun hmem => h (List.mem_reverse.1 hmem)
    rw [List.cons_append, List.dropWhile_cons_of_neg (by simpa using hc), ← List.cons_append,
      List.reverse_append, List.reverse_singleton, List.singleton_append,
      List.dropWhile_cons_of_pos (by simp), Enrichment.dropWhile_of_not_mem hreverse,
      List.reverse_reverse]

theorem directiveOf_written (hpy : py.Lawful) (hlower : LowersAscii lower) (hd : d.WellFormed) :
    directiveOf py lower (String.ofList d.written) = some (asciiLower d.name, d.value) := by
  -- the first equals sign is the one between the name and the value
  have hkey : ∀ c ∈ d.before ++ d.name.toList, c ≠ '=' := by
    intro c hc
    rcases List.mem_append.1 hc with hc | hc
    · rcases hd.before c hc with rfl | rfl <;> decide
    · rintro rfl
      exact (token_ascii (hd.name.2 _ hc)).2.2 (by simp)
  have hsplit : d.written = (d.before ++ d.name.toList) ++ '=' ::
      ((if d.quoted then '"' :: d.value.toList ++ ['"'] else d.value.toList) ++ d.after) := by
    unfold Directive.written
    rw [List.append_assoc _ ('=' :: _) d.after, List.cons_append]
  have hname : py.strip (String.ofList (d.before ++ d.name.toList)) = d.name := by
    have hstrip := @strip_blanks py hpy d.before [] _ hd.before (fun _ h => nomatch h) hd.name.ends.1
      hd.name.ends.2 (toList_ne_nil hd.name.1)
    rwa [List.append_nil, String.ofList_toList] at hstrip
  -- the blanks around the value go, and then its quotes
  have hvalue : Enrichment.stripChar '"' (py.strip (String.ofList
      ((if d.quoted then '"' :: d.value.toList ++ ['"'] else d.value.toList) ++ d.after))).toList =
      d.value.toList := by
    cases hquoted : d.quoted with
    | true =>
      have hquote : isSpaceChar '"' = false := by decide
      have hstrip := @strip_blanks py hpy [] d.after ('"' :: d.value.toList ++ ['"'])
        (fun _ h => nomatch h) hd.after
        (fun c hc => by cases hc; exact hquote)
        (fun c hc => by rw [List.getLast?_concat] at hc; cases hc; exact hquote) (by simp)
      rw [List.nil_append] at hstrip
      rw [if_pos rfl, hstrip, String.toList_ofList, stripChar_quoted hd.value.1]
    | false =>
      have htoken := hd.unquoted hquoted
      have hstrip := @strip_blanks py hpy [] d.after _ (fun _ h => nomatch h) hd.after htoken.ends.1
        htoken.ends.2 (toList_ne_nil htoken.1)
      rw [List.nil_append] at hstrip
      rw [if_neg Bool.false_ne_true, hstrip, String.toList_ofList,
        Enrichment.stripChar_of_not_mem hd.value.1]
  have htake : d.written.takeWhile (· ≠ '=') = d.before ++ d.name.toList := by
    rw [hsplit, List.takeWhile_append_of_pos fun c hc => decide_eq_true (hkey c hc),
      List.takeWhile_cons_of_neg (by simp), List.append_nil]
  have hdrop : (d.written.dropWhile (· ≠ '=')).drop 1 =
      (if d.quoted then '"' :: d.value.toList ++ ['"'] else d.value.toList) ++ d.after := by
    rw [hsplit, List.dropWhile_append_of_pos fun c hc => decide_eq_true (hkey c hc),
      List.dropWhile_cons_of_neg (by simp), List.drop_one, List.tail_cons]
  have hequals : d.written.contains '=' = true := by
    rw [List.contains_iff_mem, hsplit]
    exact List.mem_append_right _ List.mem_cons_self
  unfold directiveOf
  dsimp only
  rw [String.toList_ofList, if_pos hequals, htake, hdrop, hname, hvalue, String.ofList_toList,
    hlower.ascii _ hd.name.isAscii]

end One

/-! ### The whole header -/

section Header
variable {py : PyText} {lower : String → String} {ds : List Directive}

theorem setDirective_new {key value : String} {out : List (String × String)}
    (h : key ∉ out.map Prod.fst) : setDirective key value out = out ++ [(key, value)] := by
  induction out with
  | nil => rfl
  | cons entry out ih =>
    obtain ⟨k, v⟩ := entry
    rw [List.map_cons, List.mem_cons, not_or] at h
    rw [setDirective, if_neg (Ne.symm h.1), ih h.2, List.cons_append]

theorem foldl_setDirective {entries out : List (String × String)}
    (h : ((out ++ entries).map Prod.fst).Nodup) :
    entries.foldl (fun out d => setDirective d.1 d.2 out) out = out ++ entries := by
  induction entries generalizing out with
  | nil => exact (List.append_nil _).symm
  | cons entry entries ih =>
    obtain ⟨key, value⟩ := entry
    have hnew : key ∉ out.map Prod.fst := by
      rw [List.map_append, List.nodup_append] at h
      exact fun hmem => h.2.2 key hmem key List.mem_cons_self rfl
    have hnext : (((out ++ [(key, value)]) ++ entries).map Prod.fst).Nodup := by
      rwa [List.append_assoc, List.singleton_append]
    rw [List.foldl_cons, setDirective_new hnew, ih hnext, List.append_assoc, List.singleton_append]

theorem mem_setDirective {key value : String} {out : List (String × String)}
    {entry : String × String} (h : entry ∈ setDirective key value out) :
    entry = (key, value) ∨ entry ∈ out := by
  induction out with
  | nil => exact .inl (List.mem_singleton.1 h)
  | cons first out ih =>
    obtain ⟨k, v⟩ := first
    unfold setDirective at h
    split_ifs at h
    · exact (List.mem_cons.1 h).imp_right (List.mem_cons_of_mem _)
    · rcases List.mem_cons.1 h with h | h
      · exact .inr (h ▸ List.mem_cons_self)
      · exact (ih h).imp_right (List.mem_cons_of_mem _)

theorem mem_foldl_setDirective {entries out : List (String × String)} {entry : String × String}
    (h : entry ∈ entries.foldl (fun out d => setDirective d.1 d.2 out) out) :
    entry ∈ entries ∨ entry ∈ out := by
  induction entries generalizing out with
  | nil => exact .inr h
  | cons first entries ih =>
    rcases ih h with h | h
    · exact .inl (List.mem_cons_of_mem _ h)
    · exact (mem_setDirective h).imp_left fun h => List.mem_cons.2 (.inl h)

theorem mem_of_mem_strip {s : String} {c : Char} (h : c ∈ (strip s).toList) : c ∈ s.toList := by
  unfold strip at h
  rw [String.toList_ofList] at h
  exact (List.dropWhile_sublist _).subset ((List.rdropWhile_prefix _ _).subset h)

theorem mem_of_mem_stripChar {quote c : Char} {cs : List Char}
    (h : c ∈ Enrichment.stripChar quote cs) : c ∈ cs := by
  unfold Enrichment.stripChar at h
  have hback := (List.dropWhile_sublist _).subset (List.mem_reverse.1 h)
  exact (List.dropWhile_sublist _).subset (List.mem_reverse.1 hback)

theorem comma_not_mem (hpy : py.Lawful) {header : String} {entry : String × String}
    (h : entry ∈ parseAuthorization py lower header) : ',' ∉ entry.2.toList := by
  unfold parseAuthorization at h
  split_ifs at h
  · rcases mem_foldl_setDirective h with h | h
    · obtain ⟨part, hpart, hentry⟩ := List.mem_filterMap.1 h
      obtain ⟨cs, hcs, rfl⟩ := List.mem_map.1 hpart
      have hcomma := List.not_mem_of_mem_splitOn hcs
      unfold directiveOf at hentry
      split_ifs at hentry
      obtain rfl := Option.some.inj hentry
      intro hmem
      rw [String.toList_ofList] at hmem
      have hstripped := mem_of_mem_stripChar hmem
      rw [hpy.strip] at hstripped
      have hvalue := mem_of_mem_strip hstripped
      rw [String.toList_ofList, String.toList_ofList] at hvalue
      exact hcomma ((List.dropWhile_sublist _).subset (List.mem_of_mem_drop hvalue))
    · cases h
  · cases h

def IsDigest (word : String) : Prop := isAscii word = true ∧ asciiLower word = "digest"

theorem digest_starts (hlower : LowersAscii lower) {word : String} (hword : IsDigest word)
    (rest : String) :
    "digest ".toList.isPrefixOf (lower (word ++ " " ++ rest)).toList = true ∧
      (word ++ " " ++ rest).toList.drop 7 = rest.toList := by
  have hlength : (word ++ " ").toList.length = 7 := by
    have hsame := congrArg (fun s : String => s.toList.length) hword.2
    dsimp only [asciiLower] at hsame
    rw [String.toList_ofList, List.length_map] at hsame
    rw [String.toList_append, List.length_append, hsame]
    rfl
  constructor
  · rw [hlower.space _ _ hword.1, hword.2, String.toList_append, List.isPrefixOf_iff_prefix]
    exact List.prefix_append _ _
  · rw [String.toList_append, ← hlength, List.drop_left]

/-- A well-formed header is read as it is meant unless a value has a comma: there it is cut. -/
theorem parseAuthorization_iff (hpy : py.Lawful) (hlower : LowersAscii lower) {word : String}
    (hword : IsDigest word) (hne : ds ≠ []) (hds : ∀ d ∈ ds, d.WellFormed)
    (hdistinct : ((meaning ds).map Prod.fst).Nodup) :
    parseAuthorization py lower (headerOf word ds) = meaning ds ↔
      ∀ d ∈ ds, ',' ∉ d.value.toList := by
  constructor
  · intro h d hd
    have hmem : (asciiLower d.name, d.value) ∈ parseAuthorization py lower (headerOf word ds) := by
      rw [h]
      exact List.mem_map_of_mem hd
    exact comma_not_mem hpy hmem
  · intro hcommas
    have hparts : ∀ part ∈ ds.map Directive.written, ',' ∉ part := by
      intro part hpart hmem
      obtain ⟨d, hd, rfl⟩ := List.mem_map.1 hpart
      have hblank : ∀ {cs : List Char}, Blanks cs → ',' ∉ cs := fun h hc => by
        rcases h _ hc with h | h <;> cases h
      have hname : ',' ∉ d.name.toList :=
        fun hc => (token_ascii ((hds d hd).name.2 _ hc)).2.2 (by simp)
      unfold Directive.written at hmem
      split_ifs at hmem <;>
        simp only [List.mem_append, List.mem_cons, List.not_mem_nil, or_false, hcommas d hd, hname,
          hblank (hds d hd).before, hblank (hds d hd).after, false_or] at hmem
      all_goals revert hmem; decide
    obtain ⟨hstarts, hrest⟩ := digest_starts hlower hword
      (String.ofList (List.intercalate [','] (ds.map Directive.written)))
    have hsplit : Enrichment.splitComma (String.ofList ((headerOf word ds).toList.drop 7)) =
        ds.map fun d => String.ofList d.written := by
      unfold Enrichment.splitComma headerOf
      rw [hrest, String.toList_ofList, String.toList_ofList,
        List.splitOn_intercalate ',' hparts (by simpa using hne), List.map_map]
      rfl
    have hread : ((ds.map fun d => String.ofList d.written).filterMap (directiveOf py lower)) =
        meaning ds := by
      rw [List.filterMap_map]
      unfold meaning
      rw [← List.filterMap_eq_map']
      exact List.filterMap_congr fun d hd => directiveOf_written hpy hlower (hds d hd)
    have hdigest : "digest ".toList.isPrefixOf (lower (headerOf word ds)).toList = true := hstarts
    unfold parseAuthorization
    rw [if_pos hdigest, hsplit, hread]
    exact @foldl_setDirective (meaning ds) [] hdistinct

end Header

namespace Lab

theorem lowersAscii_asciiLower : LowersAscii asciiLower where
  ascii _ _ := rfl
  space s rest _ := by
    unfold asciiLower
    rw [String.toList_append, String.toList_append, List.map_append, List.map_append,
      String.ofList_append, String.ofList_append]
    rfl

def directives : List Directive :=
  [{ name := "username", value := "a b=c", after := [' '] },
    { name := "nc", value := "00000001", quoted := false, before := [' '] }]

theorem isToken_of_all {s : String} (hne : s ≠ "") (h : s.toList.all isTokenChar = true) :
    IsToken s := ⟨hne, List.all_eq_true.1 h⟩

theorem blanks_of_all {cs : List Char} (h : cs.all (fun c => c = ' ' || c = '\t') = true) :
    Blanks cs := by
  intro c hc
  simpa using List.all_eq_true.1 h c hc

theorem wellFormed_directives : ∀ d ∈ directives, d.WellFormed := by
  intro d hd
  simp only [directives, List.mem_cons, List.not_mem_nil, or_false] at hd
  rcases hd with rfl | rfl
  · exact ⟨isToken_of_all (by decide) (by decide +kernel), by decide +kernel, nofun,
      blanks_of_all rfl, blanks_of_all (by decide)⟩
  · exact ⟨isToken_of_all (by decide) (by decide +kernel), by decide +kernel,
      fun _ => isToken_of_all (by decide) (by decide +kernel), blanks_of_all (by decide),
      blanks_of_all rfl⟩

theorem parseAuthorization_written :
    parseAuthorization Msisdn.Lab.text asciiLower (headerOf "Digest" directives) =
      meaning directives ↔ ∀ d ∈ directives, ',' ∉ d.value.toList :=
  parseAuthorization_iff Msisdn.Lab.lawful_text lowersAscii_asciiLower
    ⟨by decide, by decide +kernel⟩ (by simp [directives]) wellFormed_directives
    (by decide +kernel)

/-- A uri with a comma loses what follows it. -/
theorem parseAuthorization_cut :
    parseAuthorization Msisdn.Lab.text asciiLower
        (headerOf "Digest" [{ name := "uri", value := "/?a,b" }]) = [("uri", "/?a")] ∧
      parseAuthorization Msisdn.Lab.text asciiLower
        (headerOf "Digest" [{ name := "uri", value := "/?a,b" }]) ≠
          meaning [{ name := "uri", value := "/?a,b" }] := by
  decide +kernel

end Lab
end Acs.Gba
