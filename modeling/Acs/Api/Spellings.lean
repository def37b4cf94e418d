import Acs.Api.MsisdnUi
import Acs.Auth.Enrichment
import Acs.Protocol.Grammar

/-! The spellings of one number, and where a subscriber is looked up by it: a request, the web
flow, header enrichment and the admin API. -/

namespace Acs.Msisdn
open Parameters

section Trimmed
variable {py : PyText} {settings : Settings} {raw raw' : String} {d : List Char}

theorem normalise_congr (h : py.strip raw = py.strip raw') :
    normaliseMsisdn py settings raw = normaliseMsisdn py settings raw' := by
  unfold normaliseMsisdn
  rw [h]

theorem strip_space (hpy : py.Lawful) (d : List Char) :
    py.strip (String.ofList (' ' :: d)) = py.strip (String.ofList d) := by
  have hspace : isSpaceChar ' ' = true := by decide
  rw [hpy.strip]
  unfold Acs.strip
  rw [String.toList_ofList, String.toList_ofList, List.dropWhile_cons_of_pos hspace]

theorem digitsIn_digits (hpy : py.Lawful) (h : Digits d) : digitsIn py (String.ofList d) = d := by
  unfold digitsIn
  rw [h.strip hpy, String.toList_ofList, h.filter hpy]

def TakenAsNational (settings : Settings) (d : List Char) : Prop :=
  settings.defaultCountryCode.toList ≠ [] ∧ settings.nationalTrunkPrefix.toList ≠ [] ∧
    settings.nationalTrunkPrefix.toList <+: d ∧ ¬ settings.defaultCountryCode.toList <+: d

theorem national_digits (hpy : py.Lawful) (h : Digits d) :
    National py settings (String.ofList d) ↔ TakenAsNational settings d := by
  have hplus : ¬ HadPlus py (String.ofList d) := by
    have hfirst : ∀ c, d.find? (· ≠ '-') = some c → c.isDigit = true :=
      fun c hc => h c (List.mem_of_find?_eq_some hc)
    unfold HadPlus
    rw [h.strip hpy, String.toList_ofList]
    rintro (hc | hc)
    · exact absurd (hfirst _ hc) (by decide)
    · exact absurd (hfirst _ hc) (by decide)
  unfold National TakenAsNational
  rw [digitsIn_digits hpy h]
  exact and_iff_right hplus

theorem normalise_bare (hpy : py.Lawful) (h : Valid d) (hnational : ¬ TakenAsNational settings d) :
    normaliseMsisdn py settings (String.ofList d) = some (String.ofList ('+' :: d)) := by
  have hmeant : meant py settings (String.ofList d) = d := by
    unfold meant
    rw [if_neg fun hn => hnational ((national_digits hpy h.digits).1 hn),
      digitsIn_digits hpy h.digits]
  rw [normaliseMsisdn_eq hpy, hmeant, if_pos (h.isNumber hpy)]

theorem meant_national (hpy : py.Lawful) (h : Digits d) (hnational : TakenAsNational settings d) :
    meant py settings (String.ofList d) =
      settings.defaultCountryCode.toList ++ d.drop settings.nationalTrunkPrefix.toList.length := by
  unfold meant
  rw [if_pos ((national_digits hpy h).2 hnational), digitsIn_digits hpy h]

end Trimmed

/-- `SubscriberIn._msisdn` -/
def subscriberMsisdn (py : PyText) (settings : Settings) (value : String) : Except String String :=
  match normaliseMsisdn py settings value with
  | none => .error "msisdn must be a valid E.164 number"
  | some normalised => .ok normalised

section Places
variable {env : ParseEnv} {r : ConfigRequest} {q : ConfigQuery} {raw : String}

theorem parsed_msisdn (h : parseRequest env r = .ok q) (hkept : kept r.supplied "msisdn" = some raw) :
    q.msisdn = normaliseMsisdn env.py env.settings raw := by
  have hgroups := groupedBy_grouped r.supplied
  have hfilled : ∀ group ∈ grouped r.supplied, group.2 ≠ [] :=
    fun group hmem => ((hgroups.values group.1 group.2).mp hmem).2
  obtain ⟨herror, hok⟩ := @foldlM_gather env.maxValueLength {} _ hfilled
  obtain ⟨g, hg, h⟩ := Except.bind_eq_ok.mp h
  have hgo : ∀ group ∈ grouped r.supplied, ¬ Stops env.maxValueLength group := by
    intro group hmem hstops
    obtain ⟨e, he⟩ := herror ⟨group, hmem, hstops⟩
    cases he.symm.trans hg
  obtain ⟨g', hg', hlookup⟩ := hok hgo
  obtain rfl : g' = g := Except.ok.inj (hg'.symm.trans hg)
  have hraw : g'.raw.lookup "msisdn" = some raw :=
    ((hlookup "msisdn").trans (hgroups.first (parameterAliases.lookup · = some "msisdn"))).trans hkept
  unfold validate at h
  simp only [Except.bind_eq_ok, Except.pure_eq_ok] at h
  obtain ⟨vers, -, imsi, -, imei, -, imeisv, -, msisdn, hmsisdn, otp, -, smsPort, -, smsApp, -,
    vvmApp, -, state, -, rfl⟩ := h
  rw [hraw] at hmsisdn
  obtain ⟨normalised, hnormalised, rfl⟩ := Except.map_eq_ok.mp hmsisdn
  unfold checkMsisdn at hnormalised
  split at hnormalised
  · cases hnormalised
  · rename_i found hfound
    rw [hfound, Except.ok.inj hnormalised]

/-- Every place that is given the text takes the same number from it. -/
structure Meets (env : ParseEnv) (d : List Char) (text : String) : Prop where
  normal : normaliseMsisdn env.py env.settings text = some (String.ofList ('+' :: d))
  request : ∀ r q, parseRequest env r = .ok q → kept r.supplied "msisdn" = some text →
    q.msisdn = some (String.ofList ('+' :: d))
  enrichment : normaliseMsisdn env.py env.settings (Enrichment.numberIn env.py text) =
    some (String.ofList ('+' :: d))
  admin : subscriberMsisdn env.py env.settings text = .ok (String.ofList ('+' :: d))
  web : ∀ sha256 policy csrf cookie draws,
    MsisdnUi.msisdnSubmit env.py env.settings sha256 policy text csrf cookie draws =
      MsisdnUi.msisdnSubmit env.py env.settings sha256 policy (String.ofList ('+' :: d)) csrf cookie
        draws

theorem numberIn_of_strip {cs : List Char} (hcs : ∀ c ∈ cs, c.isDigit = true ∨ c = '+')
    (hstrip : env.py.strip raw = String.ofList cs) :
    Enrichment.numberIn env.py raw = String.ofList cs := by
  have hnot : ∀ c ∈ ['"', 't', 's', '@', ';'], c ∉ cs := by
    have hsigns : (['"', 't', 's', '@', ';'].all fun c => !c.isDigit && c ≠ '+') = true := by decide
    intro c hc hmem
    have hsign := Bool.and_eq_true_iff.1 (List.all_eq_true.1 hsigns c hc)
    rcases hcs c hmem with hdigit | hplus
    · rw [hdigit] at hsign
      exact Bool.false_ne_true hsign.1
    · exact of_decide_eq_true hsign.2 hplus
  have hquotes : Enrichment.stripChar '"' cs = cs :=
    Enrichment.stripChar_of_not_mem (hnot _ (by simp))
  have hscheme : ∀ {c : Char} {rest : String} (start : String), start.toList = c :: rest.toList →
      c ∉ cs → Enrichment.withoutPrefix start cs = cs := by
    intro c rest start hstart hc
    unfold Enrichment.withoutPrefix
    rw [if_neg]
    rw [hstart, List.isPrefixOf_iff_prefix]
    intro hfront
    exact hc (hfront.subset List.mem_cons_self)
  have htake : ∀ {c : Char}, c ∉ cs → cs.takeWhile (· ≠ c) = cs := by
    intro c hc
    rw [List.takeWhile_eq_self_iff]
    exact fun x hx => decide_eq_true fun h => hc (h ▸ hx)
  unfold Enrichment.numberIn
  dsimp only
  rw [hstrip, String.toList_ofList, hquotes,
    @hscheme 't' "el:" "tel:" (by decide) (hnot _ (by simp)),
    @hscheme 's' "ip:" "sip:" (by decide) (hnot _ (by simp)), htake (hnot '@' (by simp)),
    htake (hnot ';' (by simp))]

theorem Meets.of_normal {d cs : List Char} {text : String} (hpy : env.py.Lawful) (hd : Valid d)
    (hcs : cs = '+' :: d ∨ Digits cs) (hstrip : env.py.strip text = String.ofList cs)
    (h : normaliseMsisdn env.py env.settings text = some (String.ofList ('+' :: d))) :
    Meets env d text where
  normal := h
  request r q hq hkept := (parsed_msisdn hq hkept).trans h
  enrichment := by
    have hchars : ∀ c ∈ cs, c.isDigit = true ∨ c = '+' := by
      rcases hcs with rfl | hcs
      · exact List.forall_mem_cons.2 ⟨.inr rfl, fun c hc => .inl (hd.digits c hc)⟩
      · exact fun c hc => .inl (hcs c hc)
    have htwice : env.py.strip (String.ofList cs) = env.py.strip text := by
      rw [hstrip]
      rcases hcs with rfl | hcs
      · exact hd.digits.strip_plus hpy
      · exact hcs.strip hpy
    rw [numberIn_of_strip hchars hstrip, normalise_congr htwice, h]
  admin := by
    unfold subscriberMsisdn
    rw [h]
  web sha256 policy csrf cookie draws := by
    unfold MsisdnUi.msisdnSubmit
    rw [h, normalise_plus hpy hd]

end Places

/-- The texts that stand for the number in digits `d`, where a trunk prefix stands for the country
code. -/
inductive Spelling (country trunk d : List Char) : String → Prop
  | plus : Spelling country trunk d (String.ofList ('+' :: d))
  | space : Spelling country trunk d (String.ofList (' ' :: d))
  | bare (h : country <+: d ∨ ¬ trunk <+: d) : Spelling country trunk d (String.ofList d)
  | national (r : List Char) (hd : d = country ++ r) (h : ¬ country <+: trunk ++ r) :
    Spelling country trunk d (String.ofList (trunk ++ r))

/-- All spellings meet unless a space loses its plus to the trimming, and the digits behind it are
taken for a national number. -/
theorem spellings_meet_iff {env : ParseEnv} {d : List Char} (hpy : env.py.Lawful)
    (htrunk : Digits env.settings.nationalTrunkPrefix.toList)
    (hne : env.settings.nationalTrunkPrefix.toList ≠ []) (hd : Valid d) :
    (∀ text, Spelling env.settings.defaultCountryCode.toList
        env.settings.nationalTrunkPrefix.toList d text → Meets env d text) ↔
      env.settings.defaultCountryCode.toList = [] ∨
        ¬ env.settings.nationalTrunkPrefix.toList <+: d ∨
          env.settings.defaultCountryCode.toList <+: d := by
  have hspace := (strip_space hpy d).trans (hd.digits.strip hpy)
  constructor
  · intro h
    by_contra hcond
    rw [not_or, not_or, not_not] at hcond
    obtain ⟨hcc, hstarts, hother⟩ := hcond
    have hnational : TakenAsNational env.settings d := ⟨hcc, hne, hstarts, hother⟩
    have hresult := (h _ .space).normal
    rw [normalise_congr (strip_space hpy d), normaliseMsisdn_eq hpy,
      meant_national hpy hd.digits hnational] at hresult
    split_ifs at hresult
    have hsame := String.ofList_injective (Option.some.inj hresult)
    exact hother ⟨_, (List.cons.inj hsame).2⟩
  · intro hcond text htext
    have hnot : ¬ TakenAsNational env.settings d := by
      rintro ⟨hcc, -, hstarts, hother⟩
      exact hcond.elim hcc fun h => h.elim (fun h => h hstarts) hother
    cases htext with
    | plus =>
      exact .of_normal hpy hd (.inl rfl) (hd.digits.strip_plus hpy) (normalise_plus hpy hd)
    | space =>
      refine .of_normal hpy hd (.inr hd.digits) hspace ?_
      rw [normalise_congr (strip_space hpy d)]
      exact normalise_bare hpy hd hnot
    | bare =>
      exact .of_normal hpy hd (.inr hd.digits) (hd.digits.strip hpy) (normalise_bare hpy hd hnot)
    | national r hsplit hown =>
      have hr : Digits r := fun c hc => hd.digits c (hsplit ▸ List.mem_append_right _ hc)
      have hdigits : Digits (env.settings.nationalTrunkPrefix.toList ++ r) := by
        intro c hc
        exact (List.mem_append.1 hc).elim (htrunk c) (hr c)
      have hcc : env.settings.defaultCountryCode.toList ≠ [] := by
        intro hempty
        rw [hempty] at hown
        exact hown List.nil_prefix
      have hnational : TakenAsNational env.settings
          (env.settings.nationalTrunkPrefix.toList ++ r) :=
        ⟨hcc, hne, List.prefix_append _ _, hown⟩
      refine .of_normal hpy hd (.inr hdigits) (hdigits.strip hpy) ?_
      rw [normaliseMsisdn_eq hpy, meant_national hpy hdigits hnational, List.drop_left, ← hsplit,
        if_pos (hd.isNumber hpy)]

namespace Lab

def russian : ParseEnv where
  py := text
  isAlnum _ := true
  settings := { defaultCountryCode := "7", nationalTrunkPrefix := "8" }

def russianNumber : List Char := "79161234567".toList
def koreanNumber : List Char := "821012345678".toList

theorem valid_of_decide {d : List Char}
    (h : Digits d ∧ 6 ≤ d.length ∧ d.length ≤ 15 ∧ d.head? ≠ some '0') : Valid d :=
  ⟨h.1, h.2.1, h.2.2.1, h.2.2.2⟩

theorem spellings_meet_russian :
    (∀ text, Spelling russian.settings.defaultCountryCode.toList
        russian.settings.nationalTrunkPrefix.toList russianNumber text →
        Meets russian russianNumber text) ↔
      russian.settings.defaultCountryCode.toList = [] ∨
        ¬ russian.settings.nationalTrunkPrefix.toList <+: russianNumber ∨
          russian.settings.defaultCountryCode.toList <+: russianNumber :=
  spellings_meet_iff lawful_text (by decide) (by decide) (valid_of_decide (by decide))

/-- The Korean number behind a space becomes a Russian one. -/
theorem spellings_apart :
    normaliseMsisdn text russian.settings " 821012345678" = some "+721012345678" ∧
      ¬ ∀ text, Spelling russian.settings.defaultCountryCode.toList
        russian.settings.nationalTrunkPrefix.toList koreanNumber text →
        Meets russian koreanNumber text := by
  have hresult : normaliseMsisdn text russian.settings " 821012345678" = some "+721012345678" := by
    decide +kernel
  refine ⟨hresult, fun h => ?_⟩
  have hspace : String.ofList (' ' :: koreanNumber) = " 821012345678" := by decide +kernel
  have hnormal := (h _ .space).normal
  rw [hspace] at hnormal
  exact absurd (Option.some.inj (hresult.symm.trans hnormal)) (by decide +kernel)

end Lab
end Acs.Msisdn
