import Mathlib
import Acs.Security.Pii

/-! What `normalise_msisdn` makes of a text: the digits in it, with the country code in place of
the trunk prefix, if they make a number. -/

namespace Acs

/-- What the documentation says of Python's tables: `str.strip` takes off white space, and on
ASCII there are ten digits. -/
structure PyText.Lawful (py : PyText) : Prop where
  strip : py.strip = Acs.strip
  isDigit : ∀ c : Char, c.toNat < 128 → py.isDigit c = c.isDigit
  isDecimal : ∀ c : Char, c.toNat < 128 → py.isDecimal c = c.isDigit
  decimal_digit : ∀ c : Char, py.isDecimal c = true → py.isDigit c = true

namespace Msisdn

section Strip

theorem strip_of_ends {cs : List Char} (hhead : ∀ c ∈ cs.head?, isSpaceChar c = false)
    (hlast : ∀ c ∈ cs.getLast?, isSpaceChar c = false) :
    strip (String.ofList cs) = String.ofList cs := by
  have hfront : cs.dropWhile isSpaceChar = cs := by
    cases cs with
    | nil => rfl
    | cons c cs => exact List.dropWhile_cons_of_neg (by rw [hhead c rfl]; exact Bool.false_ne_true)
  have hback : cs.rdropWhile isSpaceChar = cs := by
    rw [List.rdropWhile_eq_self_iff]
    intro hne hspace
    rw [hlast _ (List.getLast?_eq_some_getLast hne)] at hspace
    exact Bool.false_ne_true hspace
  unfold strip
  rw [String.toList_ofList, hfront, hback]

theorem isDigit_toNat {c : Char} (h : c.isDigit = true) : 48 ≤ c.toNat ∧ c.toNat ≤ 57 := by
  unfold Char.isDigit at h
  rw [Bool.and_eq_true, decide_eq_true_eq, decide_eq_true_eq, ge_iff_le, UInt32.le_iff_toNat_le,
    UInt32.le_iff_toNat_le] at h
  exact h

theorem not_space_of_isDigit {c : Char} (h : c.isDigit = true) : isSpaceChar c = false := by
  obtain ⟨hlow, hhigh⟩ := isDigit_toNat h
  unfold isSpaceChar
  generalize c.toNat = n at hlow hhigh
  interval_cases n <;> rfl

end Strip

/-! ### What a text is normalised to -/

section Normal
variable (py : PyText) (settings : Settings)

def digitsIn (raw : String) : List Char := (py.strip raw).toList.filter py.isDigit

/-- Hyphens aside, the trimmed text begins with a plus, or with a space that stands for one. -/
def HadPlus (raw : String) : Prop :=
  (py.strip raw).toList.find? (· ≠ '-') = some '+' ∨ (py.strip raw).toList.find? (· ≠ '-') = some ' '

instance (raw : String) : Decidable (HadPlus py raw) := inferInstanceAs (Decidable (_ ∨ _))

/-- The trunk prefix gives way to the country code. -/
def National (raw : String) : Prop :=
  ¬ HadPlus py raw ∧ settings.defaultCountryCode.toList ≠ [] ∧
    settings.nationalTrunkPrefix.toList ≠ [] ∧
    settings.nationalTrunkPrefix.toList <+: digitsIn py raw ∧
    ¬ settings.defaultCountryCode.toList <+: digitsIn py raw

instance (raw : String) : Decidable (National py settings raw) :=
  inferInstanceAs (Decidable (_ ∧ _))

def meant (raw : String) : List Char :=
  if National py settings raw then
    settings.defaultCountryCode.toList ++
      (digitsIn py raw).drop settings.nationalTrunkPrefix.toList.length
  else digitsIn py raw

def IsNumber (digits : List Char) : Prop :=
  digits.all py.isDecimal = true ∧ 6 ≤ digits.length ∧ digits.length ≤ 15 ∧
    digits.head? ≠ some '0'

instance (digits : List Char) : Decidable (IsNumber py digits) :=
  inferInstanceAs (Decidable (_ ∧ _))

variable {py settings} {raw : String}

def cleanChar (c : Char) : Option Char :=
  if c = '-' then none else some (if c = ' ' then '+' else c)

theorem head?_clean (cs : List Char) : (cs.filterMap cleanChar).head? = some '+' ↔
    cs.find? (· ≠ '-') = some '+' ∨ cs.find? (· ≠ '-') = some ' ' := by
  induction cs with
  | nil => simp
  | cons c cs ih =>
    by_cases hc : c = '-'
    · have hgone : cleanChar c = none := if_pos hc
      rw [List.filterMap_cons_none hgone, List.find?_cons_of_neg (by simpa using hc)]
      exact ih
    · have hstays : cleanChar c = some (if c = ' ' then '+' else c) := if_neg hc
      rw [List.filterMap_cons_some hstays, List.find?_cons_of_pos (by simpa using hc),
        List.head?_cons]
      by_cases hspace : c = ' '
      · simp [hspace]
      · simp [hspace]

theorem not_digit_of_mem (hpy : py.Lawful) {c : Char} (hc : c ∈ ['-', ' ', '+']) :
    py.isDigit c = false := by
  have hascii : c.toNat < 128 ∧ c.isDigit = false := by
    simp only [List.mem_cons, List.not_mem_nil, or_false] at hc
    rcases hc with rfl | rfl | rfl <;> decide
  rw [hpy.isDigit c hascii.1, hascii.2]

theorem filter_clean (hpy : py.Lawful) (cs : List Char) :
    (cs.filterMap cleanChar).filter py.isDigit = cs.filter py.isDigit := by
  induction cs with
  | nil => rfl
  | cons c cs ih =>
    by_cases hc : c = '-'
    · have hgone : cleanChar c = none := if_pos hc
      have hnot := not_digit_of_mem hpy (show c ∈ ['-', ' ', '+'] by simp [hc])
      rw [List.filterMap_cons_none hgone, ih, List.filter_cons_of_neg (by simp [hnot])]
    · have hstays : cleanChar c = some (if c = ' ' then '+' else c) := if_neg hc
      rw [List.filterMap_cons_some hstays]
      by_cases hspace : c = ' '
      · have hnot := not_digit_of_mem hpy (show c ∈ ['-', ' ', '+'] by simp [hspace])
        have hplus := not_digit_of_mem hpy (show '+' ∈ ['-', ' ', '+'] by simp)
        rw [if_pos hspace, List.filter_cons_of_neg (by simp [hplus]),
          List.filter_cons_of_neg (by simp [hnot]), ih]
      · rw [if_neg hspace, List.filter_cons, List.filter_cons, ih]

theorem normaliseMsisdn_eq (hpy : py.Lawful) (raw : String) :
    normaliseMsisdn py settings raw =
      if IsNumber py (meant py settings raw) then
        some (String.ofList ('+' :: meant py settings raw))
      else none := by
  have hclean : ((py.strip raw).toList.filterMap fun c =>
      if c = '-' then none else some (if c = ' ' then '+' else c)) =
      (py.strip raw).toList.filterMap cleanChar := rfl
  -- the check in the code is the condition under which the prefix gives way
  have hnational : (!decide (((py.strip raw).toList.filterMap cleanChar).head? = some '+') &&
      !settings.defaultCountryCode.toList.isEmpty && !settings.nationalTrunkPrefix.toList.isEmpty &&
      settings.nationalTrunkPrefix.toList.isPrefixOf (digitsIn py raw) &&
      !settings.defaultCountryCode.toList.isPrefixOf (digitsIn py raw)) =
      decide (National py settings raw) := by
    rw [Bool.eq_iff_iff, decide_eq_true_eq]
    unfold National HadPlus
    rw [← head?_clean]
    simp only [Bool.and_eq_true, Bool.not_eq_true', ← Bool.not_eq_true,
      decide_eq_true_eq, List.isEmpty_iff, List.isPrefixOf_iff_prefix, and_assoc, ne_eq]
  have hmeant : meant py settings raw =
      if decide (National py settings raw) then
        settings.defaultCountryCode.toList ++
          (digitsIn py raw).drop settings.nationalTrunkPrefix.toList.length
      else digitsIn py raw := by
    unfold meant
    simp only [decide_eq_true_eq]
  have hdigits : ((py.strip raw).toList.filterMap cleanChar).filter py.isDigit = digitsIn py raw :=
    filter_clean hpy _
  unfold normaliseMsisdn
  dsimp only
  rw [hclean, hdigits]
  by_cases hempty : digitsIn py raw = []
  · -- without digits there is nothing to put the country code before
    have hnothing : meant py settings raw = [] := by
      unfold meant
      rw [if_neg, hempty]
      rintro ⟨-, -, htrunk, hstarts, -⟩
      rw [hempty, List.prefix_nil] at hstarts
      exact htrunk hstarts
    have hnumber : ¬ IsNumber py (meant py settings raw) := by
      rw [hnothing]
      rintro ⟨-, hlong, -⟩
      exact absurd hlong (by decide)
    rw [if_pos hempty, if_neg hnumber]
  · have hnumber : (((meant py settings raw).all py.isDecimal &&
        decide (6 ≤ (meant py settings raw).length) && decide ((meant py settings raw).length ≤ 15) &&
        decide ((meant py settings raw).head? ≠ some '0')) = true) ↔
        IsNumber py (meant py settings raw) := by
      unfold IsNumber
      simp only [Bool.and_eq_true, decide_eq_true_eq, and_assoc]
    rw [if_neg hempty, hnational, ← hmeant]
    exact if_congr hnumber rfl rfl

/-! ### Numbers in plain digits -/

def Digits (cs : List Char) : Prop := ∀ c ∈ cs, c.isDigit = true

instance (cs : List Char) : Decidable (Digits cs) :=
  decidable_of_iff (cs.all Char.isDigit = true) List.all_eq_true

structure Valid (d : List Char) : Prop where
  digits : Digits d
  long : 6 ≤ d.length
  short : d.length ≤ 15
  head : d.head? ≠ some '0'

theorem ascii_of_isDigit {c : Char} (h : c.isDigit = true) : c.toNat < 128 := by
  have hrange := isDigit_toNat h
  omega

theorem Digits.filter (hpy : py.Lawful) {d : List Char} (h : Digits d) :
    d.filter py.isDigit = d := by
  refine List.filter_eq_self.2 fun c hc => ?_
  rw [hpy.isDigit c (ascii_of_isDigit (h c hc)), h c hc]

theorem Digits.all_isDecimal (hpy : py.Lawful) {d : List Char} (h : Digits d) :
    d.all py.isDecimal = true := by
  refine List.all_eq_true.2 fun c hc => ?_
  rw [hpy.isDecimal c (ascii_of_isDigit (h c hc)), h c hc]

theorem Digits.strip (hpy : py.Lawful) {d : List Char} (h : Digits d) :
    py.strip (String.ofList d) = String.ofList d := by
  rw [hpy.strip]
  refine strip_of_ends (fun c hc => ?_) (fun c hc => ?_)
  · exact not_space_of_isDigit (h c (List.mem_of_mem_head? hc))
  · exact not_space_of_isDigit (h c (List.mem_of_getLast? hc))

theorem Digits.strip_plus (hpy : py.Lawful) {d : List Char} (h : Digits d) :
    py.strip (String.ofList ('+' :: d)) = String.ofList ('+' :: d) := by
  have hplus : isSpaceChar '+' = false := by decide
  rw [hpy.strip]
  refine strip_of_ends (fun c hc => ?_) (fun c hc => ?_)
  · rw [List.head?_cons, Option.mem_some_iff] at hc
    exact hc ▸ hplus
  · rcases List.mem_cons.1 (List.mem_of_getLast? hc) with rfl | hc
    · exact hplus
    · exact not_space_of_isDigit (h c hc)

theorem Valid.isNumber (hpy : py.Lawful) {d : List Char} (h : Valid d) : IsNumber py d :=
  ⟨h.digits.all_isDecimal hpy, h.long, h.short, h.head⟩

theorem normalise_plus (hpy : py.Lawful) {d : List Char} (h : Valid d) :
    normaliseMsisdn py settings (String.ofList ('+' :: d)) = some (String.ofList ('+' :: d)) := by
  have hstrip := h.digits.strip_plus hpy
  have hdigits : digitsIn py (String.ofList ('+' :: d)) = d := by
    unfold digitsIn
    rw [hstrip, String.toList_ofList, List.filter_cons_of_neg, h.digits.filter hpy]
    rw [not_digit_of_mem hpy (by simp)]
    exact Bool.false_ne_true
  have hplus : HadPlus py (String.ofList ('+' :: d)) := by
    unfold HadPlus
    rw [hstrip, String.toList_ofList]
    exact .inl rfl
  have hmeant : meant py settings (String.ofList ('+' :: d)) = d := by
    unfold meant
    rw [if_neg fun hnational => hnational.1 hplus, hdigits]
  rw [normaliseMsisdn_eq hpy, hmeant, if_pos (h.isNumber hpy)]

def Plain (s : String) : Prop := ∀ c ∈ s.toList, c.isDigit = true ∨ c ∈ [' ', '-', '+']

instance (s : String) : Decidable (Plain s) :=
  decidable_of_iff (s.toList.all (fun c => c.isDigit || [' ', '-', '+'].contains c) = true)
    (by simp [Plain, List.all_eq_true])

/-- The digits of the text are a number, the country code counted for the trunk prefix where it
takes its place. -/
structure Dialable (py : PyText) (settings : Settings) (raw : String) : Prop where
  decimal : (digitsIn py raw).all py.isDecimal = true
  long : if National py settings raw then
      6 + settings.nationalTrunkPrefix.length ≤
        settings.defaultCountryCode.length + (digitsIn py raw).length
    else 6 ≤ (digitsIn py raw).length
  short : if National py settings raw then
      settings.defaultCountryCode.length + (digitsIn py raw).length ≤
        15 + settings.nationalTrunkPrefix.length
    else (digitsIn py raw).length ≤ 15
  head : if National py settings raw then settings.defaultCountryCode.toList.head? ≠ some '0'
    else (digitsIn py raw).head? ≠ some '0'

theorem isNumber_meant_iff (hpy : py.Lawful) (hcountry : Digits settings.defaultCountryCode.toList)
    (htrunk : Digits settings.nationalTrunkPrefix.toList) :
    IsNumber py (meant py settings raw) ↔ Dialable py settings raw := by
  unfold meant
  by_cases hnational : National py settings raw
  · obtain ⟨-, hcc, -, ⟨rest, hrest⟩, -⟩ := id hnational
    obtain ⟨first, country, hfirst⟩ := List.exists_cons_of_ne_nil hcc
    have hdecimal : (digitsIn py raw).all py.isDecimal = rest.all py.isDecimal := by
      rw [← hrest, List.all_append, htrunk.all_isDecimal hpy, Bool.true_and]
    have hlength : (digitsIn py raw).length = settings.nationalTrunkPrefix.length + rest.length := by
      rw [← hrest, List.length_append, String.length_toList]
    rw [if_pos hnational, ← hrest, List.drop_left]
    constructor
    · rintro ⟨hall, hlong, hshort, hhead⟩
      rw [List.all_append, hcountry.all_isDecimal hpy, Bool.true_and] at hall
      rw [List.length_append, String.length_toList] at hlong hshort
      rw [hfirst, List.cons_append, List.head?_cons] at hhead
      refine ⟨hdecimal.trans hall, ?_, ?_, ?_⟩
      · rw [if_pos hnational]
        omega
      · rw [if_pos hnational]
        omega
      · rw [if_pos hnational, hfirst]
        exact hhead
    · rintro ⟨hall, hlong, hshort, hhead⟩
      rw [if_pos hnational] at hlong hshort hhead
      refine ⟨?_, ?_, ?_, ?_⟩
      · rw [List.all_append, hcountry.all_isDecimal hpy, Bool.true_and, ← hdecimal, hall]
      · rw [List.length_append, String.length_toList]
        omega
      · rw [List.length_append, String.length_toList]
        omega
      · rw [hfirst] at hhead ⊢
        exact hhead
  · rw [if_neg hnational]
    constructor
    · rintro ⟨hall, hlong, hshort, hhead⟩
      refine ⟨hall, ?_, ?_, ?_⟩ <;> rw [if_neg hnational] <;> assumption
    · rintro ⟨hall, hlong, hshort, hhead⟩
      rw [if_neg hnational] at hlong hshort hhead
      exact ⟨hall, hlong, hshort, hhead⟩

/-- A result is a number, of a text that is written as one, and its own normal form. -/
def NormalForm (py : PyText) (settings : Settings) (raw : String) : Prop :=
  ∀ n, normaliseMsisdn py settings raw = some n →
    (∃ d, Valid d ∧ n = String.ofList ('+' :: d)) ∧ Plain (py.strip raw) ∧
      normaliseMsisdn py settings n = some n

theorem digits_of_plain (hpy : py.Lawful) (h : Plain (py.strip raw)) : Digits (digitsIn py raw) := by
  intro c hc
  obtain ⟨hmem, hdigit⟩ := List.mem_filter.1 hc
  rcases h c hmem with hascii | hsign
  · exact hascii
  · have hperm : c ∈ ['-', ' ', '+'] := by
      simp only [List.mem_cons, List.not_mem_nil, or_false] at hsign ⊢
      exact or_left_comm.1 hsign
    rw [not_digit_of_mem hpy hperm] at hdigit
    exact absurd hdigit Bool.false_ne_true

/-- The filter drops what is no digit, so a text that only holds the digits of a number passes
for one; on other texts the result is a normal form. -/
theorem normalForm_iff (hpy : py.Lawful) (hcountry : Digits settings.defaultCountryCode.toList)
    (htrunk : Digits settings.nationalTrunkPrefix.toList) :
    NormalForm py settings raw ↔ Plain (py.strip raw) ∨ ¬ Dialable py settings raw := by
  have hnumber := @isNumber_meant_iff py settings raw hpy hcountry htrunk
  have hresult := @normaliseMsisdn_eq py settings hpy raw
  constructor
  · intro h
    by_cases hdial : Dialable py settings raw
    · rw [if_pos (hnumber.2 hdial)] at hresult
      exact .inl (h _ hresult).2.1
    · exact .inr hdial
  · rintro (hplain | hdial) n hn
    · rw [hresult] at hn
      split_ifs at hn with hmeant
      obtain rfl := Option.some.inj hn
      have hdigits : Digits (meant py settings raw) := by
        unfold meant
        split_ifs
        · intro c hc
          rcases List.mem_append.1 hc with hc | hc
          · exact hcountry c hc
          · exact digits_of_plain hpy hplain c (List.mem_of_mem_drop hc)
        · exact digits_of_plain hpy hplain
      have hvalid : Valid (meant py settings raw) :=
        ⟨hdigits, hmeant.2.1, hmeant.2.2.1, hmeant.2.2.2⟩
      exact ⟨⟨_, hvalid, rfl⟩, hplain, normalise_plus hpy hvalid⟩
    · rw [hresult, if_neg fun hmeant => hdial (hnumber.1 hmeant)] at hn
      cases hn

end Normal

/-! ### Integers -/

section Integers

def Bare (s : String) : Prop := ∀ c ∈ s.toList, c.toNat < 128 ∧ isSpaceChar c = false ∧ c ≠ '_'

instance (s : String) : Decidable (Bare s) :=
  decidable_of_iff (s.toList.all (fun c => c.toNat < 128 && !isSpaceChar c && c ≠ '_') = true)
    (by simp [Bare, List.all_eq_true, and_assoc])

def valueOf (digits : List Char) : Nat := digits.foldl (fun n c => 10 * n + (c.toNat - 48)) 0

def IsInteger (s : String) (n : Int) : Prop :=
  ∃ d ≠ [], Digits d ∧ ((s.toList = d ∨ s.toList = '+' :: d) ∧ n = valueOf d ∨
    s.toList = '-' :: d ∧ n = -valueOf d)

/-- The digits of an integer, where an underscore may stand between two. -/
def intDigits (digit : Char → Option Nat) (cs : List Char) : Option Nat :=
  if (cs.splitOn '_').all (· ≠ []) then
    (cs.filter (· ≠ '_')).foldlM (fun n c => (digit c).map (10 * n + ·)) 0
  else none

/-- `int` of a text, without the limit on its length; `digit` is the value of a decimal digit of
any script. -/
def pyInt (digit : Char → Option Nat) (s : String) : Option Int :=
  match (strip s).toList with
  | '-' :: cs => (intDigits digit cs).map fun n : Nat => -(n : Int)
  | '+' :: cs => (intDigits digit cs).map Int.ofNat
  | cs => (intDigits digit cs).map Int.ofNat

variable {digit : Char → Option Nat} {s : String} {n : Int}

theorem Bare.strip (h : Bare s) : Acs.strip s = s := by
  have hends := @strip_of_ends s.toList
    (fun c hc => (h c (List.mem_of_mem_head? hc)).2.1)
    (fun c hc => (h c (List.mem_of_getLast? hc)).2.1)
  rwa [String.ofList_toList] at hends

theorem Digits.bare {d : List Char} (h : Digits d) :
    ∀ c ∈ d, c.toNat < 128 ∧ isSpaceChar c = false ∧ c ≠ '_' := by
  intro c hc
  refine ⟨ascii_of_isDigit (h c hc), not_space_of_isDigit (h c hc), ?_⟩
  rintro rfl
  exact absurd (h _ hc) (by decide)

theorem IsInteger.bare (h : IsInteger s n) : Bare s := by
  obtain ⟨d, -, hd, ⟨hs | hs, -⟩ | ⟨hs, -⟩⟩ := h <;> unfold Bare <;> rw [hs]
  · exact hd.bare
  · exact List.forall_mem_cons.2 ⟨by decide, hd.bare⟩
  · exact List.forall_mem_cons.2 ⟨by decide, hd.bare⟩

theorem bare_of_isAlphanum {c : Char} (h : c.isAlphanum = true) :
    c.toNat < 128 ∧ isSpaceChar c = false ∧ c ≠ '_' := by
  have hrange : 48 ≤ c.toNat ∧ c.toNat ≤ 122 ∧ c.toNat ≠ 95 := by
    unfold Char.isAlphanum Char.isAlpha Char.isUpper Char.isLower Char.isDigit at h
    simp only [Bool.or_eq_true, Bool.and_eq_true, decide_eq_true_eq, ge_iff_le,
      UInt32.le_iff_toNat_le] at h
    change ((65 ≤ c.toNat ∧ c.toNat ≤ 90) ∨ (97 ≤ c.toNat ∧ c.toNat ≤ 122)) ∨
      (48 ≤ c.toNat ∧ c.toNat ≤ 57) at h
    omega
  refine ⟨by omega, ?_, ?_⟩
  · obtain ⟨hlow, hhigh, -⟩ := hrange
    unfold isSpaceChar
    generalize c.toNat = n at hlow hhigh
    interval_cases n <;> rfl
  · rintro rfl
    exact hrange.2.2 rfl

end Integers

namespace Lab

def digit (c : Char) : Option Nat :=
  if c.isDigit then some (c.toNat - 48)
  else if 0x660 ≤ c.toNat ∧ c.toNat ≤ 0x669 then some (c.toNat - 0x660) else none

def text : PyText where
  strip := strip
  isDigit c := c.isDigit || (0x660 ≤ c.toNat && c.toNat ≤ 0x669) ||
    [0xB2, 0xB3, 0xB9].contains c.toNat
  isDecimal c := c.isDigit || (0x660 ≤ c.toNat && c.toNat ≤ 0x669)
  parseInt := pyInt digit

theorem lawful_text : text.Lawful where
  strip := rfl
  isDigit c hc := by
    have hnone : (0x660 ≤ c.toNat && c.toNat ≤ 0x669) = false := by simp; omega
    have hsmall : [0xB2, 0xB3, 0xB9].contains c.toNat = false := by simp; omega
    change (c.isDigit || _ || _) = _
    rw [hnone, hsmall, Bool.or_false, Bool.or_false]
  isDecimal c hc := by
    have hnone : (0x660 ≤ c.toNat && c.toNat ≤ 0x669) = false := by simp; omega
    change (c.isDigit || _) = _
    rw [hnone, Bool.or_false]
  decimal_digit c hc := by
    change (c.isDigit || _ || _) = true
    rw [show (c.isDigit || (0x660 ≤ c.toNat && c.toNat ≤ 0x669)) = true from hc, Bool.true_or]

theorem normalForm_written :
    NormalForm text { defaultCountryCode := "82" } " 010-1234-5678 " ↔
      Plain (text.strip " 010-1234-5678 ") ∨
        ¬ Dialable text { defaultCountryCode := "82" } " 010-1234-5678 " :=
  normalForm_iff lawful_text (by decide) (by decide)

/-- A letter in place of a zero makes the number of somebody else. -/
theorem normalForm_letter :
    normaliseMsisdn text {} "+821O12345678" = some "+82112345678" ∧
      ¬ NormalForm text {} "+821O12345678" := by
  have hresult : normaliseMsisdn text {} "+821O12345678" = some "+82112345678" := by
    decide +kernel
  refine ⟨hresult, fun h => ?_⟩
  have hplain : ¬ Plain (text.strip "+821O12345678") := by decide +kernel
  exact hplain (h _ hresult).2.1

end Lab
end Msisdn
end Acs
