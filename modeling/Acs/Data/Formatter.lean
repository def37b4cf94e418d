import Mathlib
import Acs.Data.Except

/-! Python's `string.Formatter`: the replacement fields of a text, what each of them is replaced
by, and the texts in which only the names between braces are replaced. -/

namespace Acs.Formatter

structure Field where
  name : List Char
  conversion : Option Char := none
  spec : List Char := []

inductive Key
  | index (i : Nat)
  | name (s : List Char)

/-- The Unicode tables behind `str.isdigit` and the numbers in field names. -/
structure Digits where
  isDigit : Char → Bool
  decimal : Char → Option Nat
  ascii : ∀ c, c.toNat < 128 →
    decimal c = if c.isDigit then some (c.toNat - '0'.toNat) else none

def asciiDigits : Digits where
  isDigit := Char.isDigit
  decimal c := if c.isDigit then some (c.toNat - '0'.toNat) else none
  ascii _ _ := rfl

structure Objects (Obj : Type) where
  getattr : Obj → List Char → Except String Obj
  getitem : Obj → Key → Except String Obj
  /-- `str`, `repr` and `ascii`, by their letters. -/
  convert : Obj → Char → Except String Obj
  format : Obj → List Char → Except String (List Char)

/-! ### Parsing -/

/-- The name of a field, the character that ends it and what follows. Between brackets every
character belongs to the name. -/
def fieldName : Bool → List Char → Except String (List Char × Char × List Char)
  | _, [] => .error "expected '\x7d' before end of string"
  | true, c :: cs => do
    let (name, stop, rest) ← fieldName (c ≠ ']') cs
    return (c :: name, stop, rest)
  | false, c :: cs =>
    if c = '{' then .error "unexpected '\x7b' in field name"
    else if c = '}' || c = ':' || c = '!' then .ok ([], c, cs)
    else do
      let (name, stop, rest) ← fieldName (c = '[') cs
      return (c :: name, stop, rest)

def formatSpec : Nat → List Char → Except String (List Char × List Char)
  | _, [] => .error "unmatched '\x7b' in format spec"
  | depth, c :: cs =>
    if c = '}' && depth = 0 then .ok ([], cs)
    else do
      let (spec, rest) ←
        formatSpec (if c = '{' then depth + 1 else if c = '}' then depth - 1 else depth) cs
      return (c :: spec, rest)

def parseField (cs : List Char) : Except String (Field × List Char) := do
  let (name, stop, rest) ← fieldName false cs
  if stop = '}' then return ({ name }, rest)
  else if stop = ':' then
    let (spec, rest) ← formatSpec 0 rest
    return ({ name, spec }, rest)
  else
    match rest with
    | [] => .error "end of string while looking for conversion specifier"
    | [_] => .error "unmatched '\x7b' in format spec"
    | c :: stop :: rest =>
      -- the parser writes a missing conversion as the character zero
      let conversion := if c.toNat = 0 then none else some c
      if stop = '}' then return ({ name, conversion }, rest)
      else if stop = ':' then
        let (spec, rest) ← formatSpec 0 rest
        return ({ name, conversion, spec }, rest)
      else .error "expected ':' after conversion specifier"

def isBrace (c : Char) : Bool := c = '{' || c = '}'

def chunk (cs : List Char) : Except String (List Char × Option Field × List Char) :=
  let literal := cs.takeWhile (!isBrace ·)
  match cs.dropWhile (!isBrace ·) with
  | [] => .ok (literal, none, [])
  | [c] =>
    .error ("Single '" ++ String.ofList [c] ++ "' encountered in format string")
  | c :: d :: rest =>
    if c = d then .ok (literal ++ [c], none, rest)
    else if c = '}' then .error "Single '\x7d' encountered in format string"
    else do
      let (field, rest) ← parseField (d :: rest)
      return (literal, some field, rest)

/-- What `_string.formatter_parser` yields, with the error it may stop at. -/
inductive Parsed
  | done
  | stop (message : String)
  | chunk (literal : List Char) (field : Option Field) (rest : Parsed)

theorem length_fieldName {b : Bool} {cs name rest : List Char} {stop : Char}
    (h : fieldName b cs = .ok (name, stop, rest)) : cs = name ++ stop :: rest := by
  induction cs generalizing b name with
  | nil => cases b <;> cases h
  | cons c cs ih =>
    have hstep : ∀ b', (do
        let (name, stop, rest) ← fieldName b' cs
        return (c :: name, stop, rest)) = Except.ok (ε := String) (name, stop, rest) →
        c :: cs = name ++ stop :: rest := by
      intro b' h
      obtain ⟨⟨name', stop', rest'⟩, hrec, h⟩ := Except.bind_eq_ok.mp h
      rw [Except.pure_eq_ok] at h
      cases h
      rw [ih hrec]
      rfl
    cases b with
    | true => exact hstep _ h
    | false =>
      simp only [fieldName] at h
      split_ifs at h with hopen hstop
      · cases h
        rfl
      · exact hstep _ h

theorem length_formatSpec {depth : Nat} {cs spec rest : List Char}
    (h : formatSpec depth cs = .ok (spec, rest)) : spec.length + rest.length < cs.length := by
  induction cs generalizing depth spec with
  | nil => cases h
  | cons c cs ih =>
    simp only [formatSpec] at h
    split_ifs at h with hclose
    all_goals first
      | (cases h; simp)
      | (obtain ⟨⟨spec', rest'⟩, hrec, h⟩ := Except.bind_eq_ok.mp h
         rw [Except.pure_eq_ok] at h
         cases h
         have := ih hrec
         simp only [List.length_cons] at this ⊢
         omega)

theorem parseField_ok {cs rest : List Char} {field : Field}
    (h : parseField cs = .ok (field, rest)) :
    (cs = field.name ++ '}' :: rest ∧ field = { name := field.name }) ∨
      field.name.length + 1 + rest.length < cs.length := by
  obtain ⟨⟨name, stop, rest'⟩, hname, h⟩ := Except.bind_eq_ok.mp h
  have hcs := length_fieldName hname
  have hlen : cs.length = name.length + 1 + rest'.length := by
    rw [hcs]
    simp only [List.length_append, List.length_cons]
    omega
  have hspec : ∀ {conversion : Option Char} {text : List Char}, text.length ≤ rest'.length →
      (do
        let (spec, rest) ← formatSpec 0 text
        return ({ name, conversion, spec }, rest)) = Except.ok (ε := String) (field, rest) →
      field.name.length + 1 + rest.length < cs.length := by
    intro conversion text htext h
    obtain ⟨⟨spec, rest''⟩, hspec, h⟩ := Except.bind_eq_ok.mp h
    rw [Except.pure_eq_ok] at h
    cases h
    have := length_formatSpec hspec
    dsimp only
    omega
  dsimp only at h
  split_ifs at h with hbrace hcolon
  · rw [Except.pure_eq_ok] at h
    cases h
    exact .inl ⟨hbrace ▸ hcs, rfl⟩
  · exact .inr (hspec (Nat.le_refl _) h)
  · right
    match rest', h with
    | c :: stop' :: text, h =>
      dsimp only at h
      simp only [List.length_cons] at hlen hspec
      split_ifs at h with h0 hbrace'
      all_goals first
        | exact hspec (by omega) h
        | (rw [Except.pure_eq_ok] at h
           cases h
           dsimp only
           omega)

theorem length_chunk {cs literal rest : List Char} {field : Option Field}
    (h : chunk cs = .ok (literal, field, rest)) (hne : cs ≠ []) : rest.length < cs.length := by
  have hsplit := congrArg List.length (List.takeWhile_append_dropWhile (p := (!isBrace ·)) (l := cs))
  have hpos := List.length_pos_iff.mpr hne
  rw [List.length_append] at hsplit
  unfold chunk at h
  dsimp only at h
  generalize cs.dropWhile (!isBrace ·) = tail at h hsplit
  match tail, h with
  | [], h =>
    cases h
    simpa using hpos
  | c :: d :: tail, h =>
    dsimp only at h
    simp only [List.length_cons] at hsplit
    split_ifs at h
    · cases h
      omega
    · obtain ⟨⟨field, rest'⟩, hfield, h⟩ := Except.bind_eq_ok.mp h
      rw [Except.pure_eq_ok] at h
      cases h
      rcases parseField_ok hfield with ⟨hcs, -⟩ | hlt
      · have hlen := congrArg List.length hcs
        simp only [List.length_append, List.length_cons] at hlen
        show rest'.length < _
        omega
      · simp only [List.length_cons] at hlt
        show rest'.length < _
        omega

/-- `_string.formatter_parser` -/
def parse (cs : List Char) : Parsed :=
  if hne : cs = [] then .done
  else
    match h : chunk cs with
    | .error message => .stop message
    | .ok (literal, field, rest) =>
      have := length_chunk h hne
      .chunk literal field (parse rest)
termination_by cs.length

/-! ### Formatting -/

section Format
variable {Obj : Type} (digits : Digits) (objects : Objects Obj) (getValue : Key → Except String Obj)

/-- The largest `Py_ssize_t`. -/
def maxIndex : Nat := 2 ^ 63 - 1

def integerFrom (n : Nat) : List Char → Except String (Option Nat)
  | [] => .ok (some n)
  | c :: cs =>
    match digits.decimal c with
    | none => .ok none
    | some d =>
      if (maxIndex - d) / 10 < n then .error "Too many decimal digits in format string"
      else integerFrom (n * 10 + d) cs

def getInteger (cs : List Char) : Except String (Option Nat) :=
  if cs = [] then .ok none else integerFrom digits 0 cs

def toKey (cs : List Char) : Except String Key := do
  match ← getInteger digits cs with
  | some i => return .index i
  | none => return .name cs

def startsAccess (c : Char) : Bool := c = '.' || c = '['

def access (obj : Obj) (cs : List Char) : Except String Obj :=
  match cs with
  | [] => .ok obj
  | c :: cs =>
    if c = '.' then
      let name := cs.takeWhile (!startsAccess ·)
      if name = [] then .error "Empty attribute in format string"
      else do access (← objects.getattr obj name) (cs.dropWhile (!startsAccess ·))
    else if c = '[' then
      match _hrest : cs.dropWhile (· ≠ ']') with
      | [] => .error "Missing ']' in format string"
      | _ :: rest => do
        let key ← toKey digits (cs.takeWhile (· ≠ ']'))
        if cs.takeWhile (· ≠ ']') = [] then .error "Empty attribute in format string"
        else access (← objects.getitem obj key) rest
    else .error "Only '.' or '[' may follow ']' in format field specifier"
termination_by cs.length
decreasing_by
  · have := (List.dropWhile_suffix (!startsAccess ·) (l := cs)).length_le
    simp only [List.length_cons]
    omega
  · have := (List.dropWhile_suffix (· ≠ ']') (l := cs)).length_le
    rw [_hrest] at this
    simp only [List.length_cons] at this ⊢
    omega

def getField (name : List Char) : Except String Obj := do
  let key ← toKey digits (name.takeWhile (!startsAccess ·))
  access digits objects (← getValue key) (name.dropWhile (!startsAccess ·))

/-- The name a field is looked up by, with the next position for an empty one: `none` once
positions have been given by hand. -/
def numberField (auto : Option Nat) (name : List Char) :
    Except String (List Char × Option Nat) :=
  if name = [] then
    match auto with
    | some i => .ok ((toString i).toList, some (i + 1))
    | none => .error
        "cannot switch from manual field specification to automatic field numbering"
  else if name.all digits.isDigit then
    match auto with
    | some (_ + 1) => .error
        "cannot switch from manual field specification to automatic field numbering"
    | _ => .ok (name, none)
  else .ok (name, auto)

def convertField (conversion : Option Char) (obj : Obj) : Except String Obj :=
  match conversion with
  | some c => objects.convert obj c
  | none => .ok obj

def formatField (expand : Option Nat → List Char → Except String (List Char × Option Nat))
    (auto : Option Nat) (field : Field) : Except String (List Char × Option Nat) := do
  let (name, auto) ← numberField digits auto field.name
  let obj ← getField digits objects getValue name
  let obj ← convertField objects field.conversion obj
  let (spec, auto) ← expand auto field.spec
  return (← objects.format obj spec, auto)

def formatParsed (expand : Option Nat → List Char → Except String (List Char × Option Nat)) :
    Option Nat → Parsed → Except String (List Char × Option Nat)
  | auto, .done => .ok ([], auto)
  | _, .stop message => .error message
  | auto, .chunk literal none rest => do
    let (text, auto) ← formatParsed expand auto rest
    return (literal ++ text, auto)
  | auto, .chunk literal (some field) rest => do
    let (value, auto) ← formatField digits objects getValue expand auto field
    let (text, auto) ← formatParsed expand auto rest
    return (literal ++ value ++ text, auto)

def vformatAt : Nat → Option Nat → List Char → Except String (List Char × Option Nat)
  | 0, _, _ => .error "Max string recursion exceeded"
  | depth + 1, auto, cs =>
    formatParsed digits objects getValue (vformatAt depth) auto (parse cs)

def vformat (cs : List Char) : Except String (List Char) :=
  (vformatAt digits objects getValue 3 (some 0) cs).map Prod.fst

variable {digits objects getValue}
variable {expand : Option Nat → List Char → Except String (List Char × Option Nat)}
  {auto : Option Nat} {cs : List Char}

theorem parse_nil : parse [] = .done := by
  unfold parse
  rfl

theorem parse_error {message : String} (hne : cs ≠ []) (h : chunk cs = .error message) :
    parse cs = .stop message := by
  rw [parse, dif_neg hne]
  split <;> simp_all

theorem parse_ok {literal rest : List Char} {field : Option Field} (hne : cs ≠ [])
    (h : chunk cs = .ok (literal, field, rest)) :
    parse cs = .chunk literal field (parse rest) := by
  rw [parse, dif_neg hne]
  split <;> simp_all

theorem chunk_cons {c : Char} (hc : isBrace c = false) (cs : List Char) :
    chunk (c :: cs) = (chunk cs).map fun (literal, field, rest) => (c :: literal, field, rest) := by
  unfold chunk
  have htake : (c :: cs).takeWhile (!isBrace ·) = c :: cs.takeWhile (!isBrace ·) := by simp [hc]
  have hdrop : (c :: cs).dropWhile (!isBrace ·) = cs.dropWhile (!isBrace ·) := by simp [hc]
  rw [htake, hdrop]
  match cs.dropWhile (!isBrace ·) with
  | [] => rfl
  | [d] => rfl
  | d :: d' :: rest =>
    dsimp only
    split_ifs
    · rfl
    · rfl
    · cases parseField (d' :: rest) <;> rfl

theorem formatParsed_char {c : Char} (hc : isBrace c = false) :
    formatParsed digits objects getValue expand auto (parse (c :: cs)) =
      (formatParsed digits objects getValue expand auto (parse cs)).map
        fun (text, auto) => (c :: text, auto) := by
  have hchunk := chunk_cons hc cs
  cases hcs : chunk cs with
  | error message =>
    have hne : cs ≠ [] := by
      rintro rfl
      cases hcs
    rw [hcs] at hchunk
    rw [parse_error hne hcs, parse_error (List.cons_ne_nil c cs) hchunk]
    rfl
  | ok parts =>
    obtain ⟨literal, field, rest⟩ := parts
    rw [hcs] at hchunk
    rw [parse_ok (List.cons_ne_nil c cs) hchunk]
    by_cases hne : cs = []
    · subst hne
      cases hcs
      rw [parse_nil]
      rfl
    · rw [parse_ok hne hcs]
      cases field with
      | none =>
        simp only [formatParsed]
        cases formatParsed digits objects getValue expand auto (parse rest) <;> rfl
      | some field =>
        simp only [formatParsed]
        cases formatField digits objects getValue expand auto field with
        | error message => rfl
        | ok value =>
          simp only [bind, Except.bind]
          cases formatParsed digits objects getValue expand value.2 (parse rest) <;> rfl

theorem parse_field {d : Char} (hd : d ≠ '{') {field : Field} {rest : List Char}
    (h : parseField (d :: cs) = .ok (field, rest)) :
    parse ('{' :: d :: cs) = .chunk [] (some field) (parse rest) := by
  refine parse_ok (List.cons_ne_nil _ _) ?_
  simp [chunk, isBrace, hd.symm, h]

/-- A name that no position can be read from and that has no character with a meaning of its
own in a field. -/
def Named (digits : Digits) (name : List Char) : Prop :=
  name ≠ [] ∧ (∀ c ∈ name, c ∉ ['{', '}', ':', '!', '.', '[']) ∧
    getInteger digits name = .ok none

/-- Every brace of the text belongs to a field that is a name and nothing else. -/
inductive Plain (digits : Digits) : List Char → Prop
  | nil : Plain digits []
  | char {c : Char} {cs : List Char} : isBrace c = false → Plain digits cs → Plain digits (c :: cs)
  | field {name cs : List Char} :
    Named digits name → Plain digits cs → Plain digits ('{' :: (name ++ '}' :: cs))

def substitute (known : List Char → Option (List Char)) (cs : List Char) : List Char :=
  match cs with
  | [] => []
  | c :: cs =>
    let name := cs.takeWhile (· ≠ '}')
    match if c = '{' ∧ '}' ∈ cs then known name else none with
    | some value => value ++ substitute known (cs.drop (name.length + 1))
    | none => c :: substitute known cs
termination_by cs.length
decreasing_by
  · simp only [List.length_drop, List.length_cons]
    omega
  · simp

variable {known : List Char → Option (List Char)}

theorem substitute_char {c : Char} (hc : c ≠ '{') (cs : List Char) :
    substitute known (c :: cs) = c :: substitute known cs := by
  rw [substitute]
  simp [hc]

theorem substitute_chars {name : List Char} (hname : ∀ c ∈ name, c ≠ '{') (cs : List Char) :
    substitute known (name ++ cs) = name ++ substitute known cs := by
  induction name with
  | nil => rfl
  | cons c name ih =>
    rw [List.forall_mem_cons] at hname
    rw [List.cons_append, substitute_char hname.1, ih hname.2, List.cons_append]

theorem substitute_field {name : List Char} (hopen : ∀ c ∈ name, c ≠ '{')
    (hclose : ∀ c ∈ name, c ≠ '}') (cs : List Char) :
    substitute known ('{' :: (name ++ '}' :: cs)) =
      (known name).getD ('{' :: (name ++ ['}'])) ++ substitute known cs := by
  have htake : (name ++ '}' :: cs).takeWhile (· ≠ '}') = name := by
    rw [List.takeWhile_append_of_pos (by simpa using hclose)]
    simp
  rw [substitute]
  simp only [htake, true_and, List.mem_append, List.mem_cons, true_or, or_true, if_true]
  cases known name with
  | some value => simp
  | none =>
    have hrest := @substitute_chars known _ hopen ('}' :: cs)
    rw [substitute_char (by decide)] at hrest
    simp [hrest]

theorem Named.toKey {name : List Char} (h : Named digits name) :
    toKey digits name = .ok (.name name) := by
  unfold Formatter.toKey
  rw [h.2.2]
  rfl

theorem Named.not_startsAccess {name : List Char} (h : Named digits name) :
    ∀ c ∈ name, (!startsAccess c) = true := by
  intro c hc
  have := h.2.1 c hc
  simp only [List.mem_cons, not_or] at this
  simp [startsAccess, this]

theorem getField_named {name : List Char} (h : Named digits name) :
    getField digits objects getValue name = getValue (.name name) := by
  have hdrop : name.dropWhile (!startsAccess ·) = [] :=
    List.dropWhile_eq_nil_iff.mpr h.not_startsAccess
  have htake : name.takeWhile (!startsAccess ·) = name := by
    have := List.takeWhile_append_dropWhile (p := (!startsAccess ·)) (l := name)
    rwa [hdrop, List.append_nil] at this
  unfold getField
  rw [htake, hdrop, h.toKey]
  show (getValue (.name name) >>= fun obj => access digits objects obj []) = _
  have haccess : ∀ obj, access digits objects obj [] = .ok obj := fun obj => by rw [access]
  simp only [haccess]
  cases getValue (.name name) <;> rfl

def Unnumbered (auto : Option Nat) : Prop := auto = some 0 ∨ auto = none

theorem numberField_named {name : List Char} (h : Named digits name) (hauto : Unnumbered auto) :
    ∃ auto', Unnumbered auto' ∧ numberField digits auto name = .ok (name, auto') := by
  unfold numberField
  rw [if_neg h.1]
  split_ifs
  · rcases hauto with rfl | rfl <;> exact ⟨none, .inr rfl, rfl⟩
  · exact ⟨auto, hauto, rfl⟩

/-- What formatting relies on where every name stands for its value, and an unknown one for
itself. -/
def Stands (objects : Objects Obj) (getValue : Key → Except String Obj)
    (known : List Char → Option (List Char)) : Prop :=
  ∀ name, ∃ obj, getValue (.name name) = .ok obj ∧
    objects.format obj [] = .ok ((known name).getD ('{' :: (name ++ ['}'])))

theorem formatField_named {name : List Char} (h : Named digits name) (hauto : Unnumbered auto)
    (hstands : Stands objects getValue known) (hexpand : ∀ auto, expand auto [] = .ok ([], auto)) :
    ∃ auto', Unnumbered auto' ∧
      formatField digits objects getValue expand auto { name } =
        .ok ((known name).getD ('{' :: (name ++ ['}'])), auto') := by
  obtain ⟨auto', hauto', hnumber⟩ := numberField_named h hauto
  obtain ⟨obj, hvalue, hformat⟩ := hstands name
  refine ⟨auto', hauto', ?_⟩
  simp only [formatField, hnumber, getField_named h, hvalue, convertField, hexpand, hformat, bind,
    Except.bind, pure, Except.pure]

theorem fieldName_named {name : List Char}
    (hname : ∀ c ∈ name, c ∉ ['{', '}', ':', '!', '.', '[']) (cs : List Char) :
    fieldName false (name ++ '}' :: cs) = .ok (name, '}', cs) := by
  induction name with
  | nil => rfl
  | cons c name ih =>
    rw [List.forall_mem_cons] at hname
    obtain ⟨hc, hname⟩ := hname
    simp only [List.mem_cons, List.not_mem_nil, not_or] at hc
    simp only [List.cons_append, fieldName, hc, decide_false, Bool.or_self, if_false,
      Bool.false_eq_true, ih hname]
    rfl

theorem parse_named {name : List Char} (h : Named digits name) (cs : List Char) :
    parse ('{' :: (name ++ '}' :: cs)) = .chunk [] (some { name }) (parse cs) := by
  have hfield : parseField (name ++ '}' :: cs) = .ok ({ name }, cs) := by
    unfold parseField
    rw [fieldName_named h.2.1]
    rfl
  obtain ⟨hne, hname, -⟩ := h
  cases name with
  | nil => cases hne rfl
  | cons d name =>
    have hd : d ≠ '{' := fun hd => hname d List.mem_cons_self (by simp [hd])
    exact parse_field hd hfield

theorem formatParsed_plain (h : Plain digits cs) (hauto : Unnumbered auto)
    (hstands : Stands objects getValue known) (hexpand : ∀ auto, expand auto [] = .ok ([], auto)) :
    ∃ auto', Unnumbered auto' ∧ formatParsed digits objects getValue expand auto (parse cs) =
      .ok (substitute known cs, auto') := by
  induction h generalizing auto with
  | nil => exact ⟨auto, hauto, by rw [parse_nil, substitute]; rfl⟩
  | @char c cs hc _ ih =>
    obtain ⟨auto', hauto', hrest⟩ := ih hauto
    have hopen : c ≠ '{' := by
      rintro rfl
      cases hc
    refine ⟨auto', hauto', ?_⟩
    rw [formatParsed_char hc, hrest, substitute_char hopen]
    rfl
  | @field name cs hname _ ih =>
    obtain ⟨auto₁, hauto₁, hvalue⟩ := formatField_named hname hauto hstands hexpand
    obtain ⟨auto₂, hauto₂, hrest⟩ := ih hauto₁
    refine ⟨auto₂, hauto₂, ?_⟩
    rw [parse_named hname, substitute_field (fun c hc h => hname.2.1 c hc (by simp [h]))
      (fun c hc h => hname.2.1 c hc (by simp [h]))]
    simp only [formatParsed, hvalue, hrest, bind, Except.bind]
    rfl

theorem vformatAt_nil (depth : Nat) (auto : Option Nat) :
    vformatAt digits objects getValue (depth + 1) auto [] = .ok ([], auto) := by
  rw [vformatAt, parse_nil]
  rfl

/-- A text whose braces all belong to names is formatted by replacing the names that are known. -/
theorem vformat_plain (h : Plain digits cs) (hstands : Stands objects getValue known) :
    vformat digits objects getValue cs = .ok (substitute known cs) := by
  obtain ⟨auto, -, hformat⟩ := @formatParsed_plain _ _ _ _ _ (some 0) _ _ h (.inl rfl)
    hstands (vformatAt_nil 1)
  rw [vformat, vformatAt, hformat]
  rfl

theorem substitute_of_not_mem (h : '{' ∉ cs) : substitute known cs = cs := by
  have := @substitute_chars known cs (fun c hc hopen => h (hopen ▸ hc)) []
  rw [List.append_nil] at this
  rw [this, substitute, List.append_nil]

/-! ### No other text is left as it is -/

/-- A runtime of plain texts: they have neither attributes nor items and take no format spec. -/
def bareObjects : Objects (List Char) where
  getattr _ _ := .error "no such attribute"
  getitem _ _ := .error "no such item"
  convert obj c := if c = 's' then .ok obj else .error "Unknown conversion specifier"
  format obj spec := if spec = [] then .ok obj else .error "Invalid format specifier"

def unknown : Key → Except String (List Char)
  | .index _ => .ok []
  | .name s => .ok ('{' :: (s ++ ['}']))

def Textual (objects : Objects Obj) (getValue : Key → Except String Obj)
    (value : Key → List Char) : Prop :=
  ∀ key, ∃ obj, getValue key = .ok obj ∧ objects.format obj [] = .ok (value key)

end Format
end Acs.Formatter
