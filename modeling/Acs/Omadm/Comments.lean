import Acs.Data.Comments
import Acs.Omadm.RequestPaths

/-! What comments and processing instructions in a message do to what is parsed of it. -/

namespace Acs.Omadm
open Xml List

/-- How a text is taken: as it is, as a number, or with a default for an empty one. -/
inductive Use where
  | text
  | number
  | orElse (default : String)

abbrev Place := Use × Option Element

def descendant (parent : Option Element) (name : String) : Option Element :=
  parent.bind fun e => e.iter.find? (·.localName = name)

def headerPlaces (e : Element) : List Place :=
  [(.text, descendant (e.find "Cred") "Type"), (.orElse "b64", descendant (e.find "Cred") "Format"),
   (.text, descendant (e.find "Cred") "Data"), (.number, descendant (e.find "Meta") "MaxMsgSize"),
   (.text, e.find "MsgID"), (.text, e.find "SessionID"),
   (.text, descendant (e.find "Target") "LocURI"), (.text, descendant (e.find "Source") "LocURI"),
   (.text, descendant (e.find "Source") "LocName"), (.orElse "1.2", e.find "VerDTD"),
   (.orElse "DM/1.2", e.find "VerProto")]

def itemPlaces (e : Element) : List Place :=
  [(.text, descendant (e.find "Target") "LocURI"), (.text, descendant (e.find "Source") "LocURI"),
   (.text, e.find "Data"), (.text, descendant (e.find "Meta") "Format"),
   (.text, descendant (e.find "Meta") "Type")]

def commandPlaces (e : Element) : List Place :=
  [(.number, e.find "CmdID"), (.text, e.find "CmdRef"), (.text, e.find "MsgRef"),
   (.text, e.find "Cmd"), (.text, e.find "Data")] ++
    (e.children.filter (·.localName = "Item")).flatMap itemPlaces

def bodyPlaces (children : List Element) : List Place :=
  (children.filter (·.localName ≠ "Final")).flatMap commandPlaces

def places (root : Element) : List Place :=
  ((root.find "SyncHdr").elim [] headerPlaces) ++
    (root.find "SyncBody").elim [] fun body => bodyPlaces body.children

def Blank (s : String) : Prop := ∀ c ∈ s.toList, isSpaceChar c

variable (py : PyText)

/-- A text may be cut after `lead` if nothing but blanks follow, or where the code takes both for
the same number, or for the default. -/
def Use.Tolerates : Use → (lead rest : String) → Prop
  | .text, _, rest => Blank rest
  | .number, lead, rest => Blank rest ∨
      integer { py with strip } (strip lead) = integer { py with strip } (strip (lead ++ rest))
  | .orElse default, lead, rest => Blank rest ∨ Blank lead ∧ strip (lead ++ rest) = default

def Tolerated (p p' : Place) : Prop :=
  ∀ e ∈ p.2, ∀ e' ∈ p'.2, ∀ rest, e.text = e'.text ++ rest → p.1.Tolerates py e'.text rest

/-- No comment is put between the commands, and none cuts what is read. -/
structure Unaffected (root root' : Element) : Prop where
  commands : ∀ body ∈ root.find "SyncBody", ∀ body' ∈ root'.find "SyncBody",
    body'.children.length = body.children.length
  texts : Forall₂ (Tolerated py) (places root) (places root')

theorem countP_dropWhile {α : Type} (p : α → Bool) (xs : List α) :
    (xs.dropWhile p).countP (!p ·) = xs.countP (!p ·) := by
  induction xs with
  | nil => rfl
  | cons x xs ih =>
    rw [List.dropWhile_cons]
    split
    · next hx => rw [ih, List.countP_cons_of_neg (by simp [hx])]
    · rfl

theorem countP_strip (s : String) :
    (strip s).toList.countP (!isSpaceChar ·) = s.toList.countP (!isSpaceChar ·) := by
  rw [strip, String.toList_ofList, List.rdropWhile, List.countP_reverse, countP_dropWhile,
    List.countP_reverse, countP_dropWhile]

theorem blank_iff (s : String) : Blank s ↔ s.toList.countP (!isSpaceChar ·) = 0 := by
  rw [List.countP_eq_zero]
  simp [Blank]

theorem strip_append_of_blank {lead rest : String} (h : Blank rest) :
    strip (lead ++ rest) = strip lead := by
  have hrest : rest.toList.dropWhile isSpaceChar = [] := List.dropWhile_eq_nil_iff.mpr h
  have hback : rest.toList.reverse.dropWhile isSpaceChar = [] :=
    List.dropWhile_eq_nil_iff.mpr fun c hc => h c (List.mem_reverse.mp hc)
  rw [strip, strip, String.toList_append, List.dropWhile_append]
  split
  · next hlead =>
    rw [hrest, List.isEmpty_iff.mp hlead]
  · rw [List.rdropWhile, List.rdropWhile, List.reverse_append, List.dropWhile_append, hback]
    rfl

theorem strip_append_iff {lead rest : String} : strip (lead ++ rest) = strip lead ↔ Blank rest := by
  refine ⟨fun h => ?_, strip_append_of_blank⟩
  have hcount := congrArg (fun s : String => s.toList.countP (!isSpaceChar ·)) h
  rw [countP_strip, countP_strip, String.toList_append, List.countP_append] at hcount
  exact (blank_iff rest).mpr (by omega)

theorem blank_iff_strip (s : String) : Blank s ↔ strip s = "" := by
  refine ⟨fun h => ?_, fun h => ?_⟩
  · have hstrip : strip ("" ++ s) = strip "" := strip_append_of_blank h
    rwa [String.empty_append] at hstrip
  · rw [blank_iff, ← countP_strip, h]
    rfl

theorem orElse_tolerates_iff {default lead rest : String} :
    (Blank rest ∨ Blank lead ∧ strip (lead ++ rest) = default) ↔
      orText (strip lead) default = orText (strip (lead ++ rest)) default := by
  by_cases hrest : Blank rest
  · exact iff_of_true (.inl hrest) (by rw [strip_append_of_blank hrest])
  have hfull : strip (lead ++ rest) ≠ "" := fun h => by
    have hcount := (blank_iff _).mp ((blank_iff_strip _).mpr h)
    rw [String.toList_append, List.countP_append] at hcount
    exact hrest ((blank_iff rest).mpr (by omega))
  rw [or_iff_right hrest, blank_iff_strip]
  unfold orText
  rw [if_pos hfull]
  by_cases hlead : strip lead = ""
  · rw [if_neg (not_not.mpr hlead), and_iff_right hlead, eq_comm]
  · rw [if_pos hlead]
    exact iff_of_false (fun h => hlead h.1) fun h => hrest (strip_append_iff.mp h.symm)

def Use.Agrees : Use → Option Element → Option Element → Prop
  | .text, o, o' => textOf { py with strip } o' = textOf { py with strip } o
  | .number, o, o' => integer { py with strip } (textOf { py with strip } o') =
      integer { py with strip } (textOf { py with strip } o)
  | .orElse default, o, o' => orText (textOf { py with strip } o') default =
      orText (textOf { py with strip } o) default

def SameUse (p p' : Place) : Prop := p.1.Agrees py p.2 p'.2

/-- A place of the message, and the same place when comments have been put into it. -/
structure Shifted (p p' : Place) : Prop where
  use : p'.1 = p.1
  nodes : Option.Rel Commented p.2 p'.2

theorem tolerated_iff {p p' : Place} (h : Shifted p p') : Tolerated py p p' ↔ SameUse py p p' := by
  obtain ⟨k, o⟩ := p
  obtain ⟨k', o'⟩ := p'
  obtain ⟨hk, hnodes⟩ := h
  obtain rfl : k' = k := hk
  change Option.Rel Commented o o' at hnodes
  rename Use => k
  cases hnodes with
  | none => exact iff_of_true nofun (by cases k <;> rfl)
  | @some e e' he =>
    obtain ⟨rest, htext⟩ := he.text
    have hone : Tolerated py (k, some e) (k, some e') ↔ k.Tolerates py e'.text rest := by
      refine ⟨fun h => h e rfl e' rfl rest htext, fun h x hx x' hx' r hr => ?_⟩
      cases hx
      cases hx'
      rwa [(String.append_right_inj _).mp (htext.symm.trans hr)] at h
    rw [hone]
    unfold SameUse
    cases k with
    | text =>
      change _ ↔ strip e'.text = strip e.text
      rw [htext, eq_comm, strip_append_iff]
      rfl
    | number =>
      change _ ↔ integer _ (strip e'.text) = integer _ (strip e.text)
      rw [htext]
      exact ⟨fun h => h.elim (fun h => by rw [strip_append_of_blank h]) id, .inr⟩
    | orElse default =>
      change _ ↔ orText (strip e'.text) default = orText (strip e.text) default
      rw [htext]
      exact orElse_tolerates_iff

theorem forall₂_tolerated_iff {ps ps' : List Place} (h : Forall₂ Shifted ps ps') :
    Forall₂ (Tolerated py) ps ps' ↔ Forall₂ (SameUse py) ps ps' := by
  induction h with
  | nil => exact iff_of_true .nil .nil
  | cons hp _ ih => rw [forall₂_cons, forall₂_cons, tolerated_iff py hp, ih]

/-! ### What is parsed, place by place -/

section Places
variable {e e' : Element} {es es' : List Element}

theorem deepText_eq (py : PyText) (parent : Option Element) (name : String) :
    deepText py parent name = textOf py (descendant parent name) := by
  cases parent <;> rfl

theorem rel_descendant {o o' : Option Element} {name : String} (hname : name ≠ "")
    (h : Option.Rel Commented o o') :
    Option.Rel Commented (descendant o name) (descendant o' name) := by
  cases h with
  | none => exact .none
  | some he =>
    unfold descendant
    rw [Option.bind_some, Option.bind_some, ← List.head?_filter, ← List.head?_filter]
    exact rel_head? (he.iter hname)

theorem shifted_find (use : Use) {name : String} (h : Commented e e')
    (hname : name ≠ "" := by decide) :
    Shifted (use, e.find name) (use, e'.find name) := ⟨rfl, h.find hname⟩

theorem shifted_descendant (use : Use) {parent name : String} (h : Commented e e')
    (hparent : parent ≠ "" := by decide) (hname : name ≠ "" := by decide) :
    Shifted (use, descendant (e.find parent) name)
      (use, descendant (e'.find parent) name) :=
  ⟨rfl, rel_descendant hname (h.find hparent)⟩

theorem shifted_headerPlaces (h : Commented e e') :
    Forall₂ Shifted (headerPlaces e) (headerPlaces e') :=
  .cons (shifted_descendant _ h) <| .cons (shifted_descendant _ h) <|
  .cons (shifted_descendant _ h) <| .cons (shifted_descendant _ h) <|
  .cons (shifted_find _ h) <| .cons (shifted_find _ h) <|
  .cons (shifted_descendant _ h) <| .cons (shifted_descendant _ h) <|
  .cons (shifted_descendant _ h) <| .cons (shifted_find _ h) <| .cons (shifted_find _ h) .nil

theorem shifted_itemPlaces (h : Commented e e') :
    Forall₂ Shifted (itemPlaces e) (itemPlaces e') :=
  .cons (shifted_descendant _ h) <| .cons (shifted_descendant _ h) <|
  .cons (shifted_find _ h) <| .cons (shifted_descendant _ h) <|
  .cons (shifted_descendant _ h) .nil

theorem forall₂_flatMap {α β γ δ : Type} {R : α → β → Prop} {S : γ → δ → Prop} {f : α → List γ}
    {g : β → List δ} (hfg : ∀ x y, R x y → Forall₂ S (f x) (g y)) {xs : List α} {ys : List β}
    (h : Forall₂ R xs ys) : Forall₂ S (xs.flatMap f) (ys.flatMap g) := by
  induction h with
  | nil => exact .nil
  | cons hxy _ ih =>
    rw [List.flatMap_cons, List.flatMap_cons]
    exact rel_append (hfg _ _ hxy) ih

theorem shifted_commandPlaces (h : Commented e e') :
    Forall₂ Shifted (commandPlaces e) (commandPlaces e') := by
  have hitems := h.children (show "Item" ≠ "" by decide)
  refine rel_append ?_ (forall₂_flatMap (fun _ _ he => shifted_itemPlaces he) hitems)
  exact .cons (shifted_find _ h) <| .cons (shifted_find _ h) <| .cons (shifted_find _ h) <|
    .cons (shifted_find _ h) <| .cons (shifted_find _ h) .nil

theorem shifted_bodyPlaces (h : Forall₂ Commented es es') :
    Forall₂ Shifted (bodyPlaces es) (bodyPlaces es') := by
  refine forall₂_flatMap (R := Commented) (fun _ _ he => shifted_commandPlaces he) ?_
  refine rel_filter (fun e e' (he : Commented e e') => ?_) h
  simp only [he.localName]

end Places

section Parse
variable (py : PyText) {e e' : Element} {es es' : List Element}

theorem parseItem_iff (e e' : Element) :
    parseItem { py with strip } e' = parseItem { py with strip } e ↔
      Forall₂ (SameUse py) (itemPlaces e) (itemPlaces e') := by
  unfold parseItem itemPlaces
  simp only [deepText_eq, forall₂_cons, forall₂_nil_left_iff, CommandItem.mk.injEq, and_true]
  rfl

theorem forall₂_append_iff {α β : Type} {R : α → β → Prop} {xs xs' : List α} {ys ys' : List β}
    (h : xs.length = ys.length) :
    Forall₂ R (xs ++ xs') (ys ++ ys') ↔ Forall₂ R xs ys ∧ Forall₂ R xs' ys' := by
  induction xs generalizing ys with
  | nil =>
    obtain rfl := List.length_eq_zero_iff.mp h.symm
    exact ⟨fun h => ⟨.nil, h⟩, And.right⟩
  | cons x xs ih =>
    cases ys with
    | nil => cases h
    | cons y ys =>
      rw [List.cons_append, List.cons_append, forall₂_cons, forall₂_cons, ih (Nat.succ_inj.mp h),
        and_assoc]

theorem itemPlaces_length (e e' : Element) :
    (itemPlaces e).length = (itemPlaces e').length := rfl

theorem parseItems_iff (h : Forall₂ Commented es es') :
    es'.map (parseItem { py with strip }) = es.map (parseItem { py with strip }) ↔
      Forall₂ (SameUse py) (es.flatMap itemPlaces) (es'.flatMap itemPlaces) := by
  induction h with
  | nil => exact iff_of_true rfl .nil
  | cons he _ ih =>
    rw [List.map_cons, List.map_cons, List.flatMap_cons, List.flatMap_cons, List.cons.injEq,
      forall₂_append_iff (itemPlaces_length _ _), parseItem_iff, ih]

theorem parseCommand_iff (name : String) (h : Commented e e') {c : Command}
    (hc : parseCommand { py with strip } name e = .ok c) :
    parseCommand { py with strip } name e' = .ok c ↔
      Forall₂ (SameUse py) (commandPlaces e) (commandPlaces e') := by
  have hitems := parseItems_iff py (h.children (show "Item" ≠ "" by decide))
  unfold commandPlaces
  rw [forall₂_append_iff, ← hitems]
  swap
  · rfl
  simp only [forall₂_cons, forall₂_nil_left_iff, and_true]
  obtain ⟨id, hid, hc⟩ := Except.bind_eq_ok.mp hc
  obtain rfl := Except.ok.inj hc
  constructor
  · intro hc'
    obtain ⟨id', hid', hc'⟩ := Except.bind_eq_ok.mp hc'
    have hfields := Except.ok.inj hc'
    simp only [Command.mk.injEq, true_and] at hfields
    obtain ⟨rfl, hitems, hdata, hcmdRef, hmsgRef, hcmd⟩ := hfields
    exact ⟨⟨hid'.trans hid.symm, hcmdRef, hmsgRef, hcmd, hdata⟩, hitems⟩
  · rintro ⟨⟨hnumber, hcmdRef, hmsgRef, hcmd, hdata⟩, hitems⟩
    refine Except.bind_eq_ok.mpr ⟨id, hnumber.trans hid, congrArg Except.ok ?_⟩
    simp only [Command.mk.injEq, true_and]
    exact ⟨hitems, hdata, hcmdRef, hmsgRef, hcmd⟩

theorem parseCommands_eq (py : PyText) (es : List Element) :
    parseCommands py es = ((es.filter (·.localName ≠ "Final")).mapM fun e =>
      parseCommand py e.localName e).map fun commands =>
        (commands, es.any (·.localName = "Final")) := by
  induction es with
  | nil => rfl
  | cons e es ih =>
    unfold parseCommands
    rw [ih, List.filter_cons, List.any_cons]
    by_cases hfinal : e.localName = "Final"
    · rw [if_pos hfinal, if_neg (by simpa using hfinal), decide_eq_true hfinal]
      cases (es.filter (·.localName ≠ "Final")).mapM fun e => parseCommand py e.localName e <;> rfl
    · rw [if_neg hfinal, if_pos (by simpa using hfinal), decide_eq_false hfinal, List.mapM_cons]
      cases parseCommand py e.localName e
      · rfl
      · cases (es.filter (·.localName ≠ "Final")).mapM fun e => parseCommand py e.localName e <;> rfl

theorem length_mapM {α β : Type} {f : α → Except String β} {xs : List α} {ys : List β}
    (h : xs.mapM f = .ok ys) : ys.length = xs.length := by
  induction xs generalizing ys with
  | nil =>
    obtain rfl := Except.pure_eq_ok.mp h
    rfl
  | cons x xs ih =>
    rw [List.mapM_cons] at h
    obtain ⟨y, -, h⟩ := Except.bind_eq_ok.mp h
    obtain ⟨ys, hys, h⟩ := Except.bind_eq_ok.mp h
    obtain rfl := Except.pure_eq_ok.mp h
    exact congrArg Nat.succ (ih hys)

theorem parseEach_iff (h : Forall₂ Commented es es') {commands : List Command}
    (hcommands : es.mapM (fun e => parseCommand { py with strip } e.localName e) = .ok commands) :
    es'.mapM (fun e => parseCommand { py with strip } e.localName e) = .ok commands ↔
      Forall₂ (SameUse py) (es.flatMap commandPlaces) (es'.flatMap commandPlaces) := by
  induction h generalizing commands with
  | nil => exact iff_of_true hcommands .nil
  | @cons e e' es es' he hes ih =>
    rw [List.mapM_cons] at hcommands ⊢
    obtain ⟨c, hc, hrest⟩ := Except.bind_eq_ok.mp hcommands
    obtain ⟨cs, hcs, hcons⟩ := Except.bind_eq_ok.mp hrest
    obtain rfl := Except.pure_eq_ok.mp hcons
    have hplaces := (shifted_commandPlaces he).length_eq
    rw [List.flatMap_cons, List.flatMap_cons, forall₂_append_iff hplaces,
      ← parseCommand_iff py _ he hc, ← ih hcs, he.localName]
    constructor
    · intro h
      obtain ⟨c', hc', h⟩ := Except.bind_eq_ok.mp h
      obtain ⟨cs', hcs', h⟩ := Except.bind_eq_ok.mp h
      obtain ⟨rfl, rfl⟩ := List.cons.inj (Except.pure_eq_ok.mp h)
      exact ⟨hc', hcs'⟩
    · rintro ⟨hc', hcs'⟩
      rw [hc', hcs']
      rfl

theorem parseCommands_iff (h : Forall₂ Commented es es') {parsed : List Command × Bool}
    (hparsed : parseCommands { py with strip } es = .ok parsed) :
    parseCommands { py with strip } es' = .ok parsed ↔
      Forall₂ (SameUse py) (bodyPlaces es) (bodyPlaces es') := by
  have hcommands : Forall₂ Commented (es.filter (·.localName ≠ "Final"))
      (es'.filter (·.localName ≠ "Final")) := by
    refine rel_filter (fun e e' (he : Commented e e') => ?_) h
    simp only [he.localName]
  have hfinal : es'.any (·.localName = "Final") = es.any (·.localName = "Final") := by
    clear hcommands hparsed
    induction h with
    | nil => rfl
    | cons he _ ih => rw [List.any_cons, List.any_cons, ih, he.localName]
  rw [parseCommands_eq] at hparsed ⊢
  obtain ⟨commands, hmapped, rfl⟩ := Except.map_eq_ok.mp hparsed
  unfold bodyPlaces
  rw [← parseEach_iff py hcommands hmapped, hfinal, Except.map_eq_ok]
  refine ⟨?_, fun h => ⟨commands, h, rfl⟩⟩
  rintro ⟨commands', h, heq⟩
  rwa [(Prod.mk.inj heq).1] at h

def parseCred (py : PyText) (cred : Option Element) : Option Credentials :=
  cred.map fun e => { type := textOf py (descendant (some e) "Type")
                      format := orText (textOf py (descendant (some e) "Format")) "b64"
                      data := textOf py (descendant (some e) "Data") }

theorem parseHeader_eq (py : PyText) (e : Element) :
    parseHeader py e =
      integer py (textOf py (descendant (e.find "Meta") "MaxMsgSize")) >>= fun maxMsgSize =>
        integer py (textOf py (e.find "MsgID")) >>= fun _ => .ok {
          sessionId := textOf py (e.find "SessionID")
          msgId := textOf py (e.find "MsgID")
          target := textOf py (descendant (e.find "Target") "LocURI")
          source := textOf py (descendant (e.find "Source") "LocURI")
          sourceName := textOf py (descendant (e.find "Source") "LocName")
          maxMsgSize := maxMsgSize
          credentials := parseCred py (e.find "Cred")
          verDtd := orText (textOf py (e.find "VerDTD")) "1.2"
          verProto := orText (textOf py (e.find "VerProto")) "DM/1.2" } := by
  unfold parseHeader
  simp only [deepText_eq]
  cases e.find "Cred" <;> rfl

theorem parseCred_iff {cred cred' : Option Element} (h : Option.Rel Commented cred cred') :
    parseCred { py with strip } cred' = parseCred { py with strip } cred ↔
      SameUse py (.text, descendant cred "Type") (.text, descendant cred' "Type") ∧
      SameUse py (.orElse "b64", descendant cred "Format")
        (.orElse "b64", descendant cred' "Format") ∧
      SameUse py (.text, descendant cred "Data") (.text, descendant cred' "Data") := by
  cases h with
  | none => exact iff_of_true rfl ⟨rfl, rfl, rfl⟩
  | some =>
    unfold parseCred
    rw [Option.map_some, Option.map_some, Option.some.injEq, Credentials.mk.injEq]
    rfl

theorem parseHeader_iff (h : Commented e e') {hdr : SyncHdr}
    (hhdr : parseHeader { py with strip } e = .ok hdr) :
    parseHeader { py with strip } e' = .ok hdr ↔
      Forall₂ (SameUse py) (headerPlaces e) (headerPlaces e') := by
  have hcred := parseCred_iff py (h.find (show "Cred" ≠ "" by decide))
  rw [parseHeader_eq] at hhdr ⊢
  obtain ⟨size, hsize, hhdr⟩ := Except.bind_eq_ok.mp hhdr
  obtain ⟨n, hn, hhdr⟩ := Except.bind_eq_ok.mp hhdr
  obtain rfl := Except.ok.inj hhdr
  unfold headerPlaces
  simp only [forall₂_cons, forall₂_nil_left_iff, and_true]
  constructor
  · intro hhdr'
    obtain ⟨size', hsize', hhdr'⟩ := Except.bind_eq_ok.mp hhdr'
    obtain ⟨n', -, hhdr'⟩ := Except.bind_eq_ok.mp hhdr'
    have hfields := Except.ok.inj hhdr'
    simp only [SyncHdr.mk.injEq] at hfields
    obtain ⟨hsession, hmsgId, htarget, hsource, hname, rfl, hcredentials, hdtd, hproto⟩ := hfields
    obtain ⟨htype, hformat, hdata⟩ := hcred.mp hcredentials
    exact ⟨htype, hformat, hdata, hsize'.trans hsize.symm, hmsgId, hsession, htarget, hsource,
      hname, hdtd, hproto⟩
  · rintro ⟨htype, hformat, hdata, hnumber, hmsgId, hsession, htarget, hsource, hname, hdtd,
      hproto⟩
    have hmsgId' : textOf { py with strip } (e'.find "MsgID") =
        textOf { py with strip } (e.find "MsgID") := hmsgId
    refine Except.bind_eq_ok.mpr ⟨size, hnumber.trans hsize, Except.bind_eq_ok.mpr ⟨n, ?_, ?_⟩⟩
    · rw [hmsgId']
      exact hn
    · refine congrArg Except.ok ?_
      simp only [SyncHdr.mk.injEq, true_and]
      exact ⟨hsession, hmsgId, htarget, hsource, hname, hcred.mpr ⟨htype, hformat, hdata⟩, hdtd,
        hproto⟩

theorem length_of_parseCommands {text text' : String} (h : Scattered text es text' es')
    {parsed : List Command × Bool} (hparsed : parseCommands py es = .ok parsed)
    (hparsed' : parseCommands py es' = .ok parsed) : es'.length = es.length := by
  have hfinals := (h.filter (show "Final" ≠ "" by decide)).length_eq
  rw [parseCommands_eq] at hparsed hparsed'
  obtain ⟨commands, hmapped, rfl⟩ := Except.map_eq_ok.mp hparsed
  obtain ⟨commands', hmapped', heq⟩ := Except.map_eq_ok.mp hparsed'
  have hothers := (length_mapM hmapped').symm.trans
    ((congrArg (fun p => p.1.length) heq).trans (length_mapM hmapped))
  have hsplit : ∀ xs : List Element, xs.length = (xs.filter (·.localName = "Final")).length +
      (xs.filter (·.localName ≠ "Final")).length := fun xs => by
    simpa using List.length_eq_length_filter_add (l := xs) (·.localName = "Final")
  rw [hsplit es, hsplit es', hfinals, hothers]

theorem parseTree_ok {m : SyncMlMessage} :
    parseTree py e = .ok m ↔ e.localName = "SyncML" ∧ ∃ hdr body,
      e.find "SyncHdr" = some hdr ∧ e.find "SyncBody" = some body ∧
        parseHeader py hdr = .ok m.header ∧
        parseCommands py body.children = .ok (m.commands, m.final) := by
  unfold parseTree
  by_cases hname : e.localName = "SyncML"
  swap
  · rw [if_pos hname]
    exact iff_of_false nofun fun h => hname h.1
  rw [if_neg (not_not.mpr hname), and_iff_right hname]
  cases hhdr : e.find "SyncHdr" with
  | none => exact iff_of_false nofun (by simp)
  | some hdr =>
    cases hbody : e.find "SyncBody" with
    | none => exact iff_of_false nofun (by simp)
    | some body =>
      simp only [Option.some.injEq, exists_and_left, exists_eq_left', Except.bind_eq_ok,
        Except.pure_eq_ok]
      constructor
      · rintro ⟨header, hheader, ⟨commands, final⟩, hcommands, rfl⟩
        exact ⟨hheader, hcommands⟩
      · rintro ⟨hheader, hcommands⟩
        exact ⟨_, hheader, _, hcommands, rfl⟩

/-- A tree with comments in it is the same message just when they are put where `parse` does not
see them. -/
theorem parseTree_iff (h : Commented e e') {m : SyncMlMessage}
    (hm : parseTree { py with strip } e = .ok m) :
    parseTree { py with strip } e' = .ok m ↔ Unaffected py e e' := by
  obtain ⟨hname, hdr, body, hhdr, hbody, hheader, hcommands⟩ := (parseTree_ok _).mp hm
  have hhdrs := h.find (show "SyncHdr" ≠ "" by decide)
  have hbodies := h.find (show "SyncBody" ≠ "" by decide)
  rw [hhdr] at hhdrs
  rw [hbody] at hbodies
  generalize hhdr' : e'.find "SyncHdr" = o at hhdrs
  generalize hbody' : e'.find "SyncBody" = o' at hbodies
  cases hhdrs with | @some _ hdr' hsameHdr =>
  cases hbodies with | @some _ body' hsameBody =>
  have hscattered := hsameBody.scattered
  -- with as many children as before, the places are the same ones
  have hiff (hlength : body'.children.length = body.children.length) :
      Forall₂ (Tolerated py) (places e) (places e') ↔
        parseHeader { py with strip } hdr' = .ok m.header ∧
          parseCommands { py with strip } body'.children = .ok (m.commands, m.final) := by
    have hchildren := hscattered.length.2 hlength
    have hheaders := shifted_headerPlaces hsameHdr
    have hshifted := rel_append hheaders (shifted_bodyPlaces hchildren)
    unfold places
    rw [hhdr, hbody, hhdr', hbody']
    change Forall₂ _ (headerPlaces hdr ++ bodyPlaces body.children)
      (headerPlaces hdr' ++ bodyPlaces body'.children) ↔ _
    rw [forall₂_tolerated_iff py hshifted, forall₂_append_iff hheaders.length_eq,
      parseHeader_iff py hsameHdr hheader, parseCommands_iff py hchildren hcommands]
  rw [parseTree_ok, and_iff_right (h.localName.trans hname)]
  constructor
  · rintro ⟨hdr'', body'', hfound, hfound', hparsed, hparsed'⟩
    obtain rfl := Option.some.inj (hhdr'.symm.trans hfound)
    obtain rfl := Option.some.inj (hbody'.symm.trans hfound')
    have hlength := length_of_parseCommands _ hscattered hcommands hparsed'
    refine ⟨fun b hb b' hb' => ?_, (hiff hlength).mpr ⟨hparsed, hparsed'⟩⟩
    obtain rfl := Option.some.inj (hbody.symm.trans hb)
    obtain rfl := Option.some.inj (hbody'.symm.trans hb')
    exact hlength
  · rintro ⟨hbodies, htexts⟩
    obtain ⟨hparsed, hparsed'⟩ := (hiff (hbodies body hbody body' hbody')).mp htexts
    exact ⟨hdr', body', hhdr', hbody', hparsed, hparsed'⟩

/-- `parse` of a message with comments and processing instructions in it. -/
theorem parse_commented_iff (etree : Bytes → Except String Element) {payload payload' : Bytes}
    (hroot : etree payload = .ok e) (hroot' : etree payload' = .ok e') (h : Commented e e')
    {m : SyncMlMessage} (hm : parse py etree payload = .ok m) :
    parse py etree payload' = .ok m ↔ Unaffected py e e' := by
  rw [parse, hroot] at hm
  rw [parse, hroot']
  exact parseTree_iff py h hm

end Parse

namespace Remarks

def message (commands : List Element) : Element :=
  .branch "SyncML" [.branch "SyncHdr" [], .branch "SyncBody" commands]

def alert (data : Element) : Element := .branch "Alert" [data]

def comment (tail : String) : Element := .node none [] " " [] tail

def plain : Element := message [alert (.leaf "Data" "1226")]

def disturbed : Element :=
  message [comment "", alert (.node (some { name := "Data" }) [] "12" [comment "26"] "")]

def spared : Element := message [alert (.node (some { name := "Data" }) [] "1226" [comment ""] "")]

def document (commands : String) : String :=
  "<SyncML><SyncHdr/><SyncBody>" ++ commands ++ "</SyncBody></SyncML>"

def plainText : String := document "<Alert><Data>1226</Data></Alert>"

def disturbedText : String := document "<!-- --><Alert><Data>12<!-- -->26</Data></Alert>"

def sparedText : String := document "<Alert><Data>1226<!-- --></Data></Alert>"

def root (text : String) : Except String Element :=
  if text = plainText then .ok plain
  else if text = disturbedText then .ok disturbed
  else if text = sparedText then .ok spared
  else .error "not among them"

/-- `etree.fromstring` on these documents. -/
def etree (payload : Bytes) : Except String Element :=
  match fromUtf8 payload with
  | some text => root text
  | none => .error "not UTF-8"

theorem etree_utf8 (text : String) : etree (utf8 text) = root text := by
  rw [etree, fromUtf8_utf8]

theorem etree_documents : etree (utf8 plainText) = .ok plain ∧
    etree (utf8 disturbedText) = .ok disturbed ∧ etree (utf8 sparedText) = .ok spared := by
  have hdisturbed : disturbedText ≠ plainText := by decide +kernel
  have hspared : sparedText ≠ plainText ∧ sparedText ≠ disturbedText := by decide +kernel
  rw [etree_utf8, etree_utf8, etree_utf8]
  refine ⟨if_pos rfl, (if_neg hdisturbed).trans (if_pos rfl), ?_⟩
  exact (if_neg hspared.1).trans ((if_neg hspared.2).trans (if_pos rfl))

theorem commented_disturbed : Commented plain disturbed :=
  .node (.child (.node .nil) (.child (.node (.comment rfl (.child (.node (.child (.node (.comment rfl
    .nil)) .nil)) .nil))) .nil))

theorem commented_spared : Commented plain spared :=
  .node (.child (.node .nil) (.child (.node (.child (.node (.child (.node (.comment rfl .nil)) .nil))
    .nil)) .nil))

def summary (m : SyncMlMessage) : List (String × String) := m.commands.map fun c => (c.name, c.data)

theorem parse_documents :
    (parse asciiText etree (utf8 plainText)).map summary = .ok [("Alert", "1226")] ∧
      (parse asciiText etree (utf8 disturbedText)).map summary = .ok [("", ""), ("Alert", "12")] := by
  obtain ⟨hplain, hdisturbed, -⟩ := etree_documents
  unfold parse
  rw [hplain, hdisturbed]
  decide +kernel

end Remarks

theorem parse_commented_after_text :
    ∃ m, parse asciiText Remarks.etree (utf8 Remarks.plainText) = .ok m ∧
      (parse asciiText Remarks.etree (utf8 Remarks.sparedText) = .ok m ↔
        Unaffected asciiText Remarks.plain Remarks.spared) := by
  obtain ⟨hplain, -, hspared⟩ := Remarks.etree_documents
  obtain ⟨hparsed, -⟩ := Remarks.parse_documents
  obtain ⟨m, hm, -⟩ := Except.map_eq_ok.mp hparsed
  exact ⟨m, hm,
    parse_commented_iff asciiText Remarks.etree hplain hspared Remarks.commented_spared hm⟩

/-- One comment becomes a command without a name, and one turns an alert into another. -/
theorem parse_commented_differs :
    Remarks.etree (utf8 Remarks.plainText) = .ok Remarks.plain ∧
      Remarks.etree (utf8 Remarks.disturbedText) = .ok Remarks.disturbed ∧
      Commented Remarks.plain Remarks.disturbed ∧
      (parse asciiText Remarks.etree (utf8 Remarks.plainText)).map Remarks.summary =
        .ok [("Alert", "1226")] ∧
      (parse asciiText Remarks.etree (utf8 Remarks.disturbedText)).map Remarks.summary =
        .ok [("", ""), ("Alert", "12")] := by
  obtain ⟨hplain, hdisturbed, -⟩ := Remarks.etree_documents
  exact ⟨hplain, hdisturbed, Remarks.commented_disturbed, Remarks.parse_documents⟩

end Acs.Omadm
