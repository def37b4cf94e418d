import Mathlib
import Acs.Omadm.Package

/-! What a message of a package holds: as many entries as fit, in order, grouped into commands. -/

namespace Acs.Omadm.Package

/-! ### The longest message that fits -/

section Fill
variable {build : Nat → Except DmError Bytes} {limit : Int}

theorem gallop_enough {rounds more sent tooMany step : Nat} {best : Bytes} (hstep : 0 < step)
    (hrounds : tooMany ≤ sent + rounds) (hmore : tooMany ≤ sent + more) :
    gallop build limit rounds sent best tooMany step =
      gallop build limit more sent best tooMany step := by
  induction rounds generalizing more sent best step with
  | zero =>
    have hend : ¬ sent + step < tooMany := by omega
    cases more with
    | zero => rfl
    | succ more => rw [gallop, gallop, if_neg hend]
  | succ rounds ih =>
    cases more with
    | zero =>
      have hend : ¬ sent + step < tooMany := by omega
      rw [gallop, gallop, if_neg hend]
    | succ more =>
      rw [gallop, gallop]
      refine if_congr Iff.rfl (congrArg _ (funext fun body => ?_)) rfl
      refine if_congr Iff.rfl rfl ?_
      exact ih (by omega) (by omega) (by omega)

theorem bisect_enough {rounds more sent tooMany : Nat} {best : Bytes}
    (hrounds : tooMany ≤ sent + rounds) (hmore : tooMany ≤ sent + more) :
    bisect build limit rounds sent best tooMany = bisect build limit more sent best tooMany := by
  induction rounds generalizing more sent best tooMany with
  | zero =>
    have hend : ¬ 1 < tooMany - sent := by omega
    cases more with
    | zero => rfl
    | succ more => rw [bisect, bisect, if_neg hend]
  | succ rounds ih =>
    cases more with
    | zero =>
      have hend : ¬ 1 < tooMany - sent := by omega
      rw [bisect, bisect, if_neg hend]
    | succ more =>
      rw [bisect, bisect]
      by_cases hgo : 1 < tooMany - sent
      · rw [if_pos hgo, if_pos hgo]
        refine congrArg _ (funext fun body => ?_)
        exact if_congr Iff.rfl (ih (by omega) (by omega)) (ih (by omega) (by omega))
      · rw [if_neg hgo, if_neg hgo]

variable {body : Nat → Bytes} {required count : Nat}

/-- What `fill` is told of the messages: within the bounds they can be built and never shrink.
Outside them `build` may do anything. -/
structure Grows (build : Nat → Except DmError Bytes) (body : Nat → Bytes) (required count : Nat) :
    Prop where
  built : ∀ n, required ≤ n → n ≤ count → build n = .ok (body n)
  mono : ∀ m n, required ≤ m → m ≤ n → n ≤ count → (body m).length ≤ (body n).length

/-- Where the search stands: `sent` entries fit, and `tooMany` do not. -/
structure Between (body : Nat → Bytes) (limit : Int) (required count sent tooMany : Nat) : Prop where
  above : required ≤ sent
  below : sent < tooMany
  within : tooMany ≤ count + 1
  fits : ((body sent).length : Int) ≤ limit
  exceeds : tooMany ≤ count → limit < (body tooMany).length

theorem gallop_between (h : Grows build body required count) {rounds sent tooMany step : Nat}
    (hstep : 0 < step) (hbetween : Between body limit required count sent tooMany) :
    ∃ sent' tooMany', gallop build limit rounds sent (body sent) tooMany step =
        .ok (body sent', sent', tooMany') ∧ Between body limit required count sent' tooMany' := by
  induction rounds generalizing sent step with
  | zero => exact ⟨sent, tooMany, rfl, hbetween⟩
  | succ rounds ih =>
    have habove := hbetween.above
    have hwithin := hbetween.within
    rw [gallop]
    by_cases hgo : sent + step < tooMany
    · rw [if_pos hgo, h.built (sent + step) (by omega) (by omega)]
      change ∃ sent' tooMany', (if !fits limit (body (sent + step)) then
        Except.ok (body sent, sent, sent + step)
        else gallop build limit rounds (sent + step) (body (sent + step)) tooMany (step * 2)) = _ ∧ _
      by_cases hfits : ((body (sent + step)).length : Int) ≤ limit
      · rw [if_neg (by simp [fits, hfits])]
        exact ih (by omega) ⟨by omega, hgo, hwithin, hfits, hbetween.exceeds⟩
      · rw [if_pos (by simpa [fits] using hfits)]
        exact ⟨sent, sent + step, rfl, habove, by omega, by omega, hbetween.fits,
          fun _ => not_le.mp hfits⟩
    · rw [if_neg hgo]
      exact ⟨sent, tooMany, rfl, hbetween⟩

theorem bisect_between (h : Grows build body required count) {rounds sent tooMany : Nat}
    (hrounds : tooMany ≤ sent + rounds) (hbetween : Between body limit required count sent tooMany) :
    ∃ n, bisect build limit rounds sent (body sent) tooMany = .ok (body n, n) ∧
      Between body limit required count n (n + 1) := by
  induction rounds generalizing sent tooMany with
  | zero =>
    have hbelow := hbetween.below
    omega
  | succ rounds ih =>
    have habove := hbetween.above
    have hbelow := hbetween.below
    have hwithin := hbetween.within
    rw [bisect]
    by_cases hgo : 1 < tooMany - sent
    · rw [if_pos hgo]
      dsimp only
      rw [h.built ((sent + tooMany) / 2) (by omega) (by omega)]
      change ∃ n, (if fits limit (body ((sent + tooMany) / 2)) then
        bisect build limit rounds ((sent + tooMany) / 2) (body ((sent + tooMany) / 2)) tooMany
        else bisect build limit rounds sent (body sent) ((sent + tooMany) / 2)) = _ ∧ _
      by_cases hfits : ((body ((sent + tooMany) / 2)).length : Int) ≤ limit
      · rw [if_pos (by simpa [fits] using hfits)]
        exact ih (by omega) ⟨by omega, by omega, hwithin, hfits, hbetween.exceeds⟩
      · rw [if_neg (by simpa [fits] using hfits)]
        exact ih (by omega) ⟨habove, by omega, by omega, hbetween.fits, fun _ => not_le.mp hfits⟩
    · obtain rfl : tooMany = sent + 1 := by omega
      rw [if_neg hgo]
      exact ⟨sent, rfl, hbetween⟩

theorem Between.greatest (h : Grows build body required count) {n : Nat}
    (hbetween : Between body limit required count n (n + 1)) :
    IsGreatest {k | required ≤ k ∧ k ≤ count ∧ ((body k).length : Int) ≤ limit} n := by
  have hwithin := hbetween.within
  refine ⟨⟨hbetween.above, by omega, hbetween.fits⟩, ?_⟩
  rintro k ⟨habove, hcount, hfits⟩
  by_contra hless
  have hexceeds := hbetween.exceeds (by omega)
  have hgrows := h.mono (n + 1) k (hbetween.above.trans (Nat.le_succ n)) (by omega) hcount
  omega

theorem search_longest (h : Grows build body required count) (hle : required ≤ count)
    (hmany : required < count → limit < (body count).length)
    (hfits : ((body required).length : Int) ≤ limit) :
    ∃ n, search build limit count required = .ok (body n, n) ∧
      IsGreatest {k | required ≤ k ∧ k ≤ count ∧ ((body k).length : Int) ≤ limit} n := by
  have hstart : Between body limit required count required
      (if required < count then count else count + 1) := by
    split_ifs with hless
    · exact ⟨Nat.le_refl _, hless, Nat.le_succ _, hfits, fun _ => hmany hless⟩
    · exact ⟨Nat.le_refl _, by omega, Nat.le_refl _, hfits, fun h => absurd h (by omega)⟩
  obtain ⟨sent, tooMany, hgallop, hbetween⟩ := @gallop_between _ _ _ _ _ h
    (if required < count then count else count + 1) _ _ _ Nat.zero_lt_one hstart
  obtain ⟨n, hbisect, hlast⟩ := bisect_between h (Nat.le_add_left tooMany sent) hbetween
  refine ⟨n, ?_, hlast.greatest h⟩
  have hroom : fits limit (body required) = true := by simpa [fits] using hfits
  rw [search, h.built required (Nat.le_refl _) hle]
  change (if !fits limit (body required) then _ else _) = _
  rw [hroom, if_neg (by simp)]
  exact Except.bind_eq_ok.mpr ⟨_, hgallop, hbisect⟩

/-- `fill` ends, asks for no message outside the bounds, and returns the longest message that fits,
or raises when not even the shortest does. -/
theorem fill_longest (limit : Int) (h : Grows build body required count) (hle : required ≤ count) :
    (∀ rounds sent best tooMany step, 0 < step → tooMany ≤ rounds →
      gallop build limit rounds sent best tooMany step =
        gallop build limit tooMany sent best tooMany step) ∧
    (∀ rounds sent best tooMany, tooMany ≤ rounds →
      bisect build limit rounds sent best tooMany = bisect build limit tooMany sent best tooMany) ∧
    (limit < (body required).length → fill build limit count required =
      .error (.messageTooLarge (body required).length limit)) ∧
    (((body required).length : Int) ≤ limit → ∃ n, fill build limit count required = .ok (body n, n) ∧
      IsGreatest {k | required ≤ k ∧ k ≤ count ∧ ((body k).length : Int) ≤ limit} n) := by
  refine ⟨fun rounds sent best tooMany step hstep hrounds =>
    gallop_enough hstep (by omega) (by omega), fun rounds sent best tooMany hrounds =>
    bisect_enough (by omega) (by omega), fun hexceeds => ?_, fun hfits => ?_⟩
  · have hfull := h.mono required count (Nat.le_refl _) hle (Nat.le_refl _)
    have hsearch : search build limit count required =
        .error (.messageTooLarge (body required).length limit) := by
      rw [search, h.built required (Nat.le_refl _) hle]
      exact if_pos (by simpa [fits] using hexceeds)
    rw [fill]
    split_ifs with hless
    · rw [h.built count hle (Nat.le_refl _)]
      exact (if_neg (by simp [fits]; omega)).trans hsearch
    · exact hsearch
  · rw [fill]
    by_cases hless : required < count
    · rw [if_pos hless, h.built count hle (Nat.le_refl _)]
      change ∃ n, (if fits limit (body count) then _ else _) = _ ∧ _
      by_cases hwhole : ((body count).length : Int) ≤ limit
      · rw [if_pos (by simpa [fits] using hwhole)]
        exact ⟨count, rfl, ⟨hle, Nat.le_refl _, hwhole⟩, fun k hk => hk.2.1⟩
      · rw [if_neg (by simpa [fits] using hwhole)]
        exact search_longest h hle (fun _ => not_le.mp hwhole) hfits
    · rw [if_neg hless]
      exact search_longest h hle (fun h => absurd h hless) hfits

/-- Seven bytes hold three of the messages of one to five entries; beyond them `build` raises. -/
theorem fill_longest_three :
    ∃ n, fill (fun n => if 1 ≤ n ∧ n ≤ 5 then .ok (List.replicate (2 * n) 0) else
        .error .malformedRow) 7 5 1 = .ok (List.replicate (2 * n) 0, n) ∧
      IsGreatest {k | 1 ≤ k ∧ k ≤ 5 ∧ ((List.replicate (2 * k) (0 : UInt8)).length : Int) ≤ 7} n := by
  refine (@fill_longest _ (fun n => List.replicate (2 * n) 0) _ _ 7 ⟨fun n h1 h2 => if_pos ⟨h1, h2⟩,
    fun m n _ hmn _ => ?_⟩ (by decide)).2.2.2 (by decide)
  rw [List.length_replicate, List.length_replicate]
  exact Nat.mul_le_mul_left 2 hmn

end Fill

/-! ### What a message says -/

open Xml SyncMlBuilder

def textAt : List String → Element → String
  | [], e => e.text
  | name :: names, e => ((e.find name).map (textAt names)).getD ""

def readItem (command : String) (e : Element) : Item where
  command
  uri := textAt ["Target", "LocURI"] e
  data := textAt ["Data"] e
  fmt := textAt ["Meta", "Format"] e
  type := textAt ["Meta", "Type"] e

def readCommand (e : Element) : List Entry :=
  if e.localName = "Status" then
    [.status { cmd := textAt ["Cmd"] e, msgRef := textAt ["MsgRef"] e, cmdRef := textAt ["CmdRef"] e,
               code := textAt ["Data"] e, targetRef := textAt ["TargetRef"] e }]
  else (e.children.filter (·.localName = "Item")).map fun item => .item (readItem e.localName item)

/-- An entry as the builder completes it: a `Status` refers to something, a `Get` has nothing but its
URI, and an `Add` has a type, and no data for an interior node. -/
def asSent : Entry → Entry
  | .status s => .status { s with msgRef := orText s.msgRef "1", cmdRef := orText s.cmdRef "0" }
  | .item i =>
    if i.command = "Get" then .item { command := "Get", uri := i.uri }
    else if i.command = "Add" then .item { i with
      type := orText i.type (if i.fmt = "node" then "node" else "text/plain")
      data := if i.fmt = "node" then "" else i.data }
    else .item i

def entryName : Entry → String
  | .status _ => "Status"
  | .item i => i.command

def Queued : Entry → Prop
  | .status _ => True
  | .item i => i.command ∈ ["Get", "Add", "Replace"]

instance : DecidablePred Queued
  | .status _ => isTrue trivial
  | .item i => inferInstanceAs (Decidable (i.command ∈ _))

def Known (entries : List Entry) : Prop := ∀ e ∈ entries, Queued e

instance (entries : List Entry) : Decidable (Known entries) :=
  inferInstanceAs (Decidable (∀ _ ∈ _, _))

/-- What the commands of a message are to the entries they were built from. -/
structure Grouped (first : Nat) (entries : List Entry) (commands : List Element) : Prop where
  entries : commands.flatMap readCommand = entries.map asSent
  numbered : ∀ i c, commands[i]? = some c → textAt ["CmdID"] c = toString (first + i)
  filled : ∀ c ∈ commands, readCommand c ≠ []
  maximal : commands.IsChain fun c d => c.localName = "Status" ∨ c.localName ≠ d.localName

section Groups

theorem readCommand_status (s : Status) (id : String) :
    readCommand (.branch "Status" (.leaf "CmdID" id :: ([.leaf "MsgRef" (orText s.msgRef "1"),
      .leaf "CmdRef" (orText s.cmdRef "0"), .leaf "Cmd" s.cmd] ++
        (if s.targetRef ≠ "" then [.leaf "TargetRef" s.targetRef] else []) ++ chal none ++
          [.leaf "Data" s.code]))) = [asSent (.status s)] := by
  by_cases htarget : s.targetRef = "" <;>
    simp [readCommand, textAt, Element.find, asSent, chal, htarget]

theorem readItem_get (uri : String) :
    readItem "Get" (itemOf uri []) = { command := "Get", uri } := by
  simp [readItem, itemOf, textAt, Element.find]

theorem readItem_replace (command uri data fmt type : String) :
    readItem command (itemOf uri (itemMeta fmt type ++ [.leaf "Data" data])) =
      { command, uri, data, fmt, type } := by
  by_cases hfmt : fmt = "" <;> by_cases htype : type = "" <;>
    simp [readItem, itemOf, itemMeta, textAt, Element.find, metinf, Element.localName,
      Element.branch, Element.children, Element.leaf, Element.text, Element.tag, hfmt, htype]

theorem readItem_add (uri data fmt type : String) :
    readItem "Add" (itemOf uri
        (itemMeta fmt (orText type (if fmt = "node" then "node" else "text/plain"))
        ++ if fmt ≠ "node" then [.leaf "Data" data] else [])) =
      { command := "Add", uri, data := if fmt = "node" then "" else data, fmt,
        type := orText type (if fmt = "node" then "node" else "text/plain") } := by
  by_cases hnode : fmt = "node"
  · rw [if_pos hnode, if_pos hnode, if_neg (not_not.mpr hnode), List.append_nil]
    generalize orText type "node" = type
    by_cases htype : type = "" <;>
      simp [readItem, itemOf, itemMeta, textAt, Element.find, metinf, Element.localName,
        Element.branch, Element.children, Element.leaf, Element.text, Element.tag, hnode, htype]
  · rw [if_neg hnode, if_neg hnode, if_pos hnode]
    exact readItem_replace "Add" uri data fmt _

theorem readCommand_items {command : String} (hname : command ≠ "Status") (id : String)
    {items : List Element} (hitems : ∀ e ∈ items, e.localName = "Item") :
    readCommand (.branch command (.leaf "CmdID" id :: items)) =
      items.map fun item => .item (readItem command item) := by
  have hall : items.filter (·.localName = "Item") = items :=
    List.filter_eq_self.mpr fun e he => decide_eq_true (hitems e he)
  rw [readCommand, Element.localName_branch, if_neg hname, Element.children_branch,
    List.filter_cons_of_neg (by simp), hall]

theorem applyGroup_spec (builder : SyncMlBuilder) {command : String} {group : List Item}
    (hcommand : command ∈ ["Get", "Add", "Replace"]) (hgroup : group ≠ [])
    (hsame : ∀ i ∈ group, i.command = command) :
    ∃ content, applyGroup builder command group = .ok (builder.command command content) ∧
      readCommand (.branch command (.leaf "CmdID" (toString builder.nextCmdId) :: content)) =
        group.map fun i => asSent (.item i) := by
  have hitems : ∀ (f : Item → List Element), ∀ e ∈ group.map (fun i => itemOf i.uri (f i)),
      e.localName = "Item" := by
    intro f e he
    obtain ⟨i, -, rfl⟩ := List.mem_map.mp he
    rfl
  have hread : ∀ {f : Item → List Element}, command ≠ "Status" →
      (∀ i ∈ group, Entry.item (readItem command (itemOf i.uri (f i))) = asSent (.item i)) →
      readCommand (.branch command (.leaf "CmdID" (toString builder.nextCmdId) ::
        group.map fun i => itemOf i.uri (f i))) = group.map fun i => asSent (.item i) := by
    intro f hname heach
    rw [readCommand_items hname _ (hitems f), List.map_map]
    exact List.map_congr_left heach
  have hne : ∀ {α : Type} (f : Item → α), (group.map f).isEmpty = false := by
    intro α f
    rw [List.isEmpty_eq_false_iff]
    exact fun hnil => hgroup (List.map_eq_nil_iff.mp hnil)
  simp only [List.mem_cons, List.not_mem_nil, or_false] at hcommand
  rcases hcommand with rfl | rfl | rfl
  · refine ⟨group.map fun i => itemOf i.uri [], ?_, hread (by decide) fun i hi => ?_⟩
    · rw [applyGroup, if_pos rfl, SyncMlBuilder.get, hne, List.map_map]
      rfl
    · rw [readItem_get, asSent, if_pos (hsame i hi)]
  · refine ⟨_, ?_, hread (f := fun i => itemMeta i.fmt (orText i.type
      (if i.fmt = "node" then "node" else "text/plain")) ++
        if i.fmt ≠ "node" then [.leaf "Data" i.data] else []) (by decide) fun i hi => ?_⟩
    · rw [applyGroup, if_neg (by decide), if_pos rfl, SyncMlBuilder.add, hne, List.map_map]
      rfl
    · rw [readItem_add]
      simp [asSent, hsame i hi]
  · refine ⟨_, ?_, hread (f := fun i => itemMeta i.fmt i.type ++ [.leaf "Data" i.data])
      (by decide) fun i hi => ?_⟩
    · rw [applyGroup, if_neg (by decide), if_neg (by decide), if_pos rfl, SyncMlBuilder.replace, hne,
        List.map_map]
      rfl
    · have hitem : i = { i with command := "Replace" } := by rw [← hsame i hi]
      rw [readItem_replace, ← hitem, asSent, hsame i hi, if_neg (by decide), if_neg (by decide)]

theorem groupOf_spec (command : String) (entries : List Entry) :
    entries = (groupOf command entries).1.map .item ++ (groupOf command entries).2 ∧
      (∀ i ∈ (groupOf command entries).1, i.command = command) ∧
      ∀ i ∈ (groupOf command entries).2.head?, ∀ item, i = .item item → item.command ≠ command := by
  induction entries with
  | nil => exact ⟨rfl, nofun, nofun⟩
  | cons e entries ih =>
    cases e with
    | status s =>
      refine ⟨rfl, nofun, fun i hi item hitem => ?_⟩
      cases hi
      cases hitem
    | item i =>
      rw [groupOf]
      split_ifs with hcommand
      · obtain ⟨hall, hsame, hnext⟩ := ih
        exact ⟨congrArg (Entry.item i :: ·) hall, List.forall_mem_cons.mpr ⟨hcommand, hsame⟩, hnext⟩
      · refine ⟨rfl, nofun, fun j hj item hitem => ?_⟩
        cases hj
        cases hitem
        exact hcommand

variable {builder : SyncMlBuilder} {entries : List Entry}

theorem Grouped.cons {first : Nat} {taken rest : List Entry} {c : Element} {commands : List Element}
    (h : Grouped (first + 1) rest commands) (hread : readCommand c = taken.map asSent)
    (htaken : taken ≠ []) (hid : textAt ["CmdID"] c = toString first)
    (hnext : ∀ d ∈ commands.head?, c.localName = "Status" ∨ c.localName ≠ d.localName) :
    Grouped first (taken ++ rest) (c :: commands) where
  entries := by rw [List.flatMap_cons, hread, h.entries, List.map_append]
  numbered i d hd := by
    cases i with
    | zero =>
      cases hd
      exact hid
    | succ i =>
      rw [h.numbered i d hd, Nat.add_right_comm, Nat.add_assoc]
  filled := by
    refine List.forall_mem_cons.mpr ⟨?_, h.filled⟩
    rw [hread]
    exact fun hnil => htaken (List.map_eq_nil_iff.mp hnil)
  maximal := List.isChain_cons.mpr ⟨hnext, h.maximal⟩

theorem applyRounds_grouped {rounds : Nat} (hknown : Known entries)
    (hrounds : entries.length ≤ rounds) :
    ∃ commands, applyRounds rounds builder entries = .ok { builder with
        commands := builder.commands ++ commands
        nextCmdId := builder.nextCmdId + commands.length } ∧
      Grouped builder.nextCmdId entries commands ∧
      commands.head?.map Element.localName = entries.head?.map entryName := by
  induction rounds generalizing builder entries with
  | zero =>
    obtain rfl : entries = [] := List.length_eq_zero_iff.mp (Nat.le_zero.mp hrounds)
    refine ⟨[], ?_, ⟨rfl, nofun, nofun, .nil⟩, rfl⟩
    rw [applyRounds, List.append_nil]
    rfl
  | succ rounds ih =>
    cases entries with
    | nil =>
      refine ⟨[], ?_, ⟨rfl, nofun, nofun, .nil⟩, rfl⟩
      rw [applyRounds, List.append_nil]
      rfl
    | cons e rest =>
      obtain ⟨he, hrest⟩ := List.forall_mem_cons.mp hknown
      rw [List.length_cons] at hrounds
      cases e with
      | status s =>
        -- a `Status` is a command of its own
        obtain ⟨commands, happly, hgrouped, -⟩ := @ih (builder.status s.cmd s.msgRef s.cmdRef
          s.code s.targetRef) rest hrest (by omega)
        refine ⟨_ :: commands, ?_, @Grouped.cons _ [.status s] _ _ _ hgrouped
          (readCommand_status s _) (List.cons_ne_nil _ _) rfl fun _ _ => Or.inl rfl, rfl⟩
        rw [applyRounds, happly]
        simp only [SyncMlBuilder.status, SyncMlBuilder.command, List.append_assoc,
          List.singleton_append, List.length_cons]
        congr 2
        omega
      | item i =>
        have hcommand : i.command ∈ ["Get", "Add", "Replace"] := he
        -- the items of one command travel together, and the rest starts anew
        obtain ⟨hall, hsame, hnext⟩ := groupOf_spec i.command rest
        generalize hgroup : (groupOf i.command rest).1 = group at hall hsame
        generalize hafter : (groupOf i.command rest).2 = after at hall hnext
        have hitems : ∀ j ∈ i :: group, j.command = i.command :=
          List.forall_mem_cons.mpr ⟨rfl, hsame⟩
        obtain ⟨content, happlied, hread⟩ :=
          applyGroup_spec builder hcommand (List.cons_ne_nil _ _) hitems
        have hlength : after.length ≤ rounds := by
          have := congrArg List.length hall
          rw [List.length_append] at this
          omega
        have hknown' : Known after := fun e he => hrest e (by
          rw [hall]
          exact List.mem_append_right _ he)
        obtain ⟨commands, happly, hgrouped, hfirst⟩ :=
          @ih (builder.command i.command content) after hknown' hlength
        have hentries : Entry.item i :: rest = (i :: group).map .item ++ after := by
          rw [List.map_cons, List.cons_append, ← hall]
        refine ⟨.branch i.command (.leaf "CmdID" (toString builder.nextCmdId) :: content) :: commands,
          ?_, ?_, rfl⟩
        · rw [applyRounds]
          change (applyGroup builder i.command (i :: (groupOf i.command rest).1) >>= fun builder =>
            applyRounds rounds builder (groupOf i.command rest).2) = _
          rw [hgroup, hafter, happlied]
          refine happly.trans ?_
          simp only [SyncMlBuilder.command, List.append_assoc, List.singleton_append,
            List.length_cons]
          congr 2
          omega
        · rw [hentries]
          refine hgrouped.cons ?_ (by simp) rfl fun d hd => Or.inr fun hname => ?_
          · rw [hread, List.map_map]
            rfl
          · -- what follows a group is no item of its command
            have hlocal := hfirst
            rw [hd, Option.map_some] at hlocal
            obtain ⟨next, hhead, heq⟩ := Option.map_eq_some_iff.mp hlocal.symm
            have hcommands : i.command ≠ "Status" := by
              rintro hstatus
              rw [hstatus] at hcommand
              exact absurd hcommand (by decide)
            rw [Element.localName_branch, ← heq] at hname
            cases next with
            | status s => exact hcommands hname
            | item item => exact hnext (.item item) hhead item rfl hname.symm

theorem apply_grouped_entries (hknown : Known entries) :
    ∃ commands, apply builder entries = .ok { builder with
        commands := builder.commands ++ commands
        nextCmdId := builder.nextCmdId + commands.length } ∧
      Grouped builder.nextCmdId entries commands := by
  obtain ⟨commands, happly, hgrouped, -⟩ :=
    @applyRounds_grouped builder _ _ hknown (Nat.le_refl _)
  exact ⟨commands, happly, hgrouped⟩

theorem fromRow_toRow {e : Entry} (h : Queued e) : fromRow (toRow e) = .ok e := by
  cases e with
  | status s => rfl
  | item i =>
    obtain ⟨command, uri, data, fmt, type⟩ := i
    simp only [Queued, List.mem_cons, List.not_mem_nil, or_false] at h
    rcases h with rfl | rfl | rfl <;> rfl

theorem fromStored_toStored {rows : List (List String)} (hknown : Known entries)
    (h : toStored entries = .ok rows) : fromStored rows = .ok entries := by
  unfold toStored at h
  dsimp only at h
  split_ifs at h
  cases h
  clear * - hknown
  unfold fromStored
  induction entries with
  | nil => rfl
  | cons e entries ih =>
    obtain ⟨he, hrest⟩ := List.forall_mem_cons.mp hknown
    rw [List.map_cons, List.mapM_cons, fromRow_toRow he, ih hrest]
    rfl

end Groups

/-- Each cut of a queue becomes a message that says what the cut holds, as the builder completes it;
the messages of consecutive cuts say what the queue holds; and the stored form loses nothing. -/
theorem apply_grouped (builder : SyncMlBuilder) {queue : List Entry} (hknown : Known queue) :
    (∀ n, ∃ commands, apply builder (queue.take n) = .ok { builder with
        commands := builder.commands ++ commands
        nextCmdId := builder.nextCmdId + commands.length } ∧
      Grouped builder.nextCmdId (queue.take n) commands) ∧
    (∀ cuts : List (List Entry), cuts.flatten = queue → ∃ messages : List (List Element),
      List.Forall₂ (fun cut commands => apply builder cut = .ok { builder with
        commands := builder.commands ++ commands
        nextCmdId := builder.nextCmdId + commands.length } ∧
          Grouped builder.nextCmdId cut commands) cuts messages ∧
      messages.flatten.flatMap readCommand = queue.map asSent) ∧
    (∀ rows, toStored queue = .ok rows → fromStored rows = .ok queue) := by
  refine ⟨fun n => apply_grouped_entries fun e he => hknown e (List.mem_of_mem_take he),
    fun cuts hcuts => ?_, fun rows => fromStored_toStored hknown⟩
  subst hcuts
  induction cuts with
  | nil => exact ⟨[], .nil, rfl⟩
  | cons cut cuts ih =>
    rw [List.flatten_cons] at hknown ⊢
    obtain ⟨hcut, hrest⟩ := List.forall_mem_append.mp hknown
    obtain ⟨commands, happly, hgrouped⟩ := @apply_grouped_entries builder _ hcut
    obtain ⟨messages, hall, hsaid⟩ := ih hrest
    refine ⟨commands :: messages, .cons ⟨happly, hgrouped⟩ hall, ?_⟩
    rw [List.flatten_cons, List.flatMap_append, hgrouped.entries, hsaid, List.map_append]

namespace Lab

def builder : SyncMlBuilder :=
  { sessionId := "1", msgId := 1, target := "IMEI:1", source := "https://acs.example/dm" }

def queue : List Entry :=
  [.status { cmd := "Alert", msgRef := "1", cmdRef := "1", code := "200" },
    .item { command := "Add", uri := "./A", fmt := "node" }, .item { command := "Add", uri := "./B" }]

theorem known_queue : Known queue := by decide

end Lab

theorem apply_grouped_lab :
    ∃ messages : List (List Element),
      messages.flatten.flatMap readCommand = Lab.queue.map asSent :=
  have ⟨messages, _, hsaid⟩ := (apply_grouped Lab.builder Lab.known_queue).2.1
    [Lab.queue.take 2, Lab.queue.drop 2] rfl
  ⟨messages, hsaid⟩

/-- An `Add` that names no type goes out as text. -/
theorem add_untyped :
    ¬ ∀ (builder : SyncMlBuilder) (queue : List Entry), Known queue → ∀ n,
      ∃ commands, apply builder (queue.take n) = .ok { builder with
          commands := builder.commands ++ commands
          nextCmdId := builder.nextCmdId + commands.length } ∧
        commands.flatMap readCommand = queue.take n := by
  intro h
  obtain ⟨commands, happly, hread⟩ := h Lab.builder [.item { command := "Add", uri := "./B" }]
    (by decide) 1
  have hcommands := congrArg SyncMlBuilder.commands (Except.ok.inj happly)
  have hfalse : (Lab.builder.add [("./B", "", "", "")]).commands.flatMap readCommand ≠
      [.item { command := "Add", uri := "./B" }] := by
    decide
  rw [← List.nil_append commands] at hread
  exact hfalse ((congrArg (List.flatMap readCommand) hcommands).trans hread)

end Acs.Omadm.Package
