import Acs.Data.OrderedTable
import Acs.Protocol.Catalog

/-! The merging in `load_catalog` with both of its variables, the map and the order of its keys:
they agree throughout, and the catalogue is what the lines of the overlay make of the base. -/

namespace Acs
open OrderedTable OrderedTable.Table

variable (text : LoadText)

abbrev Merge := Table String CatalogEntry

def baseEntry (source : String) (m : Merge) (raw : Yaml) : Except LoadError Merge := do
  let entry ← coerceEntry text source raw
  if (m.find entry.key).isSome then
    .error (.catalogError (source ++ ": duplicate entry " ++ entry.key))
  else
    return {
      find := Function.update m.find entry.key (some entry)
      order := m.order ++ [entry.key] }

def lineKey (raw : Yaml) : Except LoadError String := do
  let field := fun name => do return ((← raw.getOf name).map Yaml.text).getD "None"
  return (← field "path") ++ "/" ++ (← field "parm")

def isRemove (raw : Yaml) : Bool := (raw.getTruthy "remove").isSome

def overlayLine (source : String) (m : Merge) (raw : Yaml) : Except LoadError Merge := do
  let key ← lineKey raw
  if isRemove raw then
    return {
      find := Function.update m.find key none
      order := if key ∈ m.order then m.order.erase key else m.order }
  else
    let entry ← coerceEntry text source raw
    return {
      find := Function.update m.find entry.key (some entry)
      order := if (m.find entry.key).isSome then m.order else m.order ++ [entry.key] }

/-- The two loops and `tuple(merged[k] for k in order)`; without a catalogue where a lookup is
a `KeyError`. -/
def mergeLines (source : String) (raws lines : List Yaml) :
    Except LoadError (Option (List CatalogEntry)) := do
  let base ← raws.foldlM (baseEntry text "base.yaml") {}
  let merged ← lines.foldlM (overlayLine text source) base
  return merged.values

section Merging
variable {text} {source : String} {raw : Yaml} {raws lines : List Yaml} {m m' : Merge}
  {entries : List CatalogEntry}

/-- What a line of the overlay does to the table. -/
def editOf (text : LoadText) (source : String) (raw : Yaml) :
    Except LoadError (Edit String CatalogEntry) := do
  let key ← lineKey raw
  if isRemove raw then return .remove key
  else
    let entry ← coerceEntry text source raw
    return .put entry.key entry

theorem erase_of_mem (key : String) (order : List String) :
    (if key ∈ order then order.erase key else order) = order.erase key := by
  split_ifs with hmem
  · rfl
  · exact (List.erase_of_not_mem hmem).symm

theorem overlayLine_eq (m : Merge) (raw : Yaml) :
    overlayLine text source m raw = (editOf text source raw).map m.apply := by
  unfold overlayLine editOf
  simp only [erase_of_mem]
  cases lineKey raw with
  | error e => rfl
  | ok key =>
    change (if _ then _ else _) = Except.map _ (if _ then _ else _)
    by_cases hremove : isRemove raw = true
    · rw [if_pos hremove, if_pos hremove]
      rfl
    · rw [if_neg hremove, if_neg hremove]
      cases coerceEntry text source raw with
      | error e => rfl
      | ok entry => rfl

theorem foldlM_overlayLine (h : lines.foldlM (overlayLine text source) m = .ok m') :
    ∃ edits, List.Forall₂ (fun line e => editOf text source line = .ok e) lines edits ∧
      m' = m.run edits := by
  induction lines generalizing m with
  | nil =>
    rw [List.foldlM_nil, Except.pure_eq_ok] at h
    exact ⟨[], .nil, h.symm⟩
  | cons line lines ih =>
    rw [List.foldlM_cons, Except.bind_eq_ok] at h
    obtain ⟨next, hnext, h⟩ := h
    rw [overlayLine_eq, Except.map_eq_ok] at hnext
    obtain ⟨e, he, rfl⟩ := hnext
    obtain ⟨edits, hedits, rfl⟩ := ih h
    exact ⟨e :: edits, .cons he hedits, rfl⟩

/-! ### The list of entries as the two variables -/

theorem ofList_concat {done : List CatalogEntry} {entry : CatalogEntry}
    (h : entry.key ∉ done.map CatalogEntry.key) :
    ofList CatalogEntry.key (done ++ [entry]) =
      { find := Function.update (ofList CatalogEntry.key done).find entry.key (some entry)
        order := (ofList CatalogEntry.key done).order ++ [entry.key] } := by
  have hnone : (done.find? fun v => v.key = entry.key) = none := by
    rw [mem_map_iff_find?, Option.not_isSome_iff_eq_none] at h
    exact h
  unfold ofList
  rw [List.map_append, List.map_singleton]
  congr 1
  funext key
  rw [List.find?_append]
  by_cases hkey : key = entry.key
  · subst hkey
    rw [hnone, Function.update_self]
    simp
  · rw [Function.update_of_ne hkey]
    simp [Ne.symm hkey]

theorem foldlM_baseEntry {done : List CatalogEntry} {seen : List String}
    (hseen : ∀ key, key ∈ seen ↔ key ∈ done.map CatalogEntry.key) :
    raws.foldlM (baseEntry text source) (ofList CatalogEntry.key done) =
      (coerceEntries text source raws seen).map fun entries =>
        ofList CatalogEntry.key (done ++ entries) := by
  induction raws generalizing done seen with
  | nil =>
    rw [List.foldlM_nil, coerceEntries]
    change Except.ok _ = Except.ok (ofList CatalogEntry.key (done ++ []))
    rw [List.append_nil]
  | cons raw raws ih =>
    rw [List.foldlM_cons, coerceEntries, baseEntry]
    cases coerceEntry text source raw with
    | error e => rfl
    | ok entry =>
      change ((if _ then _ else _) >>= _) = Except.map _ (if _ then _ else _)
      have hold : ((ofList CatalogEntry.key done).find entry.key).isSome ↔ entry.key ∈ seen :=
        (mem_map_iff_find? entry.key).symm.trans (hseen entry.key).symm
      by_cases hmem : entry.key ∈ seen
      · rw [if_pos (hold.2 hmem), if_pos hmem]
        rfl
      · rw [if_neg fun h => hmem (hold.1 h), if_neg hmem,
          ← ofList_concat fun h => hmem ((hseen _).2 h)]
        have hnext : ∀ key, key ∈ entry.key :: seen ↔
            key ∈ (done ++ [entry]).map CatalogEntry.key := by
          intro key
          rw [List.map_append, List.mem_append, List.mem_cons, hseen key, List.map_singleton,
            List.mem_singleton]
          exact or_comm
        refine (ih hnext).trans ?_
        cases coerceEntries text source raws (entry.key :: seen) with
        | error e => rfl
        | ok entries =>
          change Except.ok (ofList CatalogEntry.key (done ++ [entry] ++ entries)) = _
          rw [List.append_assoc]
          rfl

theorem find?_filter_key (entries : List CatalogEntry) (key key' : String) :
    ((entries.filter (·.key ≠ key)).find? fun v => v.key = key') =
      if key' = key then none else entries.find? fun v => v.key = key' := by
  rw [List.find?_filter]
  split_ifs with h
  · subst h
    simp
  · refine congrArg (List.find? · entries) (funext fun v => ?_)
    by_cases hv : v.key = key'
    · simp [hv, h]
    · simp [hv]

theorem find?_mergeEntry (entry : CatalogEntry) (entries : List CatalogEntry) (key : String) :
    ((mergeEntry entry entries).find? fun v => v.key = key) =
      if key = entry.key then some entry else entries.find? fun v => v.key = key := by
  unfold mergeEntry
  induction entries with
  | nil =>
    rw [editFirst, List.find?_singleton, List.find?_nil]
    exact if_congr (decide_eq_true_iff.trans eq_comm) rfl rfl
  | cons first entries ih =>
    unfold editFirst
    by_cases hfirst : first.key = entry.key
    · rw [if_pos (decide_eq_true hfirst), List.find?_cons, List.find?_cons, hfirst]
      by_cases hkey : key = entry.key
      · simp [hkey]
      · simp [hkey, Ne.symm hkey]
    · rw [if_neg (by simpa using hfirst), List.find?_cons, List.find?_cons, ih]
      by_cases hkey : first.key = key
      · simp [hkey, hkey ▸ hfirst]
      · simp [hkey]

theorem map_mergeEntry (entry : CatalogEntry) (entries : List CatalogEntry) :
    (mergeEntry entry entries).map CatalogEntry.key =
      if entry.key ∈ entries.map CatalogEntry.key then entries.map CatalogEntry.key
      else entries.map CatalogEntry.key ++ [entry.key] := by
  unfold mergeEntry
  induction entries with
  | nil => rfl
  | cons first entries ih =>
    unfold editFirst
    by_cases hfirst : first.key = entry.key
    · rw [if_pos (decide_eq_true hfirst), if_pos (by simp [hfirst]), List.map_cons, List.map_cons,
        hfirst]
    · rw [if_neg (by simpa using hfirst), List.map_cons, ih, List.map_cons]
      by_cases hmem : entry.key ∈ entries.map CatalogEntry.key
      · rw [if_pos hmem, if_pos (List.mem_cons_of_mem _ hmem)]
      · have hnot : entry.key ∉ first.key :: entries.map CatalogEntry.key :=
          fun h => (List.mem_cons.1 h).elim (fun h => hfirst h.symm) hmem
        rw [if_neg hmem, if_neg hnot, List.cons_append]

theorem overlayEntry_eq (entries : List CatalogEntry) (raw : Yaml) :
    overlayEntry text source entries raw = (do
      let key ← lineKey raw
      if isRemove raw then return entries.filter (·.key ≠ key)
      else return mergeEntry (← coerceEntry text source raw) entries) := by
  unfold overlayEntry lineKey
  dsimp only
  cases raw.getOf "path" with
  | error e => rfl
  | ok path =>
    cases raw.getOf "parm" with
    | error e => rfl
    | ok parm => rfl

theorem overlayLine_ofList (hnodup : (entries.map CatalogEntry.key).Nodup) (raw : Yaml) :
    overlayLine text source (ofList CatalogEntry.key entries) raw =
      (overlayEntry text source entries raw).map (ofList CatalogEntry.key) := by
  have hremove : ∀ key, (ofList CatalogEntry.key entries).remove key =
      ofList CatalogEntry.key (entries.filter (·.key ≠ key)) := by
    intro key
    unfold Table.remove ofList
    congr 1
    · funext key'
      rw [find?_filter_key, Function.update_apply]
    · dsimp only
      rw [hnodup.erase_eq_filter, List.filter_map]
      exact congrArg _ (List.filter_congr fun v _ => Bool.eq_iff_iff.2 (by simp))
  have hput : ∀ entry : CatalogEntry, (ofList CatalogEntry.key entries).put entry.key entry =
      ofList CatalogEntry.key (mergeEntry entry entries) := by
    intro entry
    unfold Table.put ofList
    congr 1
    · funext key
      rw [find?_mergeEntry, Function.update_apply]
    · dsimp only
      rw [map_mergeEntry]
      exact if_congr (mem_map_iff_find? entry.key).symm rfl rfl
  rw [overlayLine_eq, overlayEntry_eq, editOf]
  cases lineKey raw with
  | error e => rfl
  | ok key =>
    change Except.map _ (if _ then _ else _) = Except.map _ (if _ then _ else _)
    by_cases hremoves : isRemove raw = true
    · rw [if_pos hremoves, if_pos hremoves]
      exact congrArg Except.ok (hremove key)
    · rw [if_neg hremoves, if_neg hremoves]
      cases coerceEntry text source raw with
      | error e => rfl
      | ok entry => exact congrArg Except.ok (hput entry)

theorem foldlM_overlayLine_ofList (hnodup : (entries.map CatalogEntry.key).Nodup) :
    lines.foldlM (overlayLine text source) (ofList CatalogEntry.key entries) =
      (lines.foldlM (overlayEntry text source) entries).map (ofList CatalogEntry.key) := by
  induction lines generalizing entries with
  | nil => rfl
  | cons line lines ih =>
    rw [List.foldlM_cons, List.foldlM_cons, overlayLine_ofList hnodup]
    cases hnext : overlayEntry text source entries line with
    | error e => rfl
    | ok next => exact ih (overlayEntry_nodup hnext hnodup)

/-- The two variables hold the list that `load_catalog` is modelled with, and no lookup fails. -/
theorem mergeLines_eq (source : String) (raws lines : List Yaml) :
    mergeLines text source raws lines = (do
      let base ← coerceEntries text "base.yaml" raws []
      return some (← lines.foldlM (overlayEntry text source) base)) := by
  have hempty : ({} : Merge) = ofList CatalogEntry.key [] := rfl
  have hseen : ∀ key, key ∈ ([] : List String) ↔
      key ∈ ([] : List CatalogEntry).map CatalogEntry.key := fun _ => Iff.rfl
  unfold mergeLines
  rw [hempty, foldlM_baseEntry hseen]
  cases hbase : coerceEntries text "base.yaml" raws [] with
  | error e => rfl
  | ok base =>
    have hnodup := (coerceEntries_nodup hbase).1
    change (lines.foldlM (overlayLine text source) (ofList CatalogEntry.key base) >>= _) =
      (lines.foldlM (overlayEntry text source) base >>= _)
    rw [foldlM_overlayLine_ofList hnodup]
    cases hlines : lines.foldlM (overlayEntry text source) base with
    | error e => rfl
    | ok entries =>
      exact congrArg Except.ok (values_ofList (foldlM_overlayEntry_nodup hlines hnodup))

def Unpadded (text : LoadText) (raw : Yaml) : Prop :=
  ∀ name ∈ ["path", "parm"], ∀ value, raw.get name = some value →
    text.strip value.text = value.text

def Says (text : LoadText) (source : String) (raw : Yaml) (e : Edit String CatalogEntry) : Prop :=
  lineKey raw = .ok e.key ∧
    if isRemove raw then e.leaves = none
    else ∃ entry, coerceEntry text source raw = .ok entry ∧ e.leaves = some entry

theorem coerceEntries_mapM {seen : List String}
    (h : coerceEntries text source raws seen = .ok entries) :
    raws.mapM (coerceEntry text source) = .ok entries := by
  induction raws generalizing seen entries with
  | nil =>
    obtain rfl : [] = entries := Except.ok.inj h
    rfl
  | cons raw raws ih =>
    obtain ⟨entry, hentry, h⟩ := Except.bind_eq_ok.mp h
    split_ifs at h
    obtain ⟨rest, hrest, h⟩ := Except.bind_eq_ok.mp h
    rw [Except.pure_eq_ok] at h
    subst h
    rw [List.mapM_cons, hentry, ih hrest]
    rfl

theorem coerceEntry_key {entry : CatalogEntry} (h : coerceEntry text source raw = .ok entry) :
    raw.isMapping ∧ ∃ path parm, raw.get "path" = some path ∧ raw.get "parm" = some parm ∧
      entry.path = text.strip path.text ∧ entry.parm = text.strip parm.text := by
  unfold coerceEntry at h
  obtain ⟨path, hpath, h⟩ := Except.bind_eq_ok.mp h
  obtain ⟨parm, hparm, h⟩ := Except.bind_eq_ok.mp h
  have hget : ∀ {missing : LoadError} {name value}, raw.subscript missing name = .ok value →
      raw.isMapping ∧ raw.get name = some value := by
    intro missing name value hvalue
    unfold Yaml.subscript at hvalue
    split_ifs at hvalue with hmapping
    split at hvalue
    · rename_i found hfound
      exact ⟨hmapping, hfound.trans (congrArg some (Except.ok.inj hvalue))⟩
    · cases hvalue
  obtain ⟨hmapping, hpath⟩ := hget hpath
  refine ⟨hmapping, path, parm, hpath, (hget hparm).2, ?_⟩
  dsimp only at h
  split_ifs at h
  split at h
  · cases h
  · obtain ⟨values, -, h⟩ := Except.bind_eq_ok.mp h
    split_ifs at h
    obtain ⟨profiles, -, h⟩ := Except.bind_eq_ok.mp h
    rw [Except.pure_eq_ok] at h
    subst h
    exact ⟨rfl, rfl⟩

theorem says_of_editOf {e : Edit String CatalogEntry} (h : editOf text source raw = .ok e)
    (hblanks : Unpadded text raw) : Says text source raw e := by
  unfold editOf at h
  obtain ⟨key, hkey, h⟩ := Except.bind_eq_ok.mp h
  unfold Says
  split_ifs at h ⊢ with hremove
  · rw [Except.pure_eq_ok] at h
    subst h
    exact ⟨hkey, rfl⟩
  · obtain ⟨entry, hentry, h⟩ := Except.bind_eq_ok.mp h
    rw [Except.pure_eq_ok] at h
    subst h
    refine ⟨?_, entry, hentry, rfl⟩
    obtain ⟨hmapping, path, parm, hpath, hparm, hpathText, hparmText⟩ := coerceEntry_key hentry
    have hplain : lineKey raw = .ok (path.text ++ "/" ++ parm.text) := by
      unfold lineKey Yaml.getOf
      simp only [hmapping, if_true, hpath, hparm]
      rfl
    have hsame : entry.key = path.text ++ "/" ++ parm.text := by
      rw [hblanks "path" (by simp) path hpath] at hpathText
      rw [hblanks "parm" (by simp) parm hparm] at hparmText
      unfold CatalogEntry.key
      rw [hpathText, hparmText]
    exact hplain.trans (congrArg _ hsame.symm)

/-- The catalogue that the edits make of the base: an entry is the one given last, the keys that
no edit removes come first, as in the base, and then those introduced after them. -/
structure Makes (base : List CatalogEntry) (edits : List (Edit String CatalogEntry))
    (entries : List CatalogEntry) : Prop where
  distinct : (entries.map CatalogEntry.key).Nodup
  given : ∀ key, (entries.find? fun entry => entry.key = key) =
    leftBy (fun key => base.find? fun entry => entry.key = key) edits key
  ordered : entries.map CatalogEntry.key =
    (base.map CatalogEntry.key).filter (fun key => !removes edits key) ++
      introduced (fun key => base.find? fun entry => entry.key = key) [] edits

/-- A merge that rejects no entry misses no key, and its catalogue is made of what its base and
its lines say. -/
theorem merging_consistent {merged : Option (List CatalogEntry)}
    (h : mergeLines text source raws lines = .ok merged)
    (hblanks : ∀ line ∈ lines, Unpadded text line) :
    ∃ base edits entries, merged = some entries ∧
      raws.mapM (coerceEntry text "base.yaml") = .ok base ∧
      List.Forall₂ (Says text source) lines edits ∧ Makes base edits entries := by
  have hlist := h
  rw [mergeLines_eq] at hlist
  obtain ⟨base, hbase, hlist⟩ := Except.bind_eq_ok.mp hlist
  obtain ⟨entries, hentries, hlist⟩ := Except.bind_eq_ok.mp hlist
  rw [Except.pure_eq_ok] at hlist
  have hnodup := (coerceEntries_nodup hbase).1
  -- the same entries are the values of the table that the edits leave
  have htable : lines.foldlM (overlayLine text source) (ofList CatalogEntry.key base) =
      .ok (ofList CatalogEntry.key entries) := by
    rw [foldlM_overlayLine_ofList hnodup, hentries]
    rfl
  obtain ⟨edits, hedits, hrun⟩ := foldlM_overlayLine htable
  refine ⟨base, edits, entries, hlist.symm, coerceEntries_mapM hbase, ?_, ?_⟩
  · refine List.forall₂_iff_get.2 ⟨hedits.length_eq, fun i hi hi' => ?_⟩
    exact says_of_editOf (hedits.get hi hi') (hblanks _ (List.getElem_mem hi))
  · refine ⟨foldlM_overlayEntry_nodup hentries hnodup, fun key => ?_, ?_⟩
    · exact (congrArg (fun t : Merge => t.find key) hrun).trans (find_run _ edits key)
    · exact (congrArg Table.order hrun).trans (order_run (sound_ofList hnodup) edits)

end Merging

namespace Lab

def item (path parm : String) (more : List (Yaml × Yaml)) : Yaml :=
  .mapping "" ([(.str "path", .str path), (.str "parm", .str parm)] ++ more)

def baseItems : List Yaml :=
  [item "IMS" "a" [], item "IMS" "b" [(.str "default", .str "1")], item "IMS" "c" []]

def overlayItems : List Yaml :=
  [item "IMS" "c" [(.str "default", .str "2")], item "IMS" "a" [(.str "remove", .str "yes")],
    item "IMS" "d" [], item "IMS" "a" [(.str "default", .str "3")]]

def overlaid : List CatalogEntry :=
  [{ path := "IMS", parm := "b", default := "1" }, { path := "IMS", parm := "c", default := "2" },
    { path := "IMS", parm := "d" }, { path := "IMS", parm := "a", default := "3" }]

theorem merging_consistent_again :
    ∃ base edits entries, some overlaid = some entries ∧
      baseItems.mapM (coerceEntry { asciiText with repr := id } "base.yaml") = .ok base ∧
      List.Forall₂ (Says { asciiText with repr := id } "p.yaml") overlayItems edits ∧
      Makes base edits entries :=
  merging_consistent (by rfl) (fun _ _ _ _ _ _ => rfl)

end Lab
end Acs
