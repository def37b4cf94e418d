import Mathlib

/-! A table kept as a map and the order of its keys, under edits of one key each: the two agree
through every run of edits, and what a run leaves can be read off its edits. -/

namespace OrderedTable
variable {κ ν : Type}

structure Table (κ ν : Type) where
  find : κ → Option ν := fun _ => none
  order : List κ := []

inductive Edit (κ ν : Type)
  | put (key : κ) (value : ν)
  | remove (key : κ)

def Edit.key : Edit κ ν → κ
  | put key _ => key
  | remove key => key

def Edit.leaves : Edit κ ν → Option ν
  | put _ value => some value
  | remove _ => none

namespace Table

def values (t : Table κ ν) : Option (List ν) := t.order.mapM t.find

/-- The order lists each key of the map once, and no other. -/
structure Sound (t : Table κ ν) : Prop where
  nodup : t.order.Nodup
  listed : ∀ key, key ∈ t.order ↔ (t.find key).isSome

theorem Sound.values {t : Table κ ν} (h : t.Sound) :
    ∃ values, t.values = some values ∧ values.map some = t.order.map t.find := by
  have hall : ∀ key ∈ t.order, (t.find key).isSome := fun key hkey => (h.listed key).1 hkey
  unfold Table.values
  revert hall
  generalize t.order = keys
  intro hall
  induction keys with
  | nil => exact ⟨[], rfl, rfl⟩
  | cons key keys ih =>
    obtain ⟨hkey, hkeys⟩ := List.forall_mem_cons.1 hall
    obtain ⟨value, hvalue⟩ := Option.isSome_iff_exists.1 hkey
    obtain ⟨values, hvalues, hmap⟩ := ih hkeys
    refine ⟨value :: values, ?_, ?_⟩
    · rw [List.mapM_cons, hvalue, hvalues]
      rfl
    · rw [List.map_cons, List.map_cons, hvalue, hmap]

variable [DecidableEq κ]

def put (key : κ) (value : ν) (t : Table κ ν) : Table κ ν where
  find := Function.update t.find key (some value)
  order := if (t.find key).isSome then t.order else t.order ++ [key]

def remove (key : κ) (t : Table κ ν) : Table κ ν where
  find := Function.update t.find key none
  order := t.order.erase key

def apply (t : Table κ ν) : Edit κ ν → Table κ ν
  | .put key value => t.put key value
  | .remove key => t.remove key

def run (t : Table κ ν) (edits : List (Edit κ ν)) : Table κ ν := edits.foldl apply t

theorem Sound.put {t : Table κ ν} (h : t.Sound) (key : κ) (value : ν) : (t.put key value).Sound := by
  unfold Table.put
  constructor
  · dsimp only
    split_ifs with hkey
    · exact h.nodup
    · have hnew : key ∉ t.order := fun hmem => hkey ((h.listed key).1 hmem)
      exact List.concat_eq_append ▸ h.nodup.concat hnew
  · intro key'
    dsimp only
    by_cases heq : key' = key
    · subst heq
      rw [Function.update_self]
      split_ifs with hkey
      · exact iff_of_true ((h.listed key').2 hkey) rfl
      · exact iff_of_true List.mem_concat_self rfl
    · rw [Function.update_of_ne heq]
      refine Iff.trans ?_ (h.listed key')
      split_ifs with hkey
      · exact Iff.rfl
      · simp only [List.mem_append, List.mem_singleton, heq, or_false]

theorem Sound.remove {t : Table κ ν} (h : t.Sound) (key : κ) : (t.remove key).Sound := by
  refine ⟨h.nodup.erase key, fun key' => ?_⟩
  unfold Table.remove
  rw [h.nodup.mem_erase_iff, h.listed]
  by_cases heq : key' = key
  · subst heq
    simp
  · refine (and_iff_right heq).trans ?_
    dsimp only
    rw [Function.update_of_ne heq]

theorem Sound.apply {t : Table κ ν} (h : t.Sound) (e : Edit κ ν) : (t.apply e).Sound := by
  cases e with
  | put key value => exact h.put key value
  | remove key => exact h.remove key

theorem Sound.run {t : Table κ ν} (h : t.Sound) (edits : List (Edit κ ν)) : (t.run edits).Sound := by
  induction edits generalizing t with
  | nil => exact h
  | cons e edits ih => exact ih (h.apply e)

theorem find_apply (t : Table κ ν) (e : Edit κ ν) (key : κ) :
    (t.apply e).find key = if e.key = key then e.leaves else t.find key := by
  cases e with
  | put key' value =>
    by_cases h : key' = key
    · subst h
      exact (Function.update_self ..).trans (if_pos rfl).symm
    · exact (Function.update_of_ne (Ne.symm h) ..).trans (if_neg h).symm
  | remove key' =>
    by_cases h : key' = key
    · subst h
      exact (Function.update_self ..).trans (if_pos rfl).symm
    · exact (Function.update_of_ne (Ne.symm h) ..).trans (if_neg h).symm

def lastOf (key : κ) (edits : List (Edit κ ν)) : Option (Edit κ ν) :=
  edits.reverse.find? fun e => e.key = key

def leftBy (before : κ → Option ν) (edits : List (Edit κ ν)) (key : κ) : Option ν :=
  match lastOf key edits with
  | some e => e.leaves
  | none => before key

theorem leftBy_concat (before : κ → Option ν) (edits : List (Edit κ ν)) (e : Edit κ ν) (key : κ) :
    leftBy before (edits ++ [e]) key = if e.key = key then e.leaves else leftBy before edits key := by
  unfold leftBy lastOf
  rw [List.reverse_append, List.reverse_singleton, List.singleton_append, List.find?_cons]
  by_cases h : e.key = key
  · simp only [h, decide_true, if_true]
  · simp only [h, decide_false, if_false]

theorem find_run (t : Table κ ν) (edits : List (Edit κ ν)) (key : κ) :
    (t.run edits).find key = leftBy t.find edits key := by
  induction edits using List.reverseRec with
  | nil => rfl
  | append_singleton edits e ih =>
    rw [run, List.foldl_concat, find_apply, leftBy_concat]
    exact if_congr Iff.rfl rfl ih

def removes (edits : List (Edit κ ν)) (key : κ) : Bool :=
  edits.any fun e => e.key = key && e.leaves.isNone

/-- The keys that the edits introduce for the last time and keep, after the edits `done`: a key is
introduced where it is put and has no value just before. -/
def introduced (before : κ → Option ν) : List (Edit κ ν) → List (Edit κ ν) → List κ
  | _, [] => []
  | done, e :: edits =>
    if e.leaves.isSome && (leftBy before done e.key).isNone && !removes edits e.key then
      e.key :: introduced before (done ++ [e]) edits
    else introduced before (done ++ [e]) edits

theorem filter_erase {keys : List κ} (h : keys.Nodup) (edits : List (Edit κ ν)) (key : κ) :
    (keys.erase key).filter (fun k => !removes edits k) =
      keys.filter fun k => !removes (.remove key :: edits) k := by
  rw [h.erase_eq_filter, List.filter_filter]
  refine List.filter_congr fun k _ => ?_
  by_cases hk : k = key
  · subst hk
    simp [removes, Edit.key, Edit.leaves]
  · simp [removes, Edit.key, hk, Ne.symm hk]

theorem removes_put (key k : κ) (value : ν) (edits : List (Edit κ ν)) :
    removes (.put key value :: edits) k = removes edits k := by
  simp [removes, Edit.leaves]

/-- The keys that no edit removes keep their order, and the others that stay follow in the order
of the edits that introduced them last. -/
theorem order_run_after {t : Table κ ν} (h : t.Sound) (done edits : List (Edit κ ν)) :
    (t.run (done ++ edits)).order =
      (t.run done).order.filter (fun key => !removes edits key) ++
        introduced t.find done edits := by
  induction edits generalizing done with
  | nil =>
    have hall : ∀ key ∈ (t.run done).order, (!removes ([] : List (Edit κ ν)) key) = true :=
      fun _ _ => rfl
    rw [List.append_nil, introduced, List.append_nil, List.filter_eq_self.2 hall]
  | cons e edits ih =>
    have hsound := h.run done
    have hnext : (t.run (done ++ [e])).order = ((t.run done).apply e).order := by
      rw [run, List.foldl_concat, run]
    rw [List.append_cons, ih (done ++ [e]), hnext, introduced, ← find_run]
    cases e with
    | remove key =>
      rw [show (Table.apply (t.run done) (.remove key)).order = (t.run done).order.erase key from rfl,
        filter_erase hsound.nodup]
      rfl
    | put key value =>
      have hfilter : ∀ keys : List κ, keys.filter (fun k => !removes (.put key value :: edits) k) =
          keys.filter fun k => !removes edits k :=
        fun keys => List.filter_congr fun k _ => by rw [removes_put]
      rw [hfilter]
      have horder : ((t.run done).apply (.put key value)).order =
          if ((t.run done).find key).isSome then (t.run done).order
          else (t.run done).order ++ [key] := rfl
      rw [horder]
      change _ = _ ++ if (true && ((t.run done).find key).isNone && !removes edits key) = true then
        key :: introduced t.find (done ++ [.put key value]) edits
        else introduced t.find (done ++ [.put key value]) edits
      by_cases hfind : ((t.run done).find key).isSome
      · have hold : ((t.run done).find key).isNone = false := by
          rw [← Option.not_isSome, hfind, Bool.not_true]
        rw [if_pos hfind, hold]
        rfl
      · have hnew : ((t.run done).find key).isNone = true := by
          rw [← Option.not_isSome, Bool.not_eq_true', ← Bool.not_eq_true]
          exact hfind
        rw [if_neg hfind, hnew, List.filter_append, List.append_assoc]
        cases hremoves : removes edits key with
        | true => simp [hremoves]
        | false => simp [hremoves]

theorem order_run {t : Table κ ν} (h : t.Sound) (edits : List (Edit κ ν)) :
    (t.run edits).order =
      t.order.filter (fun key => !removes edits key) ++ introduced t.find [] edits :=
  order_run_after h [] edits

section OfList
variable {name : ν → κ} {values : List ν}

def ofList (name : ν → κ) (values : List ν) : Table κ ν where
  find key := values.find? fun v => name v = key
  order := values.map name

theorem mem_map_iff_find? (key : κ) :
    key ∈ values.map name ↔ (values.find? fun v => name v = key).isSome := by
  rw [List.find?_isSome, List.mem_map]
  simp only [decide_eq_true_eq]

theorem find?_name (h : (values.map name).Nodup) {v : ν} (hv : v ∈ values) :
    (values.find? fun x => name x = name v) = some v := by
  induction values with
  | nil => cases hv
  | cons x values ih =>
    rw [List.map_cons, List.nodup_cons] at h
    rw [List.find?_cons]
    rcases List.mem_cons.1 hv with rfl | hv
    · simp
    · have hne : name x ≠ name v := fun heq => h.1 (heq ▸ List.mem_map_of_mem hv)
      simp only [hne, decide_false]
      exact ih h.2 hv

theorem sound_ofList (h : (values.map name).Nodup) : (ofList name values).Sound :=
  ⟨h, mem_map_iff_find?⟩

theorem values_ofList (h : (values.map name).Nodup) : (ofList name values).values = some values := by
  obtain ⟨found, hfound, hmap⟩ := (sound_ofList h).values
  have hsame : (ofList name values).order.map (ofList name values).find = values.map some := by
    change (values.map name).map _ = _
    rw [List.map_map]
    exact List.map_congr_left fun v hv => find?_name h hv
  have heq : found = values :=
    List.map_injective_iff.2 (Option.some_injective ν) (hmap.trans hsame)
  rw [hfound, heq]

end OfList

end Table
end OrderedTable
