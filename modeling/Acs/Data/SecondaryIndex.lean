import Mathlib

/-! A table with a secondary index that its writers keep in step. A writer sees only the record it
replaces, while records that share an attribute share one entry of the index. -/

namespace SecondaryIndex
open Function

structure Indexed (κ α ρ : Type) where
  table : κ → Option ρ
  index : α → Option κ

namespace Indexed
variable {κ α ρ : Type} (attr : ρ → α) (d : Indexed κ α ρ)

def lookup (a : α) : Option ρ := (d.index a).bind d.table

abbrev Has (k : κ) (a : α) : Prop := (d.table k).map attr = some a

def Alone (k : κ) (a : α) : Prop := ∀ k', d.Has attr k' a → k' = k

/-- Entries and records point at each other. -/
structure Consistent : Prop where
  sound : ∀ a k, d.index a = some k → d.Has attr k a
  complete : ∀ a k, d.Has attr k a → d.index a ≠ none

structure Answers : Prop where
  sound : ∀ a r, d.lookup a = some r → attr r = a
  complete : ∀ a k, d.Has attr k a → ∃ r, d.lookup a = some r ∧ attr r = a

section
variable {attr d} {k : κ} {r : ρ} {a : α}

theorem has_iff : d.Has attr k a ↔ ∃ r, d.table k = some r ∧ attr r = a := Option.map_eq_some_iff

theorem lookup_eq_some : d.lookup a = some r ↔ ∃ k, d.index a = some k ∧ d.table k = some r :=
  Option.bind_eq_some_iff

theorem Consistent.answers (h : d.Consistent attr) : d.Answers attr where
  sound a r hr := by
    obtain ⟨k, hi, ht⟩ := lookup_eq_some.mp hr
    obtain ⟨r', hr', ha⟩ := has_iff.mp (h.sound a k hi)
    have heq : r' = r := Option.some.inj (hr'.symm.trans ht)
    exact heq ▸ ha
  complete a k hk := by
    obtain ⟨k', hi⟩ := Option.ne_none_iff_exists'.mp (h.complete a k hk)
    obtain ⟨r, ht, ha⟩ := has_iff.mp (h.sound a k' hi)
    exact ⟨r, lookup_eq_some.mpr ⟨k', hi, ht⟩, ha⟩

theorem Answers.index_ne_none (h : d.Answers attr) (hk : d.Has attr k a) : d.index a ≠ none := by
  intro hnone
  obtain ⟨r, hr, -⟩ := h.complete a k hk
  obtain ⟨k', hi, -⟩ := lookup_eq_some.mp hr
  rw [hnone] at hi
  cases hi

end

variable [DecidableEq κ]

/-- Store a record behind the index's back. -/
def overwrite (k : κ) (r : ρ) : Indexed κ α ρ := { d with table := update d.table k (some r) }

variable {attr d} in
theorem has_update {k k' : κ} {a : α} {index : α → Option κ} {v : Option ρ} :
    (Indexed.mk (update d.table k v) index).Has attr k' a ↔
      if k' = k then v.map attr = some a else d.Has attr k' a := by
  by_cases hk : k' = k
  · subst hk
    simp
  · simp [hk]

variable [DecidableEq α]

/-- Store and index a record; the entry of the record it replaces goes if the attribute changed. -/
def put (k : κ) (r : ρ) : Indexed κ α ρ where
  table := update d.table k (some r)
  index := update
    (match d.table k with
      | some old => if attr old ≠ attr r then update d.index (attr old) none else d.index
      | none => d.index) (attr r) (some k)

def remove (k : κ) : Indexed κ α ρ where
  table := update d.table k none
  index := match d.table k with
    | some old => update d.index (attr old) none
    | none => d.index

variable {attr d} {k : κ} {r : ρ} {a : α}

theorem index_put : (d.put attr k r).index a =
    if a = attr r then some k else if d.Has attr k a then none else d.index a := by
  by_cases ha : a = attr r
  · simp only [put, ha, update_self, if_pos]
  · have hrest : (d.put attr k r).index a =
        (match d.table k with
          | some old => if attr old ≠ attr r then update d.index (attr old) none else d.index
          | none => d.index) a := update_of_ne ha ..
    rw [hrest, if_neg ha]
    dsimp only [Has]
    cases hk : d.table k with
    | none => simp
    | some old =>
      by_cases hold : attr old = a
      · have hne : attr old ≠ attr r := fun h => ha (hold.symm.trans h)
        simp [hold, ha]
      · have hne : a ≠ attr old := fun h => hold h.symm
        by_cases hr : attr old = attr r
        · simp [hr, Ne.symm ha]
        · simp [hr, hne, hold]

theorem index_remove : (d.remove attr k).index a = if d.Has attr k a then none else d.index a := by
  dsimp only [remove, Has]
  cases hk : d.table k with
  | none => simp
  | some old =>
    by_cases hold : attr old = a
    · simp [hold]
    · have hne : a ≠ attr old := fun h => hold h.symm
      simp [hne, hold]

theorem overwrite_put {r₁ : ρ} (h : attr r₁ = attr r) : (d.overwrite k r₁).put attr k r =
    { table := update d.table k (some r), index := update d.index (attr r) (some k) } := by
  simp [overwrite, put, h]

theorem Consistent.put (h : d.Consistent attr)
    (halone : ∀ a, d.Has attr k a → a ≠ attr r → d.Alone attr k a) :
    (d.put attr k r).Consistent attr where
  sound a k' hi := by
    rw [index_put] at hi
    apply has_update.mpr
    split_ifs at hi with ha hold
    · simp [Option.some.inj hi.symm, ha]
    · have hk' := h.sound a k' hi
      have hne : k' ≠ k := fun heq => hold (heq ▸ hk')
      rwa [if_neg hne]
  complete a k' hk' := by
    rw [index_put]
    split_ifs with ha hold
    · exact Option.some_ne_none k
    · have hne : k' ≠ k := by
        rintro rfl
        have hr := has_update.mp hk'
        rw [if_pos rfl] at hr
        exact ha (Option.some.inj hr).symm
      have hhas := has_update.mp hk'
      rw [if_neg hne] at hhas
      exact absurd (halone a hold ha k' hhas) hne
    · have hne : k' ≠ k := by
        rintro rfl
        have hr := has_update.mp hk'
        rw [if_pos rfl] at hr
        exact ha (Option.some.inj hr).symm
      have hhas := has_update.mp hk'
      rw [if_neg hne] at hhas
      exact h.complete a k' hhas

theorem Answers.alone_of_put (h : (d.put attr k r).Answers attr) (hk : d.Has attr k a)
    (ha : a ≠ attr r) : d.Alone attr k a := by
  intro k' hk'
  by_contra hne
  have hstays : (d.put attr k r).Has attr k' a := has_update.mpr (by rwa [if_neg hne])
  apply h.index_ne_none hstays
  rw [index_put, if_neg ha, if_pos hk]

theorem Consistent.remove (h : d.Consistent attr)
    (halone : ∀ a, d.Has attr k a → d.Alone attr k a) : (d.remove attr k).Consistent attr where
  sound a k' hi := by
    rw [index_remove] at hi
    split_ifs at hi with hold
    have hk' := h.sound a k' hi
    have hne : k' ≠ k := fun heq => hold (heq ▸ hk')
    exact has_update.mpr (by rwa [if_neg hne])
  complete a k' hk' := by
    have hhas := has_update.mp hk'
    split_ifs at hhas with hkk
    · cases hhas
    · rw [index_remove]
      split_ifs with hold
      · exact absurd (halone a hold k' hhas) hkk
      · exact h.complete a k' hhas

theorem Answers.alone_of_remove (h : (d.remove attr k).Answers attr) (hk : d.Has attr k a) :
    d.Alone attr k a := by
  intro k' hk'
  by_contra hne
  have hstays : (d.remove attr k).Has attr k' a := has_update.mpr (by rwa [if_neg hne])
  apply h.index_ne_none hstays
  rw [index_remove, if_pos hk]

theorem Consistent.overwrite_put {r₁ : ρ} (h : d.Consistent attr) (hr : attr r₁ = attr r)
    (hmoved : ∀ a, d.Has attr k a → a ≠ attr r → d.index a ≠ some k) :
    ((d.overwrite k r₁).put attr k r).Consistent attr := by
  rw [Indexed.overwrite_put hr]
  constructor
  · intro a k' hi
    apply has_update.mpr
    by_cases ha : a = attr r
    · subst ha
      have hk : k = k' := by simpa using hi
      simp [hk]
    · replace hi : d.index a = some k' := by simpa [ha] using hi
      have hk' := h.sound a k' hi
      have hne : k' ≠ k := fun heq => hmoved a (heq ▸ hk') ha (heq ▸ hi)
      rwa [if_neg hne]
  · intro a k' hk'
    by_cases ha : a = attr r
    · simp [ha]
    · have hhas := has_update.mp hk'
      split_ifs at hhas with hkk
      · exact absurd (Option.some.inj hhas).symm ha
      · simpa [ha] using h.complete a k' hhas

theorem Answers.index_of_overwrite_put {r₁ : ρ} (h : ((d.overwrite k r₁).put attr k r).Answers attr)
    (hr : attr r₁ = attr r) (ha : a ≠ attr r) : d.index a ≠ some k := by
  rw [Indexed.overwrite_put hr] at h
  intro hi
  have hfound : (Indexed.mk (update d.table k (some r))
      (update d.index (attr r) (some k))).lookup a = some r :=
    lookup_eq_some.mpr ⟨k, by simpa [ha] using hi, by simp⟩
  exact ha (h.sound a r hfound).symm

end Indexed
end SecondaryIndex
