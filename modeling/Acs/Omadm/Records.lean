import Mathlib.Logic.Equiv.Defs
import Acs.Omadm.Port

/-! The records that a session has in the store, itself and the remainder of a package: both are
read, written and deleted by id, and both lapse. -/

namespace Acs.Omadm
open Interleave

theorem exec_raising {R : Effect DmOp DmOp.Answer World} {α : Type}
    {p : Program DmOp DmOp.Answer (Except StoreError α)} {w w' : World}
    {tr : List (Event DmOp.Answer)} {r : Except DmError α}
    (h : Exec R (Dm.raising p).run w tr r w') :
    ∃ ans, Exec R p w tr ans w' ∧ r = ans.mapError DmError.store := by
  obtain ⟨ans, w₁, tr₁, tr₂, hp, hr, rfl⟩ := Exec.bind_iff.mp h
  obtain ⟨rfl, rfl, rfl⟩ := Exec.result_iff.mp hr
  exact ⟨ans, by rwa [List.append_nil], rfl⟩

/-- A kind of record: where it is stored, and the operations on it. -/
structure RecordKind (α : Type) where
  idOf : α → String
  expiresAt : α → Int
  records : MemoryStore → String → Option α
  get : MemoryStore → String → Clock → Option α × MemoryStore
  put : α → DmWrite
  delete : String → DmWrite
  read : String → DmOp
  answer (id : String) : Except StoreError (Option α) ≃ (read id).Answer
  lookup : String → DmProgram (Option α)
  get_eq (m : MemoryStore) (id : String) (clock : Clock) : get m id clock =
    match records m id with
    | some a =>
      if MemoryStore.lapsed (expiresAt a) clock then (none, (delete id).apply m) else (some a, m)
    | none => (none, m)
  records_put (a : α) (m : MemoryStore) :
    records ((put a).apply m) = Function.update (records m) (idOf a) (some a)
  records_delete (id : String) (m : MemoryStore) :
    records ((delete id).apply m) = Function.update (records m) id none
  records_other (w : DmWrite) :
    (∃ a, w = put a) ∨ (∃ id, w = delete id) ∨ ∀ m, records (w.apply m) = records m
  read_injective : Function.Injective read
  lookup_run (id : String) : (lookup id).run =
    .call (read id) fun ans => .result (((answer id).symm ans).mapError DmError.store)
  exec_read (clock : Clock) (nonce id : String) (m : MemoryStore) :
    (read id).exec clock nonce m = (answer id (.ok (get m id clock).1), (get m id clock).2)
  failed_iff (id : String) (ans : Except StoreError (Option α)) :
    (read id).Failed (answer id ans) ↔ ∃ e, ans = .error e

namespace RecordKind

def sessions : RecordKind DmSession where
  idOf := DmSession.sessionId
  expiresAt := DmSession.expiresAt
  records := MemoryStore.dmSessions
  get := MemoryStore.getDmSession
  put := .putDmSession
  delete := .deleteDmSession
  read := .getDmSession
  answer _ := Equiv.refl _
  lookup := Dm.getDmSession
  get_eq m id clock := by
    unfold MemoryStore.getDmSession
    cases m.dmSessions id with
    | none => rfl
    | some s => rfl
  records_put _ _ := rfl
  records_delete _ _ := rfl
  records_other w := by
    cases w with
    | putDmSession s => exact Or.inl ⟨s, rfl⟩
    | deleteDmSession id => exact Or.inr (Or.inl ⟨id, rfl⟩)
    | putDevice | putDmPending | deleteDmPending => exact Or.inr (Or.inr fun _ => rfl)
  read_injective _ _ h := DmOp.getDmSession.inj h
  lookup_run _ := rfl
  exec_read _ _ _ _ := rfl
  failed_iff _ _ := Iff.rfl

def remainders : RecordKind DmPendingPackage where
  idOf := DmPendingPackage.sessionId
  expiresAt := DmPendingPackage.expiresAt
  records := MemoryStore.dmPending
  get := MemoryStore.getDmPending
  put := .putDmPending
  delete := .deleteDmPending
  read := .getDmPending
  answer _ := Equiv.refl _
  lookup := Dm.getDmPending
  get_eq m id clock := by
    unfold MemoryStore.getDmPending
    cases m.dmPending id with
    | none => rfl
    | some p => rfl
  records_put _ _ := rfl
  records_delete _ _ := rfl
  records_other w := by
    cases w with
    | putDmPending p => exact Or.inl ⟨p, rfl⟩
    | deleteDmPending id => exact Or.inr (Or.inl ⟨id, rfl⟩)
    | putDevice | putDmSession | deleteDmSession => exact Or.inr (Or.inr fun _ => rfl)
  read_injective _ _ h := DmOp.getDmPending.inj h
  lookup_run _ := rfl
  exec_read _ _ _ _ := rfl
  failed_iff _ _ := Iff.rfl

variable {α : Type} (kind : RecordKind α)

theorem get_cases (m : MemoryStore) (id : String) (clock : Clock) :
    (kind.get m id clock).1 = kind.records m id ∧ (kind.get m id clock).2 = m ∨
      (kind.get m id clock).1 = none ∧ (kind.get m id clock).2 = (kind.delete id).apply m ∧
      ∃ a, kind.records m id = some a ∧ MemoryStore.lapsed (kind.expiresAt a) clock := by
  rw [kind.get_eq]
  cases ha : kind.records m id with
  | none => exact Or.inl ⟨rfl, rfl⟩
  | some a =>
    dsimp only
    split_ifs with hlapsed
    · exact Or.inr ⟨rfl, rfl, a, rfl, hlapsed⟩
    · exact Or.inl ⟨rfl, rfl⟩

theorem records_get (m : MemoryStore) (id : String) (clock : Clock) :
    kind.records (kind.get m id clock).2 id = (kind.get m id clock).1 := by
  rcases kind.get_cases m id clock with ⟨hfound, hsame⟩ | ⟨hfound, hdeleted, -⟩
  · rw [hfound, hsame]
  · rw [hfound, hdeleted, kind.records_delete, Function.update_self]

theorem records_get_of_ne {id key : String} (hkey : key ≠ id) (m : MemoryStore) (clock : Clock) :
    kind.records (kind.get m id clock).2 key = kind.records m key := by
  rcases kind.get_cases m id clock with ⟨-, hsame⟩ | ⟨-, hdeleted, -⟩
  · rw [hsame]
  · rw [hdeleted, kind.records_delete, Function.update_of_ne hkey]

variable {R : Effect DmOp DmOp.Answer World} {w w' : World} {id : String}
  {tr : List (Event DmOp.Answer)}

theorem exec_lookup {r : Except DmError (Option α)} (h : Exec R (kind.lookup id).run w tr r w') :
    ∃ ans, R (kind.read id) w (kind.answer id ans) w' ∧
      tr = [⟨kind.read id, kind.answer id ans⟩] ∧ r = ans.mapError DmError.store := by
  rw [kind.lookup_run] at h
  obtain ⟨ans, w₁, tr', hop, hr, rfl⟩ := Exec.call_iff.mp h
  obtain ⟨rfl, rfl, rfl⟩ := Exec.result_iff.mp hr
  exact ⟨(kind.answer id).symm ans, by rwa [Equiv.apply_symm_apply], by rw [Equiv.apply_symm_apply],
    rfl⟩

theorem weather_read {ans : Except StoreError (Option α)}
    (h : Weather (kind.read id) w (kind.answer id ans) w') : w.clock.now ≤ w'.clock.now ∧
      ((∃ e, ans = .error e) ∧ w'.store = w.store ∨
        ans = .ok (kind.get w.store id w'.clock).1 ∧ w'.store = (kind.get w.store id w'.clock).2) := by
  obtain ⟨htime, ⟨hfailed, hstore⟩ | ⟨nonce, hexec⟩⟩ := h
  · exact ⟨htime, Or.inl ⟨(kind.failed_iff id ans).mp hfailed, hstore⟩⟩
  · rw [kind.exec_read] at hexec
    obtain ⟨hans, hstore⟩ := Prod.mk.inj hexec
    exact ⟨htime, Or.inr ⟨((kind.answer id).injective hans).symm, hstore.symm⟩⟩

end RecordKind
end Acs.Omadm
