import Mathlib
import Acs.Data.Except
import Acs.Store.Base

/-! Items of the DynamoDB table: the Python values the store builds, the attribute values
that travel, and what comes back. Numbers come back as `Decimal`, and a number of more
than 38 digits, or a float, is refused. -/

namespace Acs

/-- A Python value. `decimal c e` and `float c e` are the number `c / 10 ^ e`. -/
inductive PyValue
  /-- `None` -/
  | null
  | bool (b : Bool)
  | int (n : Int)
  | decimal (coefficient : Int) (exponent : Nat)
  | float (coefficient : Int) (exponent : Nat)
  | str (s : String)
  | list (values : List PyValue)
  | dict (entries : List (String × PyValue))

inductive AttributeValue
  | null
  | bool (b : Bool)
  | n (coefficient : Int) (exponent : Nat)
  | s (s : String)
  | l (values : List AttributeValue)
  | m (entries : List (String × AttributeValue))

abbrev Item := List (String × PyValue)

def fitsNumber (c : Int) : Bool := c.natAbs < 10 ^ 38

mutual
def serialize : PyValue → Except StoreError AttributeValue
  | .null => .ok .null
  | .bool b => .ok (.bool b)
  | .int c => if fitsNumber c then .ok (.n c 0) else .error .inexactNumber
  | .decimal c e => if fitsNumber c then .ok (.n c e) else .error .inexactNumber
  | .float _ _ => .error .typeError
  | .str s => .ok (.s s)
  | .list vs => (serializeList vs).map .l
  | .dict kvs => (serializeDict kvs).map .m

def serializeList : List PyValue → Except StoreError (List AttributeValue)
  | [] => .ok []
  | v :: vs => do return (← serialize v) :: (← serializeList vs)

def serializeDict : List (String × PyValue) → Except StoreError (List (String × AttributeValue))
  | [] => .ok []
  | (k, v) :: kvs => do return (k, ← serialize v) :: (← serializeDict kvs)
end

mutual
def deserialize : AttributeValue → PyValue
  | .null => .null
  | .bool b => .bool b
  | .n c e => .decimal c e
  | .s s => .str s
  | .l vs => .list (deserializeList vs)
  | .m kvs => .dict (deserializeDict kvs)

def deserializeList : List AttributeValue → List PyValue
  | [] => []
  | v :: vs => deserialize v :: deserializeList vs

def deserializeDict : List (String × AttributeValue) → List (String × PyValue)
  | [] => []
  | (k, v) :: kvs => (k, deserialize v) :: deserializeDict kvs
end

mutual
def clean : PyValue → PyValue
  | .decimal c e => if c % 10 ^ e = 0 then .int (c / 10 ^ e) else .float c e
  | .list vs => .list (cleanList vs)
  | .dict kvs => .dict (cleanDict kvs)
  | .null => .null
  | .bool b => .bool b
  | .int n => .int n
  | .float c e => .float c e
  | .str s => .str s

def cleanList : List PyValue → List PyValue
  | [] => []
  | v :: vs => clean v :: cleanList vs

def cleanDict : List (String × PyValue) → List (String × PyValue)
  | [] => []
  | (k, v) :: kvs => (k, clean v) :: cleanDict kvs
end

/-- Only top-level `None` is dropped. -/
def encode : Item → Item
  | [] => []
  | (_, .null) :: kvs => encode kvs
  | (k, .float c e) :: kvs => (k, .decimal c e) :: encode kvs
  | (k, v) :: kvs => (k, v) :: encode kvs

mutual
def PyValue.Plain : PyValue → Prop
  | .decimal _ _ | .float _ _ => False
  | .list vs => PlainList vs
  | .dict kvs => PlainDict kvs
  | _ => True

def PlainList : List PyValue → Prop
  | [] => True
  | v :: vs => v.Plain ∧ PlainList vs

def PlainDict : List (String × PyValue) → Prop
  | [] => True
  | (_, v) :: kvs => v.Plain ∧ PlainDict kvs
end

mutual
def PyValue.Fits : PyValue → Prop
  | .int c | .decimal c _ => fitsNumber c
  | .float _ _ => False
  | .list vs => FitsList vs
  | .dict kvs => FitsDict kvs
  | _ => True

def FitsList : List PyValue → Prop
  | [] => True
  | v :: vs => v.Fits ∧ FitsList vs

def FitsDict : List (String × PyValue) → Prop
  | [] => True
  | (_, v) :: kvs => v.Fits ∧ FitsDict kvs
end

mutual
theorem serialize_ok : ∀ {v : PyValue}, (∃ a, serialize v = .ok a) ↔ v.Fits
  | .null => ⟨fun _ => trivial, fun _ => ⟨_, rfl⟩⟩
  | .bool _ => ⟨fun _ => trivial, fun _ => ⟨_, rfl⟩⟩
  | .str _ => ⟨fun _ => trivial, fun _ => ⟨_, rfl⟩⟩
  | .int c => by
    unfold serialize PyValue.Fits
    split_ifs with h <;> simp [h]
  | .decimal c e => by
    unfold serialize PyValue.Fits
    split_ifs with h <;> simp [h]
  | .float _ _ => by simp [serialize, PyValue.Fits]
  | .list vs => by
    simp only [serialize, PyValue.Fits, Except.map_eq_ok, ← serializeList_ok]
    exact ⟨fun ⟨_, a, h, _⟩ => ⟨a, h⟩, fun ⟨a, h⟩ => ⟨_, a, h, rfl⟩⟩
  | .dict kvs => by
    simp only [serialize, PyValue.Fits, Except.map_eq_ok, ← serializeDict_ok]
    exact ⟨fun ⟨_, a, h, _⟩ => ⟨a, h⟩, fun ⟨a, h⟩ => ⟨_, a, h, rfl⟩⟩

theorem serializeList_ok : ∀ {vs : List PyValue}, (∃ as, serializeList vs = .ok as) ↔ FitsList vs
  | [] => ⟨fun _ => trivial, fun _ => ⟨_, rfl⟩⟩
  | v :: vs => by
    simp only [serializeList, Except.bind_eq_ok, Except.pure_eq_ok, FitsList, ← serialize_ok,
      ← serializeList_ok]
    exact ⟨fun ⟨_, a, ha, as, has, _⟩ => ⟨⟨a, ha⟩, as, has⟩,
      fun ⟨⟨a, ha⟩, as, has⟩ => ⟨_, a, ha, as, has, rfl⟩⟩

theorem serializeDict_ok : ∀ {kvs : Item}, (∃ as, serializeDict kvs = .ok as) ↔ FitsDict kvs
  | [] => ⟨fun _ => trivial, fun _ => ⟨_, rfl⟩⟩
  | (k, v) :: kvs => by
    simp only [serializeDict, Except.bind_eq_ok, Except.pure_eq_ok, FitsDict, ← serialize_ok,
      ← serializeDict_ok]
    exact ⟨fun ⟨_, a, ha, as, has, _⟩ => ⟨⟨a, ha⟩, as, has⟩,
      fun ⟨⟨a, ha⟩, as, has⟩ => ⟨_, a, ha, as, has, rfl⟩⟩
end

mutual
theorem clean_deserialize_serialize : ∀ {v : PyValue} {a : AttributeValue}, v.Plain →
    serialize v = .ok a → clean (deserialize a) = v
  | .null, _, _, h => by cases h; rfl
  | .bool b, _, _, h => by cases h; rfl
  | .int c, _, _, h => by
    unfold serialize at h
    split_ifs at h
    cases h
    simp [deserialize, clean]
  | .str s, _, _, h => by cases h; rfl
  | .list vs, _, hp, h => by
    rw [serialize, Except.map_eq_ok] at h
    obtain ⟨as, hvs, rfl⟩ := h
    rw [deserialize, clean, cleanList_deserialize_serialize hp hvs]
  | .dict kvs, _, hp, h => by
    rw [serialize, Except.map_eq_ok] at h
    obtain ⟨as, hkvs, rfl⟩ := h
    rw [deserialize, clean, cleanDict_deserialize_serialize hp hkvs]

theorem cleanList_deserialize_serialize : ∀ {vs : List PyValue} {as : List AttributeValue},
    PlainList vs → serializeList vs = .ok as → cleanList (deserializeList as) = vs
  | [], _, _, h => by cases h; rfl
  | v :: vs, _, hp, h => by
    simp only [serializeList, Except.bind_eq_ok, Except.pure_eq_ok] at h
    obtain ⟨a, hv, as, hvs, rfl⟩ := h
    rw [deserializeList, cleanList, clean_deserialize_serialize hp.1 hv,
      cleanList_deserialize_serialize hp.2 hvs]

theorem cleanDict_deserialize_serialize : ∀ {kvs : Item} {as : List (String × AttributeValue)},
    PlainDict kvs → serializeDict kvs = .ok as → cleanDict (deserializeDict as) = kvs
  | [], _, _, h => by cases h; rfl
  | (k, v) :: kvs, _, hp, h => by
    simp only [serializeDict, Except.bind_eq_ok, Except.pure_eq_ok] at h
    obtain ⟨a, hv, as, hkvs, rfl⟩ := h
    rw [deserializeDict, cleanDict, clean_deserialize_serialize hp.1 hv,
      cleanDict_deserialize_serialize hp.2 hkvs]
end

end Acs
