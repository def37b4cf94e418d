import Mathlib

/-! Numbers as octets, most significant first, and reading a layout off the front of octets. -/

namespace Octets

def bigEndian : Nat → Nat → List UInt8
  | 0, _ => []
  | width + 1, n => bigEndian width (n / 256) ++ [UInt8.ofNat n]

def value (octets : List UInt8) : Nat := octets.foldl (fun n b => n * 256 + b.toNat) 0

@[simp] theorem length_bigEndian (width n : Nat) : (bigEndian width n).length = width := by
  induction width generalizing n with
  | zero => rfl
  | succ width ih => simp only [bigEndian, List.length_append, ih, List.length_singleton]

@[simp] theorem value_nil : value [] = 0 := rfl

theorem value_concat (octets : List UInt8) (b : UInt8) :
    value (octets ++ [b]) = value octets * 256 + b.toNat := by
  simp only [value, List.foldl_append, List.foldl_cons, List.foldl_nil]

theorem value_bigEndian (width n : Nat) : value (bigEndian width n) = n % 256 ^ width := by
  induction width generalizing n with
  | zero => simp only [bigEndian, value_nil, Nat.pow_zero, Nat.mod_one]
  | succ width ih =>
    have hlow : (UInt8.ofNat n).toNat = n % 256 := UInt8.toNat_ofNat'
    rw [bigEndian, value_concat, ih, hlow, Nat.pow_succ, Nat.mul_comm (256 ^ width) 256,
      Nat.mod_mul]
    ring

theorem value_bigEndian_of_lt {width n : Nat} (h : n < 256 ^ width) :
    value (bigEndian width n) = n := by
  rw [value_bigEndian, Nat.mod_eq_of_lt h]

theorem bigEndian_value (octets : List UInt8) :
    bigEndian octets.length (value octets) = octets := by
  induction octets using List.reverseRecOn with
  | nil => rfl
  | append_singleton octets b ih =>
    have hdiv : (value octets * 256 + b.toNat) / 256 = value octets := by
      have hb := b.toNat_lt
      omega
    have hlow : UInt8.ofNat (value octets * 256 + b.toNat) = b := by
      apply UInt8.toNat_inj.mp
      have hb := b.toNat_lt
      rw [UInt8.toNat_ofNat']
      omega
    rw [List.length_append, List.length_singleton, bigEndian, value_concat, hdiv, ih, hlow]

theorem value_lt (octets : List UInt8) : value octets < 256 ^ octets.length := by
  have h := value_bigEndian octets.length (value octets)
  rw [bigEndian_value] at h
  rw [h]
  exact Nat.mod_lt _ (Nat.pow_pos (by decide))

/-- What takes a value off the front of octets, where one is there. -/
abbrev Reader := StateT (List UInt8) Option

def octet : Reader UInt8
  | [] => none
  | b :: rest => some (b, rest)

def octets (size : Nat) : Reader (List UInt8) := fun input =>
  if size ≤ input.length then some (input.take size, input.drop size) else none

def cString (limit : Nat) : Reader (List UInt8)
  | [] => none
  | b :: rest =>
    match limit with
    | 0 => none
    | limit + 1 =>
      if b = 0 then some ([], rest)
      else (cString limit rest).map fun (raw, rest) => (b :: raw, rest)

def Reader.all {α : Type} (reader : Reader α) (input : List UInt8) : Option α :=
  match reader.run input with
  | some (a, []) => some a
  | _ => none

section Reading
variable {α β : Type}

theorem run_bind_of {reader : Reader α} {next : α → Reader β} {input rest : List UInt8} {a : α}
    (h : reader.run input = some (a, rest)) :
    (reader >>= next).run input = (next a).run rest := by
  rw [StateT.run_bind, h]
  rfl

@[simp] theorem octet_cons (b : UInt8) (rest : List UInt8) :
    octet.run (b :: rest) = some (b, rest) := rfl

theorem octets_append {size : Nat} {front : List UInt8} (h : front.length = size)
    (rest : List UInt8) : (octets size).run (front ++ rest) = some (front, rest) := by
  subst h
  show (if _ then some _ else none) = _
  rw [if_pos (by rw [List.length_append]; omega), List.take_left, List.drop_left]

theorem cString_append {limit : Nat} {raw : List UInt8} (hnul : 0 ∉ raw)
    (hlimit : raw.length < limit) (rest : List UInt8) :
    (cString limit).run (raw ++ 0 :: rest) = some (raw, rest) := by
  induction raw generalizing limit with
  | nil =>
    obtain ⟨limit, rfl⟩ := Nat.exists_eq_add_of_lt hlimit
    rfl
  | cons b raw ih =>
    obtain ⟨limit, rfl⟩ := Nat.exists_eq_add_of_lt hlimit
    obtain ⟨hb, hraw⟩ := not_or.mp (List.mem_cons.not.mp hnul)
    have hrest : cString ((b :: raw).length + limit) (raw ++ 0 :: rest) = some (raw, rest) :=
      ih hraw (by rw [List.length_cons]; omega)
    show (if b = 0 then _ else (cString _ _).map _) = _
    rw [if_neg (Ne.symm hb)]
    exact congrArg (Option.map _) hrest

end Reading

end Octets
