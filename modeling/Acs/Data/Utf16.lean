import Mathlib
import Acs.Data.Octets

/-! Text as UTF-16 in big-endian order. -/

namespace Utf16
open Octets

def units (c : Char) : List Nat :=
  if c.toNat < 0x10000 then [c.toNat]
  else [0xD800 + (c.toNat - 0x10000) / 0x400, 0xDC00 + (c.toNat - 0x10000) % 0x400]

def encode (s : String) : List UInt8 :=
  (s.toList.flatMap units).flatMap (bigEndian 2)

def unitsOf : List UInt8 → Option (List Nat)
  | [] => some []
  | high :: low :: rest => (value [high, low] :: ·) <$> unitsOf rest
  | [_] => none

def charsOf : List Nat → Option (List Char)
  | [] => some []
  | [u] => if u < 0xD800 ∨ 0xE000 ≤ u then some [Char.ofNat u] else none
  | u :: v :: rest =>
    if u < 0xD800 ∨ 0xE000 ≤ u then (Char.ofNat u :: ·) <$> charsOf (v :: rest)
    else if u < 0xDC00 ∧ 0xDC00 ≤ v ∧ v < 0xE000 then
      (Char.ofNat (0x10000 + (u - 0xD800) * 0x400 + (v - 0xDC00)) :: ·) <$> charsOf rest
    else none

def decode (octets : List UInt8) : Option String :=
  (unitsOf octets >>= charsOf).map String.ofList

theorem toNat_ranges (c : Char) : c.toNat < 0xD800 ∨ 0xE000 ≤ c.toNat ∧ c.toNat < 0x110000 := by
  have hvalid : c.toNat.isValidChar := c.valid
  rcases hvalid with h | ⟨h, h'⟩
  · exact .inl h
  · exact .inr ⟨h, h'⟩

theorem units_lt {c : Char} {u : Nat} (h : u ∈ units c) : u < 256 ^ 2 := by
  have hranges := toNat_ranges c
  unfold units at h
  split at h <;> simp only [List.mem_cons, List.not_mem_nil, or_false] at h <;> omega

theorem unitsOf_bigEndian {us : List Nat} (h : ∀ u ∈ us, u < 256 ^ 2) :
    unitsOf (us.flatMap (bigEndian 2)) = some us := by
  induction us with
  | nil => rfl
  | cons u us ih =>
    have hu : value (bigEndian 2 u) = u := value_bigEndian_of_lt (h u (List.mem_cons_self ..))
    have hus := ih fun v hv => h v (List.mem_cons_of_mem _ hv)
    have hunfold : (u :: us).flatMap (bigEndian 2) =
        UInt8.ofNat (u / 256) :: UInt8.ofNat u :: us.flatMap (bigEndian 2) := rfl
    rw [hunfold, unitsOf, hus]
    exact congrArg (fun v => some (v :: us)) hu

theorem charsOf_units (c : Char) (rest : List Nat) :
    charsOf (units c ++ rest) = (c :: ·) <$> charsOf rest := by
  have hranges := toNat_ranges c
  unfold units
  split
  · rename_i hsmall
    have hplain : c.toNat < 0xD800 ∨ 0xE000 ≤ c.toNat := by omega
    cases rest with
    | nil =>
      show (if _ then some [Char.ofNat c.toNat] else none) = some [c]
      rw [if_pos hplain, Char.ofNat_toNat]
    | cons v rest => rw [List.singleton_append, charsOf, if_pos hplain, Char.ofNat_toNat]
  · rename_i hlarge
    have hhigh : ¬ (0xD800 + (c.toNat - 0x10000) / 0x400 < 0xD800 ∨
        0xE000 ≤ 0xD800 + (c.toNat - 0x10000) / 0x400) := by omega
    have hpair : 0xD800 + (c.toNat - 0x10000) / 0x400 < 0xDC00 ∧
        0xDC00 ≤ 0xDC00 + (c.toNat - 0x10000) % 0x400 ∧
        0xDC00 + (c.toNat - 0x10000) % 0x400 < 0xE000 := by omega
    have hvalue : 0x10000 + (0xD800 + (c.toNat - 0x10000) / 0x400 - 0xD800) * 0x400 +
        (0xDC00 + (c.toNat - 0x10000) % 0x400 - 0xDC00) = c.toNat := by omega
    rw [List.cons_append, List.singleton_append, charsOf, if_neg hhigh, if_pos hpair, hvalue,
      Char.ofNat_toNat]

theorem charsOf_flatMap_units (cs : List Char) : charsOf (cs.flatMap units) = some cs := by
  induction cs with
  | nil => rfl
  | cons c cs ih => rw [List.flatMap_cons, charsOf_units, ih]; rfl

@[simp] theorem decode_encoded (s : String) : decode (encode s) = some s := by
  have hunits : unitsOf (encode s) = some (s.toList.flatMap units) := by
    refine unitsOf_bigEndian fun u hu => ?_
    obtain ⟨c, -, hc⟩ := List.mem_flatMap.mp hu
    exact units_lt hc
  have hchars : charsOf (s.toList.flatMap units) = some s.toList := charsOf_flatMap_units _
  rw [decode, hunits, Option.bind_eq_bind, Option.bind_some, hchars, Option.map_some,
    String.ofList_toList]

end Utf16
