import Acs.Omadm.WbxmlPasses

/-! `_Decoder` with its payload and offset, and what its integers read: the base-128 number up
to the byte that ends it, in at most five bytes. -/

namespace Acs.Wbxml

section Groups

def continues (b : UInt8) : Bool := b &&& 0x80 ≠ 0

/-- The number whose groups of seven bits follow those of `value`, the highest first. -/
def base128 (value : Nat) (groups : List UInt8) : Nat :=
  groups.foldl (fun value b => value * 128 + b.toNat % 128) value

theorem le_base128 (value : Nat) (groups : List UInt8) : value ≤ base128 value groups := by
  induction groups generalizing value with
  | nil => exact le_rfl
  | cons b groups ih =>
    have hstep : value ≤ value * 128 + b.toNat % 128 := by omega
    exact hstep.trans (ih _)

theorem shift_or_group (value : Nat) (b : UInt8) :
    value <<< 7 ||| (b.toNat &&& 0x7F) = value * 128 + b.toNat % 128 := by
  have hgroup : b.toNat % 128 < 2 ^ 7 := Nat.mod_lt _ (by decide)
  rw [low_group, ← Nat.shiftLeft_add_eq_or_of_lt hgroup, Nat.shiftLeft_eq]

theorem continues_eq_false {b : UInt8} : continues b = false ↔ b &&& 0x80 = 0 := by
  unfold continues
  rw [decide_eq_false_iff_not, not_not]

theorem integerFrom_nil (value left : Nat) :
    ∃ e, integerFrom value left [] = .error e := by
  cases left <;> exact ⟨_, rfl⟩

theorem integerFrom_cons (value left : Nat) (b : UInt8) (rest : List UInt8) :
    integerFrom value (left + 1) (b :: rest) =
      if maxUint32 < value * 128 + b.toNat % 128 then .error ⟨"WBXML integer exceeds uint32"⟩
      else if continues b then integerFrom (value * 128 + b.toNat % 128) left rest
      else .ok (value * 128 + b.toNat % 128, rest) := by
  rw [integerFrom, byte_cons]
  change (if _ then _ else _) = _
  rw [shift_or_group]
  refine if_congr Iff.rfl rfl ?_
  cases hb : continues b with
  | false =>
    rw [if_pos (continues_eq_false.1 hb), if_neg Bool.false_ne_true]
    rfl
  | true =>
    have hnot : ¬ b &&& 0x80 = 0 := fun h => by
      rw [continues_eq_false.2 h] at hb
      exact Bool.false_ne_true hb
    rw [if_neg hnot, if_pos rfl]

/-- The loop ends at the first byte that does not continue, if the number still fits there: the
numbers on the way are no larger. -/
theorem integerFrom_eq_ok_iff {value left v : Nat} {bytes rest : List UInt8} :
    integerFrom value left bytes = .ok (v, rest) ↔
      ∃ high last, bytes = high ++ last :: rest ∧ high.length < left ∧
        (∀ b ∈ high, continues b = true) ∧ continues last = false ∧
        base128 value (high ++ [last]) = v ∧ v ≤ maxUint32 := by
  induction left generalizing value bytes with
  | zero =>
    constructor
    · intro h
      cases h
    · rintro ⟨high, last, -, hlength, -⟩
      exact absurd hlength (Nat.not_lt_zero _)
  | succ left ih =>
    cases bytes with
    | nil =>
      obtain ⟨e, he⟩ := integerFrom_nil value (left + 1)
      rw [he]
      constructor
      · intro h
        cases h
      · rintro ⟨high, last, heq, -⟩
        exact absurd heq (by simp)
    | cons b bytes =>
      rw [integerFrom_cons]
      constructor
      · intro h
        split_ifs at h with hmax hb
        · obtain ⟨high, last, rfl, hlength, hhigh, hlast, hv, hle⟩ := ih.1 h
          refine ⟨b :: high, last, rfl, Nat.succ_lt_succ hlength, ?_, hlast, hv, hle⟩
          exact List.forall_mem_cons.2 ⟨hb, hhigh⟩
        · obtain ⟨rfl, rfl⟩ := Prod.mk.inj (Except.ok.inj h)
          exact ⟨[], b, rfl, Nat.succ_pos _, by simp, by simpa using hb, rfl, not_lt.1 hmax⟩
      · rintro ⟨high, last, heq, hlength, hhigh, hlast, hv, hle⟩
        cases high with
        | nil =>
          obtain ⟨rfl, rfl⟩ := List.cons.inj heq
          have hvalue : value * 128 + b.toNat % 128 = v := hv
          rw [hvalue, if_neg (not_lt.2 hle), hlast, if_neg Bool.false_ne_true]
        | cons first high =>
          obtain ⟨rfl, rfl⟩ := List.cons.inj heq
          obtain ⟨hb, hhigh⟩ := List.forall_mem_cons.1 hhigh
          -- the numbers on the way are no larger than the last one
          have hsmall : value * 128 + b.toNat % 128 ≤ maxUint32 :=
            (le_base128 _ (high ++ [last])).trans (hv.le.trans hle)
          rw [if_neg (not_lt.2 hsmall), if_pos hb]
          exact ih.2 ⟨high, last, rfl, Nat.lt_of_succ_lt_succ hlength, hhigh, hlast, hv, hle⟩

end Groups

structure Decoder where
  payload : List UInt8
  offset : Nat := 0
deriving DecidableEq

namespace Decoder

abbrev Outcome (α : Type) := Except WbxmlError α × Decoder

def take (length : Nat) (d : Decoder) : Outcome (List UInt8) :=
  if d.payload.length < d.offset + length then (.error ⟨"truncated WBXML input"⟩, d)
  else
    (.ok ((d.payload.drop d.offset).take length), { d with offset := d.offset + length })

def byte (d : Decoder) : Outcome UInt8 :=
  match d.take 1 with
  | (.error e, d) => (.error e, d)
  | (.ok raw, d) => (.ok (raw.headD 0), d)

def integerFrom (value : Nat) : Nat → Decoder → Outcome Nat
  | 0, d => (.error ⟨"WBXML integer exceeds five bytes"⟩, d)
  | left + 1, d =>
    match d.byte with
    | (.error e, d) => (.error e, d)
    | (.ok b, d) =>
      let value := value <<< 7 ||| (b.toNat &&& 0x7F)
      if maxUint32 < value then (.error ⟨"WBXML integer exceeds uint32"⟩, d)
      else if b &&& 0x80 = 0 then (.ok value, d)
      else integerFrom value left d

def integer (d : Decoder) : Outcome Nat :=
  integerFrom 0 maxMbUint32Bytes d

def rest (d : Decoder) : List UInt8 := d.payload.drop d.offset

def advance (d : Decoder) (read : Nat) : Decoder := { d with offset := d.offset + read }

theorem advance_advance (d : Decoder) (m n : Nat) :
    (d.advance m).advance n = d.advance (m + n) := by
  unfold advance
  rw [Nat.add_assoc]

theorem rest_advance {d : Decoder} {b : UInt8} {bytes : List UInt8} (h : d.rest = b :: bytes) :
    (d.advance 1).rest = bytes := by
  change d.payload.drop (d.offset + 1) = bytes
  rw [← List.drop_drop]
  exact congrArg (List.drop 1) h

theorem byte_of_nil {d : Decoder} (h : d.rest = []) :
    d.byte = (.error ⟨"truncated WBXML input"⟩, d) := by
  have hshort : d.payload.length < d.offset + 1 := Nat.lt_succ_of_le (List.drop_eq_nil_iff.1 h)
  unfold byte take
  rw [if_pos hshort]

theorem byte_of_cons {d : Decoder} {b : UInt8} {bytes : List UInt8} (h : d.rest = b :: bytes) :
    d.byte = (.ok b, d.advance 1) := by
  have hlong : ¬ d.payload.length < d.offset + 1 := by
    have hlength := congrArg List.length h
    rw [rest, List.length_drop, List.length_cons] at hlength
    omega
  unfold byte take
  rw [if_neg hlong, ← rest, h]
  rfl

/-- A method as a reader of the rest: the same outcome, and the offset moves past what is read,
`bound` bytes at most. -/
structure Follows {α : Type} (d : Decoder) (bound : Nat)
    (reader : Except WbxmlError (α × List UInt8)) (o : Outcome α) : Prop where
  outcome : o.1 = reader.map Prod.fst
  moved : ∃ read ≤ bound, o.2 = d.advance read
  left : ∀ {x bytes}, reader = .ok (x, bytes) →
    ∃ read, d.rest = read ++ bytes ∧ o.2 = d.advance read.length

theorem follows_integerFrom (value left : Nat) (d : Decoder) :
    Follows d left (Wbxml.integerFrom value left d.rest) (d.integerFrom value left) := by
  induction left generalizing value d with
  | zero => exact ⟨rfl, ⟨0, le_rfl, rfl⟩, fun h => by cases h⟩
  | succ left ih =>
    rw [integerFrom]
    cases hrest : d.rest with
    | nil =>
      rw [byte_of_nil hrest]
      exact ⟨rfl, ⟨0, Nat.zero_le _, rfl⟩, fun h => by cases h⟩
    | cons b bytes =>
      rw [byte_of_cons hrest, Wbxml.integerFrom, byte_cons]
      change Follows d (left + 1) (if _ then _ else _) (if _ then _ else _)
      split_ifs with hmax hb
      · exact ⟨rfl, ⟨1, Nat.le_add_left _ _, rfl⟩, fun h => by cases h⟩
      · refine ⟨rfl, ⟨1, Nat.le_add_left _ _, rfl⟩, fun h => ?_⟩
        obtain ⟨-, rfl⟩ := Prod.mk.inj (Except.ok.inj h)
        exact ⟨[b], hrest, rfl⟩
      · have h := ih (value <<< 7 ||| (b.toNat &&& 0x7F)) (d.advance 1)
        rw [rest_advance hrest] at h
        obtain ⟨read, hread, hmoved⟩ := h.moved
        refine ⟨h.outcome, ⟨1 + read, by omega, hmoved.trans (advance_advance _ _ _)⟩, ?_⟩
        intro x after hafter
        obtain ⟨read, hsplit, hend⟩ := h.left hafter
        rw [rest_advance hrest] at hsplit
        refine ⟨b :: read, by rw [hrest, hsplit, List.cons_append], ?_⟩
        rw [hend, advance_advance, List.length_cons, Nat.add_comm]

theorem follows_integer (d : Decoder) :
    Follows d maxMbUint32Bytes (Wbxml.integer d.rest) d.integer :=
  follows_integerFrom 0 maxMbUint32Bytes d

theorem integer_eq_iff (d d' : Decoder) (v : Nat) :
    d.integer = (.ok v, d') ↔
      ∃ high last bytes, d.rest = high ++ last :: bytes ∧ high.length < maxMbUint32Bytes ∧
        (∀ b ∈ high, continues b = true) ∧ continues last = false ∧
        base128 0 (high ++ [last]) = v ∧ v ≤ maxUint32 ∧ d' = d.advance (high.length + 1) := by
  have h := follows_integer d
  constructor
  · intro heq
    have hmap := h.outcome
    rw [heq] at hmap
    obtain ⟨⟨x, bytes⟩, hreader, rfl⟩ := Except.map_eq_ok.1 hmap.symm
    obtain ⟨high, last, hsplit, hlength, hhigh, hlast, hv, hle⟩ := integerFrom_eq_ok_iff.1 hreader
    refine ⟨high, last, bytes, hsplit, hlength, hhigh, hlast, hv, hle, ?_⟩
    obtain ⟨read, hread, hend⟩ := h.left hreader
    have hsame : read = high ++ [last] := by
      rw [hsplit, ← List.singleton_append, ← List.append_assoc] at hread
      exact (List.append_cancel_right hread).symm
    rw [heq, hsame, List.length_append] at hend
    exact hend
  · rintro ⟨high, last, bytes, hsplit, hlength, hhigh, hlast, hv, hle, rfl⟩
    have hreader : Wbxml.integer d.rest = .ok (v, bytes) :=
      integerFrom_eq_ok_iff.2 ⟨high, last, hsplit, hlength, hhigh, hlast, hv, hle⟩
    have hmap := h.outcome
    rw [hreader] at hmap
    obtain ⟨read, hread, hend⟩ := h.left hreader
    have hsame : read = high ++ [last] := by
      rw [hsplit, ← List.singleton_append, ← List.append_assoc] at hread
      exact (List.append_cancel_right hread).symm
    rw [hsame, List.length_append] at hend
    exact Prod.ext hmap hend

end Decoder
open Decoder

/-- What `_mb_uint32` writes is read back between any two texts, and any bytes are read as the
number their first five end in, or refused. -/
theorem integers_exact :
    (∀ v : Nat, v ≤ maxUint32 → ∀ front suffix : List UInt8, ∃ bytes, mbUint32 v = .ok bytes ∧
      (Decoder.mk (front ++ bytes ++ suffix) front.length).integer =
        (.ok v, ⟨front ++ bytes ++ suffix, (front ++ bytes).length⟩)) ∧
    (∀ (d d' : Decoder) (v : Nat), d.integer = (.ok v, d') ↔
      ∃ high last bytes, d.rest = high ++ last :: bytes ∧ high.length < 5 ∧
        (∀ b ∈ high, continues b = true) ∧ continues last = false ∧
        base128 0 (high ++ [last]) = v ∧ v ≤ 2 ^ 32 - 1 ∧ d' = d.advance (high.length + 1)) ∧
    (∀ d : Decoder, ∃ read ≤ 5, d.integer.2 = d.advance read) := by
  refine ⟨fun v hv front suffix => ?_, integer_eq_iff, fun d => (follows_integer d).moved⟩
  obtain ⟨bytes, hbytes⟩ : ∃ bytes, mbUint32 v = .ok bytes :=
    ⟨_, if_pos ⟨Int.natCast_nonneg v, Int.ofNat_le.2 hv⟩⟩
  refine ⟨bytes, hbytes, ?_⟩
  have hrest : (Decoder.mk (front ++ bytes ++ suffix) front.length).rest = bytes ++ suffix := by
    change (front ++ bytes ++ suffix).drop front.length = bytes ++ suffix
    rw [List.append_assoc, List.drop_left]
  have hreader := integer_mbUint32 hbytes suffix
  rw [← hrest] at hreader
  have h := follows_integer (Decoder.mk (front ++ bytes ++ suffix) front.length)
  have hmap := h.outcome
  rw [hreader] at hmap
  obtain ⟨read, hread, hend⟩ := h.left hreader
  have hsame : read = bytes := List.append_cancel_right (hread.symm.trans hrest)
  rw [hsame] at hend
  refine Prod.ext hmap (hend.trans ?_)
  unfold Decoder.advance
  rw [List.length_append]

end Acs.Wbxml
