import Mathlib

/-! Text as UTF-8 bytes. -/

def utf8 (s : String) : List UInt8 := s.toList.flatMap String.utf8EncodeChar

def fromUtf8 (raw : List UInt8) : Option String := String.fromUTF8? raw.toByteArray

@[simp] theorem fromUtf8_utf8 (s : String) : fromUtf8 (utf8 s) = some s := by
  have hbytes : (utf8 s).toByteArray = s.toByteArray := by
    rw [← String.ofList_toList (s := s), String.toByteArray_ofList, String.ofList_toList]
    rfl
  unfold fromUtf8
  rw [hbytes]
  exact dif_pos s.isValidUTF8

@[simp] theorem utf8_append (s t : String) : utf8 (s ++ t) = utf8 s ++ utf8 t := by
  unfold utf8
  rw [String.toList_append, List.flatMap_append]

theorem zero_notMem_utf8EncodeChar {c : Char} (h : c ≠ '\x00') : 0 ∉ String.utf8EncodeChar c := by
  have hpos : 0 < c.val.toNat := by
    have hval : c.val.toNat ≠ 0 := fun hzero => h (Char.ext (UInt32.toNat_inj.mp hzero))
    omega
  -- every byte is a small number that is not zero
  have hbyte : ∀ n, 0 < n → n < 256 → 0 ≠ UInt8.ofNat n := by
    intro n hn hlt heq
    have hnat := congrArg UInt8.toNat heq
    rw [UInt8.toNat_ofNat', Nat.mod_eq_of_lt hlt] at hnat
    exact absurd hnat.symm (Nat.pos_iff_ne_zero.mp hn)
  dsimp only [String.utf8EncodeChar]
  split_ifs with h1 h2 h3 <;>
    simp only [List.mem_cons, List.not_mem_nil, or_false, not_or]
  · exact hbyte _ hpos (by omega)
  · exact ⟨hbyte _ (by omega) (by omega), hbyte _ (by omega) (by omega)⟩
  · exact ⟨hbyte _ (by omega) (by omega), hbyte _ (by omega) (by omega),
      hbyte _ (by omega) (by omega)⟩
  · exact ⟨hbyte _ (by omega) (by omega), hbyte _ (by omega) (by omega),
      hbyte _ (by omega) (by omega), hbyte _ (by omega) (by omega)⟩

theorem zero_notMem_utf8 {s : String} (h : '\x00' ∉ s.toList) : 0 ∉ utf8 s := by
  intro hmem
  obtain ⟨c, hc, hmem⟩ := List.mem_flatMap.mp hmem
  exact zero_notMem_utf8EncodeChar (fun heq => h (heq ▸ hc)) hmem
