import Mathlib

/-! Lists that are split at a separator. -/

namespace List
variable {α : Type} [DecidableEq α] {sep : α}

theorem not_mem_of_mem_splitOn {xs part : List α} (h : part ∈ xs.splitOn sep) : sep ∉ part := by
  induction xs generalizing part with
  | nil =>
    rw [splitOn_nil, mem_singleton] at h
    simp [h]
  | cons x xs ih =>
    rw [splitOn_cons_eq_if_modifyHead] at h
    split_ifs at h with hx
    · rcases mem_cons.1 h with rfl | h
      · exact not_mem_nil
      · exact ih h
    · obtain ⟨first, rest, hsplit⟩ := exists_cons_of_ne_nil (splitOn_ne_nil sep xs)
      rw [hsplit, modifyHead_cons] at h
      rw [hsplit] at ih
      rcases mem_cons.1 h with rfl | h
      · intro hmem
        rcases mem_cons.1 hmem with rfl | hmem
        · exact hx (beq_self_eq_true _)
        · exact ih mem_cons_self hmem
      · exact ih (mem_cons_of_mem _ h)

theorem splitOn_append_of_not_mem (xs : List α) {ys : List α} (h : sep ∉ ys) :
    ∃ init last, (xs ++ ys).splitOn sep = init ++ [last ++ ys] := by
  induction xs with
  | nil => exact ⟨[], [], by simpa using splitOn_eq_singleton h⟩
  | cons x xs ih =>
    obtain ⟨init, last, hsplit⟩ := ih
    rw [cons_append, splitOn_cons_eq_if_modifyHead, hsplit]
    by_cases hx : x = sep
    · exact ⟨[] :: init, last, by simp [hx]⟩
    · cases init with
      | nil => exact ⟨[], x :: last, by simp [hx]⟩
      | cons first init => exact ⟨(x :: first) :: init, last, by simp [hx]⟩

theorem splitOn_pieces {first : List α} {pieces : List (List α)} (hfirst : sep ∉ first)
    (hpieces : ∀ piece ∈ pieces, sep ∉ piece) :
    (first ++ pieces.flatMap (sep :: ·)).splitOn sep = first :: pieces := by
  induction pieces generalizing first with
  | nil =>
    rw [flatMap_nil, append_nil]
    exact splitOn_eq_singleton hfirst
  | cons piece pieces ih =>
    obtain ⟨hpiece, hrest⟩ := forall_mem_cons.mp hpieces
    rw [flatMap_cons, cons_append, splitOn_append_cons_self_of_not_mem hfirst, ih hpiece hrest]

end List
