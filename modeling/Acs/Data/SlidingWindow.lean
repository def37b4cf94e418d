import Mathlib

/-! A limiter that keeps a log of admitted times, forgets those older than a window, and admits
while the log is shorter than a cap. -/

namespace SlidingWindow
variable {width cap : Int} {log log₀ ts : List Int} {now : Int}

def recent (width : Int) (log : List Int) (now : Int) : List Int := log.filter (· ≥ now - width)

/-- Times admitted in order from a log, and the log they leave. -/
inductive Admitted (width cap : Int) (log₀ : List Int) : List Int → List Int → Prop
  | nil : Admitted width cap log₀ [] log₀
  | snoc {ts log : List Int} {now : Int} : Admitted width cap log₀ ts log →
      ((recent width log now).length : Int) < cap → (∀ t ∈ ts, t ≤ now) →
      Admitted width cap log₀ (ts ++ [now]) (recent width log now ++ [now])

theorem countP_recent {p : Int → Bool} (hp : ∀ t, p t → now - width ≤ t) :
    (recent width log now).countP p = log.countP p := by
  rw [recent, List.countP_filter]
  refine List.countP_congr fun t _ => ?_
  simpa using hp t

theorem Admitted.countP_le (h : Admitted width cap log₀ ts log) {last : Int}
    (hlast : ∀ t ∈ ts, t ≤ last) :
    ts.countP (· ≥ last - width) ≤ log.countP (· ≥ last - width) := by
  induction h with
  | nil => simp
  | @snoc ts log now _ _ hle ih =>
    have hnow : now ≤ last := hlast now (by simp)
    have hrecent : (recent width log now).countP (· ≥ last - width) =
        log.countP (· ≥ last - width) := countP_recent fun t ht => by
      have := of_decide_eq_true ht
      omega
    rw [List.countP_append, List.countP_append, hrecent]
    exact Nat.add_le_add_right (ih fun t ht => hlast t (List.mem_append_left _ ht)) _

/-- No window has more admitted times than the cap. -/
theorem Admitted.window_le (h : Admitted width cap log₀ ts log) (a : Int) :
    (ts.countP fun t => a ≤ t && t ≤ a + width) ≤ cap.toNat := by
  induction h with
  | nil => simp
  | @snoc ts log now hadm hlen hle ih =>
    rw [List.countP_append, List.countP_singleton]
    by_cases hin : a ≤ now ∧ now ≤ a + width
    · have hwindow : (ts.countP fun t => a ≤ t && t ≤ a + width) ≤ ts.countP (· ≥ now - width) :=
        List.countP_mono_left fun t _ ht => by
          simp only [Bool.and_eq_true, decide_eq_true_eq] at ht
          exact decide_eq_true (by omega)
      have hlog : log.countP (· ≥ now - width) = (recent width log now).length :=
        List.countP_eq_length_filter
      have := hadm.countP_le hle
      split_ifs <;> omega
    · rw [if_neg (by simpa using hin)]
      exact ih

end SlidingWindow
