import Acs.Interleave.Exec

/-! Two runs side by side: what holds between their results and their states. -/

namespace Interleave
variable {Op : Type} {Answer : Op → Type} {ε α β α' β' σ : Type}

/-- Run alone from two states, two programs end in related results and related states. -/
def Coupled (exec : (op : Op) → σ → Answer op × σ) (I : σ → σ → Prop) (p : Program Op Answer α)
    (q : Program Op Answer β) (s t : σ) (Q : α → β → Prop) : Prop :=
  Q (p.eval exec s).1 (q.eval exec t).1 ∧ I (p.eval exec s).2 (q.eval exec t).2

/-- The same exception, or related values. -/
inductive Agreed (Q : α → β → Prop) : Except ε α → Except ε β → Prop
  | error (e : ε) : Agreed Q (.error e) (.error e)
  | ok {a : α} {b : β} : Q a b → Agreed Q (.ok a) (.ok b)

theorem Agreed.eq {r r' : Except ε α} (h : Agreed (fun a b => a = b) r r') : r = r' := by
  cases h with
  | error e => rfl
  | ok h => rw [h]

namespace Coupled
variable {exec : (op : Op) → σ → Answer op × σ} {I : σ → σ → Prop} {s t : σ}

theorem mono {p : Program Op Answer α} {q : Program Op Answer β} {Q Q' : α → β → Prop}
    (h : Coupled exec I p q s t Q) (hQ : ∀ a b, Q a b → Q' a b) : Coupled exec I p q s t Q' :=
  ⟨hQ _ _ h.1, h.2⟩

theorem bind_to {x : Fallible Op Answer ε α} {y : Fallible Op Answer ε β}
    {f : α → Fallible Op Answer ε α'} {g : β → Fallible Op Answer ε β'} {Q : α → β → Prop}
    {P : Except ε α' × σ → Except ε β' × σ → Prop}
    (h : Coupled exec I x.run y.run s t (Agreed Q))
    (herror : ∀ e s' t', I s' t' → P (.error e, s') (.error e, t'))
    (hf : ∀ a b s' t', Q a b → I s' t' →
      P ((f a).run.eval exec s') ((g b).run.eval exec t')) :
    P ((x >>= f).run.eval exec s) ((y >>= g).run.eval exec t) := by
  obtain ⟨hQ, hI⟩ := h
  rw [ExceptT.run_bind, ExceptT.run_bind, Program.eval_bind, Program.eval_bind]
  generalize (x.run.eval exec s) = xs at *
  generalize (y.run.eval exec t) = yt at *
  obtain ⟨r, s'⟩ := xs
  obtain ⟨r', t'⟩ := yt
  cases hQ with
  | error e => exact herror e s' t' hI
  | ok hQ => exact hf _ _ s' t' hQ hI

theorem bind {p : Program Op Answer α} {q : Program Op Answer β} {f : α → Program Op Answer α'}
    {g : β → Program Op Answer β'} {Q : α → β → Prop} {Q' : α' → β' → Prop}
    (h : Coupled exec I p q s t Q)
    (hf : ∀ a b s' t', Q a b → I s' t' → Coupled exec I (f a) (g b) s' t' Q') :
    Coupled exec I (p >>= f) (q >>= g) s t Q' := by
  unfold Coupled
  rw [Program.eval_bind, Program.eval_bind]
  exact hf _ _ _ _ h.1 h.2

/-- Where one side raises the other does; otherwise both go on. -/
theorem bind_fallible {x : Fallible Op Answer ε α} {y : Fallible Op Answer ε β}
    {f : α → Fallible Op Answer ε α'} {g : β → Fallible Op Answer ε β'} {Q : α → β → Prop}
    {Q' : α' → β' → Prop} (h : Coupled exec I x.run y.run s t (Agreed Q))
    (hf : ∀ a b s' t', Q a b → I s' t' →
      Coupled exec I (f a).run (g b).run s' t' (Agreed Q')) :
    Coupled exec I (x >>= f).run (y >>= g).run s t (Agreed Q') := by
  rw [ExceptT.run_bind, ExceptT.run_bind]
  apply bind h
  intro a b s' t' hQ hI
  cases hQ with
  | error e => exact ⟨.error e, hI⟩
  | ok hQ => exact hf _ _ _ _ hQ hI

theorem pure_fallible {a : α} {b : β} {Q : α → β → Prop} (hQ : Q a b) (hI : I s t) :
    Coupled exec I (pure a : Fallible Op Answer ε α).run (pure b : Fallible Op Answer ε β).run s t
      (Agreed Q) := ⟨.ok hQ, hI⟩

end Coupled
end Interleave
