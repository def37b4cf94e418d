import Acs.Interleave.Program

/-! Executions of a program against a relation: what an operation may answer, and the state it may
leave. Programs that can fail end in an `Except`. -/

namespace Interleave
variable {Op : Type} {Answer : Op → Type} {ε α β σ : Type}

/-- `R op s ans s'`: from `s` the operation may answer `ans` and leave `s'`. -/
abbrev Effect (Op : Type) (Answer : Op → Type) (σ : Type) := (op : Op) → σ → Answer op → σ → Prop

inductive Exec (R : Effect Op Answer σ) :
    Program Op Answer α → σ → List (Event Answer) → α → σ → Prop
  | result (a : α) (s : σ) : Exec R (.result a) s [] a s
  | call {op : Op} {next : Answer op → Program Op Answer α} {s s' s'' : σ} {ans : Answer op}
      {tr : List (Event Answer)} {a : α} : R op s ans s' → Exec R (next ans) s' tr a s'' →
      Exec R (.call op next) s (⟨op, ans⟩ :: tr) a s''

namespace Exec
variable {R : Effect Op Answer σ} {s s' s'' : σ} {tr : List (Event Answer)}

@[simp] theorem result_iff {a b : α} :
    Exec R (.result a : Program Op Answer α) s tr b s' ↔ tr = [] ∧ b = a ∧ s' = s := by
  constructor
  · intro h
    cases h
    exact ⟨rfl, rfl, rfl⟩
  · rintro ⟨rfl, rfl, rfl⟩
    exact .result _ _

theorem call_iff {op : Op} {next : Answer op → Program Op Answer α} {a : α} :
    Exec R (.call op next) s tr a s'' ↔
      ∃ ans s' tr', R op s ans s' ∧ Exec R (next ans) s' tr' a s'' ∧ tr = ⟨op, ans⟩ :: tr' := by
  constructor
  · intro h
    cases h with
    | call hR h => exact ⟨_, _, _, hR, h, rfl⟩
  · rintro ⟨ans, s', tr', hR, h, rfl⟩
    exact .call hR h

theorem bind_iff {p : Program Op Answer α} {f : α → Program Op Answer β} {b : β} :
    Exec R (p >>= f) s tr b s'' ↔
      ∃ a s' tr₁ tr₂, Exec R p s tr₁ a s' ∧ Exec R (f a) s' tr₂ b s'' ∧ tr = tr₁ ++ tr₂ := by
  induction p generalizing s tr with
  | result a =>
    simp only [Program.result_bind, result_iff]
    constructor
    · exact fun h => ⟨a, s, [], tr, ⟨rfl, rfl, rfl⟩, h, rfl⟩
    · rintro ⟨_, _, _, tr₂, ⟨rfl, rfl, rfl⟩, h, rfl⟩
      exact h
  | call op next ih =>
    simp only [Program.call_bind, call_iff, ih]
    constructor
    · rintro ⟨ans, s₁, _, hR, ⟨a, s', tr₁, tr₂, h₁, h₂, rfl⟩, rfl⟩
      exact ⟨a, s', _, tr₂, ⟨ans, s₁, tr₁, hR, h₁, rfl⟩, h₂, rfl⟩
    · rintro ⟨a, s', _, tr₂, ⟨ans, s₁, tr₁, hR, h₁, rfl⟩, h₂, rfl⟩
      exact ⟨ans, s₁, _, hR, ⟨a, s', tr₁, tr₂, h₁, h₂, rfl⟩, rfl⟩

theorem perform_iff {op : Op} {ans : Answer op} :
    Exec R (Program.perform op) s tr ans s' ↔ R op s ans s' ∧ tr = [⟨op, ans⟩] := by
  unfold Program.perform
  rw [call_iff]
  constructor
  · rintro ⟨ans', s₁, tr', hR, h, rfl⟩
    obtain ⟨rfl, rfl, rfl⟩ := result_iff.mp h
    exact ⟨hR, rfl⟩
  · rintro ⟨hR, rfl⟩
    exact ⟨ans, s', [], hR, .result _ _, rfl⟩

/-- A run of the evaluator, seen through `view`, is an execution of every effect that allows its
steps. -/
theorem of_eval {τ : Type} {exec : (op : Op) → τ → Answer op × τ} (view : τ → σ)
    (hR : ∀ op t, R op (view t) (exec op t).1 (view (exec op t).2)) (p : Program Op Answer α)
    (t : τ) : ∃ tr, Exec R p (view t) tr (p.eval exec t).1 (view (p.eval exec t).2) := by
  induction p generalizing t with
  | result a => exact ⟨[], .result a _⟩
  | call op next ih =>
    obtain ⟨tr, h⟩ := ih (exec op t).1 (exec op t).2
    exact ⟨_, .call (hR op t) h⟩

theorem invariant {P : σ → Prop} (hR : ∀ op s ans s', R op s ans s' → P s → P s')
    {p : Program Op Answer α} {a : α} (h : Exec R p s tr a s') (hs : P s) : P s' := by
  induction h with
  | result => exact hs
  | call hop _ ih => exact ih (hR _ _ _ _ hop hs)

end Exec

abbrev Fallible (Op : Type) (Answer : Op → Type) (ε : Type) := ExceptT ε (Program Op Answer)

namespace Exec
variable {R : Effect Op Answer σ} {s s' s'' : σ} {tr : List (Event Answer)}
  {x : Fallible Op Answer ε α} {f : α → Fallible Op Answer ε β}

theorem bind_cases {r : Except ε β} (h : Exec R (x >>= f).run s tr r s'') :
    (∃ e, Exec R x.run s tr (.error e) s'' ∧ r = .error e) ∨
      ∃ a s' tr₁ tr₂, Exec R x.run s tr₁ (.ok a) s' ∧ Exec R (f a).run s' tr₂ r s'' ∧
        tr = tr₁ ++ tr₂ := by
  rw [ExceptT.run_bind, bind_iff] at h
  obtain ⟨ans, s', tr₁, tr₂, h₁, h₂, rfl⟩ := h
  cases ans with
  | error e =>
    obtain ⟨rfl, rfl, rfl⟩ := result_iff.mp h₂
    rw [List.append_nil]
    exact Or.inl ⟨e, h₁, rfl⟩
  | ok a => exact Or.inr ⟨a, s', tr₁, tr₂, h₁, h₂, rfl⟩

@[simp] theorem pure_iff {a : α} {r : Except ε α} :
    Exec R (pure a : Fallible Op Answer ε α).run s tr r s' ↔ tr = [] ∧ r = .ok a ∧ s' = s := by
  rw [ExceptT.run_pure]
  exact result_iff

@[simp] theorem throw_iff {e : ε} {r : Except ε α} :
    Exec R (throw e : Fallible Op Answer ε α).run s tr r s' ↔
      tr = [] ∧ r = .error e ∧ s' = s := by
  rw [ExceptT.run_throw]
  exact result_iff

end Exec

/-- From a state of the invariant every execution keeps it, performs only operations that satisfy
`Q`, and returns only what satisfies `P`. -/
def Keeps (R : Effect Op Answer σ) (I : σ → Prop) (Q : Op → Prop) (x : Fallible Op Answer ε α)
    (P : α → Prop) : Prop :=
  ∀ s tr r s', I s → Exec R x.run s tr r s' →
    I s' ∧ (∀ e ∈ tr, Q e.1) ∧ ∀ a, r = .ok a → P a

section Keeps
variable {R : Effect Op Answer σ} {I : σ → Prop} {Q : Op → Prop} {x : Fallible Op Answer ε α}
  {P : α → Prop}

theorem Keeps.bind {f : α → Fallible Op Answer ε β} {P' : β → Prop} (hx : Keeps R I Q x P)
    (hf : ∀ a, P a → Keeps R I Q (f a) P') : Keeps R I Q (x >>= f) P' := by
  intro s tr r s' hs h
  rcases Exec.bind_cases h with ⟨e, hexec, rfl⟩ | ⟨a, s₁, tr₁, tr₂, hexec, hrest, rfl⟩
  · obtain ⟨hs', hops, -⟩ := hx _ _ _ _ hs hexec
    exact ⟨hs', hops, fun _ hr => by cases hr⟩
  · obtain ⟨hs₁, hops₁, ha⟩ := hx _ _ _ _ hs hexec
    obtain ⟨hs', hops₂, hb⟩ := hf a (ha a rfl) _ _ _ _ hs₁ hrest
    exact ⟨hs', List.forall_mem_append.mpr ⟨hops₁, hops₂⟩, hb⟩

theorem Keeps.result {r : Except ε α} (h : ∀ a, r = .ok a → P a) :
    Keeps R I Q (ExceptT.mk (.result r)) P := by
  intro s tr r' s' hs hexec
  obtain ⟨rfl, rfl, rfl⟩ := Exec.result_iff.mp hexec
  exact ⟨hs, fun e he => absurd he List.not_mem_nil, h⟩

theorem Keeps.pure {a : α} (h : P a) : Keeps R I Q (Pure.pure a : Fallible Op Answer ε α) P :=
  Keeps.result fun _ ha => Except.ok.inj ha ▸ h

theorem Keeps.of_uses {U : Op → Prop} (hx : x.run.Uses U)
    (hU : ∀ op, U op → Q op ∧ ∀ s ans s', I s → R op s ans s' → I s') :
    Keeps R I Q x fun _ => True := by
  intro s tr r s' hs h
  have hkept : I s' ∧ ∀ e ∈ tr, Q e.1 := by
    generalize x.run = p at hx h
    induction h with
    | result => exact ⟨hs, fun e he => absurd he List.not_mem_nil⟩
    | call hop _ ih =>
      obtain ⟨hs', hops⟩ := ih ((hU _ hx.1).2 _ _ _ hs hop) (hx.2 _)
      exact ⟨hs', List.forall_mem_cons.mpr ⟨(hU _ hx.1).1, hops⟩⟩
  exact ⟨hkept.1, hkept.2, fun _ _ => trivial⟩

end Keeps
end Interleave
