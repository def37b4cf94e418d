import Mathlib

/-! Runs of a step function over a list of inputs, handled one after another. -/

namespace Runs
variable {σ ι : Type} (step : σ → ι → σ)

def Always (P : σ → Prop) : σ → List ι → Prop
  | s, [] => P s
  | s, i :: inputs => P s ∧ Always P (step s i) inputs

def EachStep (C : σ → ι → Prop) : σ → List ι → Prop
  | _, [] => True
  | s, i :: inputs => C s i ∧ EachStep C (step s i) inputs

variable {step} {P I : σ → Prop} {C : σ → ι → Prop}

theorem Always.head {s : σ} {inputs : List ι} (h : Always step P s inputs) : P s := by
  cases inputs with
  | nil => exact h
  | cons i inputs => exact h.1

theorem EachStep.of_invariant {D : σ → ι → Prop} (hstep : ∀ s i, I s → C s i → I (step s i) ∧ D s i)
    {s : σ} (hs : I s) {inputs : List ι} (h : EachStep step C s inputs) :
    EachStep step D s inputs := by
  induction inputs generalizing s with
  | nil => trivial
  | cons i inputs ih =>
    obtain ⟨hnext, hd⟩ := hstep s i hs h.1
    exact ⟨hd, ih hnext h.2⟩

/-- The steps a run takes decide whether `P` holds throughout, if from a state of the invariant
the states that satisfy `P` are those that a step with `C` reaches. -/
theorem always_iff_eachStep (hgood : ∀ s, I s → P s) (hstep : ∀ s i, I s → C s i → I (step s i))
    (hneeds : ∀ s i, I s → P (step s i) → C s i) {s : σ} (hs : I s) (inputs : List ι) :
    Always step P s inputs ↔ EachStep step C s inputs := by
  induction inputs generalizing s with
  | nil => exact ⟨fun _ => trivial, fun _ => hgood s hs⟩
  | cons i inputs ih =>
    constructor
    · rintro ⟨-, hrest⟩
      have hc : C s i := hneeds s i hs hrest.head
      exact ⟨hc, (ih (hstep s i hs hc)).mp hrest⟩
    · rintro ⟨hc, hrest⟩
      exact ⟨hgood s hs, (ih (hstep s i hs hc)).mpr hrest⟩

end Runs
