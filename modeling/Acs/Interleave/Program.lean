import Mathlib

/-! Programs whose only effects are atomic operations on a state they may share.
A program knows of the state only what its operations answered. -/

namespace Interleave

/-- A result, or one operation and what to do with its answer. -/
inductive Program (Op : Type) (Answer : Op → Type) (α : Type) : Type where
  | result (a : α)
  | call (op : Op) (next : Answer op → Program Op Answer α)

abbrev Event {Op : Type} (Answer : Op → Type) := (op : Op) × Answer op

namespace Program
variable {Op Op' : Type} {Answer : Op → Type} {Answer' : Op' → Type} {α β σ : Type}

def bind : Program Op Answer α → (α → Program Op Answer β) → Program Op Answer β
  | .result a, f => f a
  | .call op next, f => .call op fun ans => (next ans).bind f

instance : Monad (Program Op Answer) where
  pure := .result
  bind := .bind

def perform (op : Op) : Program Op Answer (Answer op) := .call op .result

@[simp] theorem pure_eq (a : α) : (pure a : Program Op Answer α) = .result a := rfl

@[simp] theorem result_bind (a : α) (f : α → Program Op Answer β) :
    (Program.result a >>= f) = f a := rfl

@[simp] theorem call_bind (op : Op) (next : Answer op → Program Op Answer α)
    (f : α → Program Op Answer β) :
    (Program.call op next >>= f) = .call op fun ans => next ans >>= f := rfl

@[simp] theorem perform_bind (op : Op) (f : Answer op → Program Op Answer β) :
    (perform op >>= f) = .call op f := rfl

theorem bind_assoc {γ : Type} (p : Program Op Answer α) (f : α → Program Op Answer β)
    (g : β → Program Op Answer γ) : (p >>= f) >>= g = p >>= fun a => f a >>= g := by
  induction p with
  | result a => rfl
  | call op next ih => exact congrArg _ (funext ih)

def interpret (impl : (op : Op) → Program Op' Answer' (Answer op)) :
    Program Op Answer α → Program Op' Answer' α
  | .result a => .result a
  | .call op next => impl op >>= fun ans => (next ans).interpret impl

def eval (exec : (op : Op) → σ → Answer op × σ) : Program Op Answer α → σ → α × σ
  | .result a, s => (a, s)
  | .call op next, s => (next (exec op s).1).eval exec (exec op s).2

variable {exec : (op : Op) → σ → Answer op × σ}

@[simp] theorem eval_result (a : α) (s : σ) :
    (Program.result a : Program Op Answer α).eval exec s = (a, s) := rfl

@[simp] theorem eval_call (op : Op) (next : Answer op → Program Op Answer α) (s : σ) :
    (Program.call op next).eval exec s = (next (exec op s).1).eval exec (exec op s).2 := rfl

theorem eval_bind (p : Program Op Answer α) (f : α → Program Op Answer β) (s : σ) :
    (p >>= f).eval exec s = (f (p.eval exec s).1).eval exec (p.eval exec s).2 := by
  induction p generalizing s with
  | result a => rfl
  | call op next ih => exact ih _ _

def events (exec : (op : Op) → σ → Answer op × σ) : Program Op Answer α → σ → List (Event Answer)
  | .result _, _ => []
  | .call op next, s => ⟨op, (exec op s).1⟩ :: (next (exec op s).1).events exec (exec op s).2

@[simp] theorem events_result (a : α) (s : σ) :
    (Program.result a : Program Op Answer α).events exec s = [] := rfl

@[simp] theorem events_call (op : Op) (next : Answer op → Program Op Answer α) (s : σ) :
    (Program.call op next).events exec s =
      ⟨op, (exec op s).1⟩ :: (next (exec op s).1).events exec (exec op s).2 := rfl

theorem events_bind (p : Program Op Answer α) (f : α → Program Op Answer β) (s : σ) :
    (p >>= f).events exec s =
      p.events exec s ++ (f (p.eval exec s).1).events exec (p.eval exec s).2 := by
  induction p generalizing s with
  | result a => rfl
  | call op next ih =>
    rw [call_bind, events_call, events_call, eval_call, ih, List.cons_append]

theorem eval_invariant {P : σ → Prop} (hexec : ∀ op s, P s → P (exec op s).2) (p : Program Op Answer α)
    {s : σ} (hs : P s) : P (p.eval exec s).2 := by
  induction p generalizing s with
  | result a => exact hs
  | call op next ih => exact ih _ (hexec op s hs)

/-- Run alone, the program performs each operation in a state that admits it. -/
def Along (exec : (op : Op) → σ → Answer op × σ) (Q : σ → Op → Prop) : Program Op Answer α → σ → Prop
  | .result _, _ => True
  | .call op next, s => Q s op ∧ (next (exec op s).1).Along exec Q (exec op s).2

section Along
variable {Q : σ → Op → Prop}

theorem along_bind (p : Program Op Answer α) (f : α → Program Op Answer β) (s : σ) :
    (p >>= f).Along exec Q s ↔
      p.Along exec Q s ∧ (f (p.eval exec s).1).Along exec Q (p.eval exec s).2 := by
  induction p generalizing s with
  | result a => exact (iff_of_eq (true_and _)).symm
  | call op next ih =>
    rw [call_bind, Along, Along, ih, eval_call, and_assoc]

theorem Along.invariant {P : σ → Prop} (hexec : ∀ op s, Q s op → P s → P (exec op s).2)
    {p : Program Op Answer α} {s : σ} (hp : p.Along exec Q s) (hs : P s) : P (p.eval exec s).2 := by
  induction p generalizing s with
  | result a => exact hs
  | call op next ih => exact ih _ hp.2 (hexec op s hp.1 hs)

theorem Along.mono {Q' : σ → Op → Prop} (hQ : ∀ s op, Q s op → Q' s op)
    {p : Program Op Answer α} {s : σ} (hp : p.Along exec Q s) : p.Along exec Q' s := by
  induction p generalizing s with
  | result a => trivial
  | call op next ih => exact ⟨hQ s op hp.1, ih _ hp.2⟩

theorem Along.events {P : σ → Prop} (hexec : ∀ op s, Q s op → P s → P (exec op s).2)
    {p : Program Op Answer α} {s : σ} (hp : p.Along exec Q s) (hs : P s) :
    ∀ e ∈ p.events exec s, ∃ s', P s' ∧ Q s' e.1 := by
  induction p generalizing s with
  | result a => exact fun e he => nomatch he
  | call op next ih =>
    intro e he
    rcases List.mem_cons.mp he with rfl | he
    · exact ⟨s, hs, hp.1⟩
    · exact ih _ hp.2 (hexec op s hp.1 hs) e he

end Along

def attempt {ε : Type} (exec : (op : Op) → σ → Except ε (Answer op × σ)) :
    Program Op Answer α → σ → Except ε (α × σ)
  | .result a, s => .ok (a, s)
  | .call op next, s => do
    let r ← exec op s
    (next r.1).attempt exec r.2

section Attempt
variable {τ ε : Type} {R : τ → σ → Prop} {raising : (op : Op) → τ → Except ε (Answer op × τ)}

/-- Operations that raise or do what others do make programs that raise or do what others do. -/
theorem attempt_refines (hexec : ∀ op t s r, R t s → raising op t = .ok r →
      r.1 = (exec op s).1 ∧ R r.2 (exec op s).2)
    {p : Program Op Answer α} {t : τ} {s : σ} (hR : R t s) {r : α × τ}
    (h : p.attempt raising t = .ok r) : r.1 = (p.eval exec s).1 ∧ R r.2 (p.eval exec s).2 := by
  induction p generalizing t s with
  | result a =>
    cases h
    exact ⟨rfl, hR⟩
  | call op next ih =>
    cases hop : raising op t with
    | error e =>
      rw [attempt, hop] at h
      cases h
    | ok answered =>
      rw [attempt, hop] at h
      obtain ⟨hanswer, hR'⟩ := hexec op t s answered hR hop
      have hnext := ih answered.1 hR' h
      rw [hanswer] at hnext
      exact hnext

theorem attempt_ok {Q : σ → Op → Prop} (hexec : ∀ op t s, R t s → Q s op → ∃ r,
      raising op t = .ok r ∧ r.1 = (exec op s).1 ∧ R r.2 (exec op s).2)
    {p : Program Op Answer α} {t : τ} {s : σ} (hR : R t s) (hp : p.Along exec Q s) :
    ∃ r, p.attempt raising t = .ok r := by
  induction p generalizing t s with
  | result a => exact ⟨_, rfl⟩
  | call op next ih =>
    obtain ⟨⟨answer, t'⟩, hop, rfl, hR'⟩ := hexec op t s hR hp.1
    obtain ⟨r, hr⟩ := ih _ hR' hp.2
    refine ⟨r, ?_⟩
    rw [attempt, hop]
    exact hr

end Attempt

/-- Whatever the answers, the program only issues operations its guard allows after
the events seen so far, and ends in a result its postcondition allows. -/
def Obeys (guard : List (Event Answer) → Op → Prop) (post : List (Event Answer) → α → Prop) :
    Program Op Answer α → List (Event Answer) → Prop
  | .result a, h => post h a
  | .call op next, h => guard h op ∧ ∀ ans, (next ans).Obeys guard post (h ++ [⟨op, ans⟩])

section Obeys
variable {guard guard' : List (Event Answer) → Op → Prop}
  {post post' : List (Event Answer) → α → Prop} {h : List (Event Answer)}

@[simp] theorem obeys_result (a : α) :
    (Program.result a : Program Op Answer α).Obeys guard post h ↔ post h a := Iff.rfl

@[simp] theorem obeys_call (op : Op) (next : Answer op → Program Op Answer α) :
    (Program.call op next).Obeys guard post h ↔
      guard h op ∧ ∀ ans, (next ans).Obeys guard post (h ++ [⟨op, ans⟩]) := Iff.rfl

theorem Obeys.bind {p : Program Op Answer α} {f : α → Program Op Answer β}
    {post : List (Event Answer) → β → Prop}
    (hp : p.Obeys guard (fun h' a => (f a).Obeys guard post h') h) :
    (p >>= f).Obeys guard post h := by
  induction p generalizing h with
  | result a => exact hp
  | call op next ih => exact ⟨hp.1, fun ans => ih ans (hp.2 ans)⟩

theorem Obeys.mono {p : Program Op Answer α} (hp : p.Obeys guard post h)
    (hg : ∀ h op, guard h op → guard' h op) (hq : ∀ h a, post h a → post' h a) :
    p.Obeys guard' post' h := by
  induction p generalizing h with
  | result a => exact hq _ _ hp
  | call op next ih => exact ⟨hg _ _ hp.1, fun ans => ih ans (hp.2 ans)⟩

theorem Obeys.and {p : Program Op Answer α} (hp : p.Obeys guard post h)
    (hp' : p.Obeys guard' post' h) :
    p.Obeys (fun h op => guard h op ∧ guard' h op) (fun h a => post h a ∧ post' h a) h := by
  induction p generalizing h with
  | result a => exact ⟨hp, hp'⟩
  | call op next ih => exact ⟨⟨hp.1, hp'.1⟩, fun ans => ih ans (hp.2 ans) (hp'.2 ans)⟩

theorem obeys_trivial (p : Program Op Answer α) (h : List (Event Answer)) :
    p.Obeys (fun _ _ => True) (fun _ _ => True) h := by
  induction p generalizing h with
  | result a => trivial
  | call op next ih => exact ⟨trivial, fun ans => ih ans _⟩

def Uses (Q : Op → Prop) : Program Op Answer α → Prop
  | .result _ => True
  | .call op next => Q op ∧ ∀ ans, (next ans).Uses Q

theorem Uses.bind {Q : Op → Prop} {p : Program Op Answer α} {f : α → Program Op Answer β}
    (hp : p.Uses Q) (hf : ∀ a, (f a).Uses Q) : (p >>= f).Uses Q := by
  induction p with
  | result a => exact hf a
  | call op next ih => exact ⟨hp.1, fun ans => ih ans (hp.2 ans)⟩

/-- A program whose operations are always allowed may run first: what comes after it need only obey
after any further events of such operations. -/
theorem Uses.obeys_bind {Q : Op → Prop} {p : Program Op Answer α} {f : α → Program Op Answer β}
    {post : List (Event Answer) → β → Prop} (hp : p.Uses Q) (hguard : ∀ h op, Q op → guard h op)
    (hf : ∀ es a, (∀ e ∈ es, Q e.1) → (f a).Obeys guard post (h ++ es)) :
    (p >>= f).Obeys guard post h := by
  induction p generalizing h with
  | result a => simpa using hf [] a (by simp)
  | call op next ih =>
    refine ⟨hguard h op hp.1, fun ans => ih ans (hp.2 ans) fun es a hes => ?_⟩
    have hcons : h ++ [⟨op, ans⟩] ++ es = h ++ (⟨op, ans⟩ :: es) := by simp
    rw [hcons]
    exact hf _ a (List.forall_mem_cons.mpr ⟨hp.1, hes⟩)

/-- Obedience through an implementation: `R` relates the events of a program to those of the
operations that implement it. -/
theorem Obeys.interpret {R : List (Event Answer) → List (Event Answer') → Prop}
    {impl : (op : Op) → Program Op' Answer' (Answer op)}
    {guard' : List (Event Answer') → Op' → Prop} {post' : List (Event Answer') → α → Prop}
    {p : Program Op Answer α} {h' : List (Event Answer')}
    (himpl : ∀ op h h', R h h' → guard h op →
      (impl op).Obeys guard' (fun h'' ans => R (h ++ [⟨op, ans⟩]) h'') h')
    (hpost : ∀ h h' a, R h h' → post h a → post' h' a)
    (hp : p.Obeys guard post h) (hR : R h h') : (p.interpret impl).Obeys guard' post' h' := by
  induction p generalizing h h' with
  | result a => exact hpost h h' a hR hp
  | call op next ih =>
    apply Obeys.bind
    apply (himpl op h h' hR hp.1).mono (fun _ _ hg => hg)
    exact fun h'' ans hR' => ih ans (hp.2 ans) hR'

theorem Uses.events {Q : Op → Prop} {p : Program Op Answer α} (hp : p.Uses Q) (s : σ) :
    ∀ e ∈ p.events exec s, Q e.1 := by
  induction p generalizing s with
  | result a => exact fun e he => nomatch he
  | call op next ih =>
    intro e he
    rcases List.mem_cons.mp he with rfl | he
    · exact hp.1
    · exact ih _ (hp.2 _) _ e he

theorem Uses.mono {Q Q' : Op → Prop} {p : Program Op Answer α} (hp : p.Uses Q)
    (hQ : ∀ op, Q op → Q' op) : p.Uses Q' := by
  induction p with
  | result a => trivial
  | call op next ih => exact ⟨hQ op hp.1, fun ans => ih ans (hp.2 ans)⟩

theorem Uses.along {Q : Op → Prop} {R : σ → Op → Prop} {P : σ → Prop}
    (hallow : ∀ op s, Q op → P s → R s op) (hkeep : ∀ op s, Q op → P s → P (exec op s).2)
    {p : Program Op Answer α} (hp : p.Uses Q) {s : σ} (hs : P s) : p.Along exec R s := by
  induction p generalizing s with
  | result a => trivial
  | call op next ih => exact ⟨hallow op s hp.1 hs, ih _ (hp.2 _) (hkeep op s hp.1 hs)⟩

theorem Uses.invariant {Q : Op → Prop} {P : σ → Prop} (hkeep : ∀ op s, Q op → P s → P (exec op s).2)
    {p : Program Op Answer α} (hp : p.Uses Q) {s : σ} (hs : P s) : P (p.eval exec s).2 := by
  induction p generalizing s with
  | result a => exact hs
  | call op next ih => exact ih _ (hp.2 _) (hkeep op s hp.1 hs)

theorem Obeys.eval {p : Program Op Answer α} (hp : p.Obeys guard post h) (s : σ) :
    post (h ++ p.events exec s) (p.eval exec s).1 := by
  induction p generalizing h s with
  | result a => simpa using hp
  | call op next ih => simpa using ih _ (hp.2 _) (exec op s).2

end Obeys
end Program
end Interleave
