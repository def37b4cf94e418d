import Mathlib
import Acs.Interleave.Program

/-! Interleaved runs of any number of programs over one shared state. What a run did is its
trace; a history is a trace each of whose operations was allowed to the thread that
issued it. Invariants are proved of histories, one operation at a time. -/

namespace Interleave
variable {ι Op : Type} {Answer : Op → Type} {σ α : Type} [DecidableEq ι]

def ofThread (i : ι) (tr : List (ι × Event Answer)) : List (Event Answer) :=
  tr.filterMap fun e => if e.1 = i then some e.2 else none

@[simp] theorem ofThread_nil (i : ι) : ofThread i ([] : List (ι × Event Answer)) = [] := rfl

theorem ofThread_append (i : ι) (tr tr' : List (ι × Event Answer)) :
    ofThread i (tr ++ tr') = ofThread i tr ++ ofThread i tr' := List.filterMap_append ..

theorem ofThread_snoc_self (i : ι) (tr : List (ι × Event Answer)) (e : Event Answer) :
    ofThread i (tr ++ [(i, e)]) = ofThread i tr ++ [e] := by
  simp [ofThread]

theorem ofThread_snoc_ne {i j : ι} (h : j ≠ i) (tr : List (ι × Event Answer)) (e : Event Answer) :
    ofThread i (tr ++ [(j, e)]) = ofThread i tr := by
  simp [ofThread, h]

theorem mem_ofThread {i : ι} {tr : List (ι × Event Answer)} {e : Event Answer} :
    e ∈ ofThread i tr ↔ (i, e) ∈ tr := by
  constructor
  · intro he
    obtain ⟨⟨j, e'⟩, hmem, h⟩ := List.mem_filterMap.mp he
    split_ifs at h with hj
    cases h
    exact hj ▸ hmem
  · intro he
    exact List.mem_filterMap.mpr ⟨(i, e), he, if_pos rfl⟩

theorem split_of_ofThread {i : ι} {tr : List (ι × Event Answer)} {e : Event Answer}
    {h₁ h₂ : List (Event Answer)} (h : ofThread i tr = h₁ ++ e :: h₂) :
    ∃ pre post, tr = pre ++ (i, e) :: post ∧ ofThread i pre = h₁ ∧ ofThread i post = h₂ := by
  obtain ⟨pre, tr', rfl, hpre, htr'⟩ := List.filterMap_eq_append_iff.mp h
  obtain ⟨skip, a, post, rfl, hskip, ha, hpost⟩ := List.filterMap_eq_cons_iff.mp htr'
  obtain ⟨j, e'⟩ := a
  dsimp only at ha
  split_ifs at ha with hj
  cases ha
  subst hj
  refine ⟨pre ++ skip, post, by simp, ?_, hpost⟩
  have hnil : ofThread j skip = [] := List.filterMap_eq_nil_iff.mpr hskip
  rw [ofThread_append, hnil, List.append_nil]
  exact hpre

theorem split_two {α : Type} {a b : α} {l : List α} (ha : a ∈ l) (hb : b ∈ l) (hne : a ≠ b) :
    (∃ pre post, l = pre ++ a :: post ∧ b ∈ post) ∨
      ∃ pre post, l = pre ++ b :: post ∧ a ∈ post := by
  obtain ⟨pre, post, rfl⟩ := List.append_of_mem ha
  rcases List.mem_append.mp hb with hb | hb
  · obtain ⟨p₁, p₂, rfl⟩ := List.append_of_mem hb
    exact Or.inr ⟨p₁, p₂ ++ a :: post, by simp, by simp⟩
  · exact Or.inl ⟨pre, post, rfl, (List.mem_cons.mp hb).resolve_left (Ne.symm hne)⟩

structure Config (ι Op : Type) (Answer : Op → Type) (σ α : Type) where
  shared : σ
  threads : ι → Program Op Answer α
  trace : List (ι × Event Answer)

def start (s : σ) (threads : ι → Program Op Answer α) : Config ι Op Answer σ α := ⟨s, threads, []⟩

variable (exec : (op : Op) → σ → Answer op × σ)

namespace Config

/-- Thread `i` performs its next operation; one that has ended does nothing. -/
def step (c : Config ι Op Answer σ α) (i : ι) : Config ι Op Answer σ α :=
  match c.threads i with
  | .result _ => c
  | .call op next =>
    { shared := (exec op c.shared).2
      threads := Function.update c.threads i (next (exec op c.shared).1)
      trace := c.trace ++ [(i, ⟨op, (exec op c.shared).1⟩)] }

def run (c : Config ι Op Answer σ α) (schedule : List ι) : Config ι Op Answer σ α :=
  schedule.foldl (step exec) c

theorem run_append (c : Config ι Op Answer σ α) (as bs : List ι) :
    c.run exec (as ++ bs) = (c.run exec as).run exec bs := List.foldl_append ..

theorem run_cons (c : Config ι Op Answer σ α) (i : ι) (schedule : List ι) :
    c.run exec (i :: schedule) = (c.step exec i).run exec schedule := rfl

theorem step_result {c : Config ι Op Answer σ α} {i : ι} {a : α} (h : c.threads i = .result a) :
    c.step exec i = c := by
  rw [step, h]

theorem step_call {c : Config ι Op Answer σ α} {i : ι} {op : Op}
    {next : Answer op → Program Op Answer α} (h : c.threads i = .call op next) :
    c.step exec i =
      { shared := (exec op c.shared).2
        threads := Function.update c.threads i (next (exec op c.shared).1)
        trace := c.trace ++ [(i, ⟨op, (exec op c.shared).1⟩)] } := by
  rw [step, h]

theorem trace_prefix_step (c : Config ι Op Answer σ α) (i : ι) :
    c.trace <+: (c.step exec i).trace := by
  cases h : c.threads i with
  | result a =>
    simp only [step_result exec h, List.prefix_refl]
  | call op next =>
    rw [step_call exec h]
    exact List.prefix_append ..

theorem trace_prefix_run (c : Config ι Op Answer σ α) (schedule : List ι) :
    c.trace <+: (c.run exec schedule).trace := by
  induction schedule generalizing c with
  | nil => exact List.prefix_refl _
  | cons i is ih => exact (trace_prefix_step exec c i).trans (ih _)

section Step
variable {exec} {c : Config ι Op Answer σ α} {i : ι} {op : Op} {next : Answer op → Program Op Answer α}

theorem shared_step (h : c.threads i = .call op next) :
    (c.step exec i).shared = (exec op c.shared).2 := by
  rw [step_call exec h]

theorem trace_step (h : c.threads i = .call op next) :
    (c.step exec i).trace = c.trace ++ [(i, ⟨op, (exec op c.shared).1⟩)] := by
  rw [step_call exec h]

theorem threads_step_self (h : c.threads i = .call op next) :
    (c.step exec i).threads i = next (exec op c.shared).1 := by
  rw [step_call exec h]
  exact Function.update_self ..

theorem threads_step_of_ne {j : ι} (hj : j ≠ i) : (c.step exec i).threads j = c.threads j := by
  cases h : c.threads i with
  | result a => rw [step_result exec h]
  | call op next =>
    rw [step_call exec h]
    exact Function.update_of_ne hj ..

end Step

theorem run_alone (p : Program Op Answer α) {c : Config ι Op Answer σ α} {i : ι}
    (hi : c.threads i = p) : ∃ n, (c.run exec (List.replicate n i)).shared = (p.eval exec c.shared).2 ∧
      (c.run exec (List.replicate n i)).threads i = .result (p.eval exec c.shared).1 ∧
      ∀ j ≠ i, (c.run exec (List.replicate n i)).threads j = c.threads j := by
  induction p generalizing c with
  | result a => exact ⟨0, rfl, hi, fun _ _ => rfl⟩
  | call op next ih =>
    obtain ⟨n, hshared, hthread, hothers⟩ := ih _ (threads_step_self hi)
    rw [shared_step hi] at hshared hthread
    exact ⟨n + 1, hshared, hthread, fun j hj => (hothers j hj).trans (threads_step_of_ne hj)⟩

end Config

section AllSteps
variable {P : List (ι × Event Answer) → ι → Op → Prop} {tr tr' : List (ι × Event Answer)}

def AllSteps (P : List (ι × Event Answer) → ι → Op → Prop) (tr : List (ι × Event Answer)) : Prop :=
  ∀ pre i e post, tr = pre ++ (i, e) :: post → P pre i e.1

omit [DecidableEq ι] in
theorem AllSteps.of_prefix (h : AllSteps P tr') (hp : tr <+: tr') : AllSteps P tr := by
  obtain ⟨rest, rfl⟩ := hp
  rintro pre i e post rfl
  exact h pre i e (post ++ rest) (by simp)

omit [DecidableEq ι] in
theorem AllSteps.snoc (h : AllSteps P tr) {i : ι} {e : Event Answer} (he : P tr i e.1) :
    AllSteps P (tr ++ [(i, e)]) := by
  intro pre j e' post htr
  rcases List.eq_nil_or_concat post with rfl | ⟨post, last, rfl⟩
  · obtain ⟨rfl, hlast⟩ := List.append_inj' htr rfl
    obtain ⟨rfl, rfl⟩ := Prod.mk.inj (List.cons.inj hlast).1
    exact he
  · rw [List.concat_eq_append, ← List.cons_append, ← List.append_assoc] at htr
    exact h pre j e' post (List.append_inj' htr rfl).1

theorem AllSteps.step {c : Config ι Op Answer σ α} (h : AllSteps P c.trace) (i : ι) (op : Op)
    {next : Answer op → Program Op Answer α} (hi : c.threads i = .call op next)
    (hop : P c.trace i op) : AllSteps P (c.step exec i).trace := by
  rw [Config.step_call exec hi]
  exact h.snoc hop

end AllSteps

section History
variable (guard : ι → List (Event Answer) → Op → Prop) (s₀ : σ)

/-- A trace that ends in a state, each operation allowed to its thread when issued. -/
inductive History : List (ι × Event Answer) → σ → Prop
  | nil : History [] s₀
  | snoc {tr : List (ι × Event Answer)} {s : σ} (i : ι) (op : Op) : History tr s →
      guard i (ofThread i tr) op →
      History (tr ++ [(i, ⟨op, (exec op s).1⟩)]) (exec op s).2

def replay (tr : List (ι × Event Answer)) : σ := tr.foldl (fun s e => (exec e.2.1 s).2) s₀

variable {exec guard s₀}

omit [DecidableEq ι] in
@[simp] theorem replay_snoc (tr : List (ι × Event Answer)) (e : ι × Event Answer) :
    replay exec s₀ (tr ++ [e]) = (exec e.2.1 (replay exec s₀ tr)).2 := by
  simp [replay]

theorem History.eq_replay {tr : List (ι × Event Answer)} {s : σ}
    (h : History exec guard s₀ tr s) : s = replay exec s₀ tr := by
  induction h with
  | nil => rfl
  | snoc i op _ _ ih => rw [replay_snoc, ← ih]

theorem History.snoc_inv {tr : List (ι × Event Answer)} {e : ι × Event Answer} {s : σ}
    (h : History exec guard s₀ (tr ++ [e]) s) :
    History exec guard s₀ tr (replay exec s₀ tr) ∧ guard e.1 (ofThread e.1 tr) e.2.1 ∧
      e.2.2 = (exec e.2.1 (replay exec s₀ tr)).1 := by
  generalize htr : tr ++ [e] = tr' at h
  cases h with
  | nil => simp at htr
  | snoc i op hpre hg =>
    obtain ⟨rfl, hlast⟩ := List.append_inj' htr rfl
    obtain rfl := (List.cons.inj hlast).1
    rw [← hpre.eq_replay]
    exact ⟨hpre, hg, rfl⟩

theorem History.of_append {pre post : List (ι × Event Answer)} {s : σ}
    (h : History exec guard s₀ (pre ++ post) s) : History exec guard s₀ pre (replay exec s₀ pre) := by
  induction post using List.reverseRecOn generalizing s with
  | nil =>
    rw [List.append_nil] at h
    exact h.eq_replay ▸ h
  | append_singleton post e ih =>
    rw [← List.append_assoc] at h
    exact ih h.snoc_inv.1

theorem History.mono {guard' : ι → List (Event Answer) → Op → Prop}
    {tr : List (ι × Event Answer)} {s : σ} (h : History exec guard s₀ tr s)
    (hg : ∀ i h op, guard i h op → guard' i h op) : History exec guard' s₀ tr s := by
  induction h with
  | nil => exact .nil
  | snoc i op _ hi ih => exact .snoc i op ih (hg _ _ _ hi)

theorem History.at {pre post : List (ι × Event Answer)} {i : ι} {e : Event Answer} {s : σ}
    (h : History exec guard s₀ (pre ++ (i, e) :: post) s) :
    History exec guard s₀ pre (replay exec s₀ pre) ∧ guard i (ofThread i pre) e.1 ∧
      e.2 = (exec e.1 (replay exec s₀ pre)).1 := by
  rw [← List.singleton_append, ← List.append_assoc] at h
  exact h.of_append.snoc_inv

/-- What holds at one point of a history, and is kept by every operation allowed after it,
holds at its end. -/
theorem History.after {P : List (ι × Event Answer) → σ → Prop} {pre post : List (ι × Event Answer)}
    {s : σ} (h : History exec guard s₀ (pre ++ post) s) (hpre : P pre (replay exec s₀ pre))
    (hstep : ∀ tr s i op, pre <+: tr → History exec guard s₀ tr s → guard i (ofThread i tr) op →
      P tr s → P (tr ++ [(i, ⟨op, (exec op s).1⟩)]) (exec op s).2) : P (pre ++ post) s := by
  induction post using List.reverseRecOn generalizing s with
  | nil =>
    rw [List.append_nil] at h ⊢
    exact h.eq_replay ▸ hpre
  | append_singleton post e ih =>
    rw [← List.append_assoc] at h ⊢
    obtain ⟨hpre', hg, hans⟩ := h.snoc_inv
    have hstep := hstep _ _ e.1 e.2.1 (List.prefix_append pre post) hpre' hg (ih hpre')
    rwa [← hans, ← replay_snoc, ← h.eq_replay] at hstep

theorem History.along {P : List (ι × Event Answer) → σ → Prop} {pre post : List (ι × Event Answer)}
    {s : σ} (h : History exec guard s₀ (pre ++ post) s) (hpre : P pre (replay exec s₀ pre))
    (hstep : ∀ tr s i op, pre <+: tr → tr ++ [(i, ⟨op, (exec op s).1⟩)] <+: pre ++ post →
      History exec guard s₀ tr s → guard i (ofThread i tr) op →
      P tr s → P (tr ++ [(i, ⟨op, (exec op s).1⟩)]) (exec op s).2) : P (pre ++ post) s := by
  have hwithin := h.after (P := fun tr s => tr <+: pre ++ post → P tr s) (fun _ => hpre)
    fun tr s i op hp htr hg hP hin =>
      hstep tr s i op hp hin htr hg (hP ((List.prefix_append _ _).trans hin))
  exact hwithin List.prefix_rfl

theorem History.invariant {P : List (ι × Event Answer) → σ → Prop} {tr : List (ι × Event Answer)}
    {s : σ} (h : History exec guard s₀ tr s) (hstart : P [] s₀)
    (hstep : ∀ tr s i op, History exec guard s₀ tr s → guard i (ofThread i tr) op →
      P tr s → P (tr ++ [(i, ⟨op, (exec op s).1⟩)]) (exec op s).2) : P tr s := by
  have h' : History exec guard s₀ ([] ++ tr) s := h
  exact h'.after hstart fun tr s i op _ => hstep tr s i op

theorem History.rely {R : σ → σ → Prop} {pre post : List (ι × Event Answer)} {s : σ}
    (h : History exec guard s₀ (pre ++ post) s) (hrefl : ∀ s, R s s)
    (htrans : ∀ s t u, R s t → R t u → R s u)
    (hstep : ∀ tr s i op, History exec guard s₀ tr s → guard i (ofThread i tr) op →
      R s (exec op s).2) : R (replay exec s₀ pre) s :=
  h.after (P := fun _ s => R (replay exec s₀ pre) s) (hrefl _) fun _ _ _ _ _ htr hg hR =>
    htrans _ _ _ hR (hstep _ _ _ _ htr hg)

end History

variable {exec} {guard : ι → List (Event Answer) → Op → Prop}
  {post : ι → List (Event Answer) → α → Prop}

theorem step_history {s₀ : σ} {c : Config ι Op Answer σ α}
    (hc : History exec guard s₀ c.trace c.shared ∧
      ∀ i, (c.threads i).Obeys (guard i) (post i) (ofThread i c.trace)) (i : ι) :
    History exec guard s₀ (c.step exec i).trace (c.step exec i).shared ∧
      ∀ j, ((c.step exec i).threads j).Obeys (guard j) (post j)
        (ofThread j (c.step exec i).trace) := by
  cases h : c.threads i with
  | result a => rwa [Config.step_result exec h]
  | call op next =>
    rw [Config.step_call exec h]
    have hi := hc.2 i
    rw [h] at hi
    refine ⟨.snoc i op hc.1 hi.1, fun j => ?_⟩
    by_cases hj : j = i
    · subst hj
      simpa only [Function.update_self, ofThread_snoc_self] using hi.2 _
    · simpa only [Function.update_of_ne hj, ofThread_snoc_ne (Ne.symm hj)] using hc.2 j

/-- Programs that obey their guards leave a history, whatever the schedule. -/
theorem run_history (exec : (op : Op) → σ → Answer op × σ) (s₀ : σ) {threads : ι → Program Op Answer α}
    (hobeys : ∀ i, (threads i).Obeys (guard i) (post i) []) (schedule : List ι) :
    History exec guard s₀ ((start s₀ threads).run exec schedule).trace
        ((start s₀ threads).run exec schedule).shared ∧
      ∀ i, (((start s₀ threads).run exec schedule).threads i).Obeys (guard i) (post i)
        (ofThread i ((start s₀ threads).run exec schedule).trace) := by
  induction schedule using List.reverseRecOn with
  | nil => exact ⟨.nil, hobeys⟩
  | append_singleton schedule i ih =>
    rw [Config.run_append]
    exact step_history ih i

end Interleave
