import Mathlib
import Acs.Interleave.Runs
import Acs.Auth.OtpProtocol

/-! Any number of OTP calls for one MSISDN, interleaved in any way: a challenge is verified
at most once, and no more guesses are judged against it than the policy allows. -/

namespace Acs.Otp
open Interleave Function

variable {ι : Type} [DecidableEq ι] (sha256 : String → String) (policy : OtpPolicy)
  (msisdn : String) (calls : ι → Call) (x : OtpChallenge)

def runOf (m₀ : MemoryStore) (schedule : List ι) : Config ι StoreOp StoreOp.Answer MemoryStore Result :=
  (start m₀ fun i => (calls i).program sha256 policy msisdn).run MemoryStore.exec schedule

abbrev OtpHistory (m₀ : MemoryStore) (tr : List (ι × StoreEvent)) (m : MemoryStore) : Prop :=
  History MemoryStore.exec (fun i => (calls i).guard sha256 policy msisdn) m₀ tr m

/-- The ids that `create_challenge` draws differ from each other, from the empty id of old
records and from the id of what the store holds at first. -/
structure Distinct (m₀ : MemoryStore) : Prop where
  ids : ∀ i j a b, (calls i).issues sha256 policy msisdn = some a →
    (calls j).issues sha256 policy msisdn = some b → a.challengeId = b.challengeId → i = j
  nonempty : ∀ i a, (calls i).issues sha256 policy msisdn = some a → a.challengeId ≠ ""
  stored : ∀ i a c, (calls i).issues sha256 policy msisdn = some a → m₀.otp msisdn = some c →
    c.challengeId ≠ a.challengeId
  /-- A challenge is stored under its own MSISDN. -/
  keyed : ∀ c, m₀.otp msisdn = some c → c.msisdn = msisdn

/-- A guess judged against the challenge: a compare-and-swap that succeeded. -/
def judged : ι × StoreEvent → Bool
  | (i, ⟨.replaceOtp e _, swapped⟩) =>
    swapped && (calls i).judges policy e && (e.challengeId = x.challengeId : Bool)
  | _ => false

def Issued (i : ι) (tr : List (ι × StoreEvent)) : Prop :=
  ∃ cooldown cap now clock, (i, (⟨.issueOtp x cooldown cap now clock, .ok none⟩ : StoreEvent)) ∈ tr

def Gone (stored : Option OtpChallenge) : Prop := ∀ c ∈ stored, c.challengeId ≠ x.challengeId

def Spent (stored : Option OtpChallenge) : Prop :=
  ∀ c ∈ stored, c.challengeId = x.challengeId → c.consumed ∨ policy.maxAttempts ≤ c.attempts

/-- The call returned `o`, and its last operation was on the challenge. -/
def Ended (c : Config ι StoreOp StoreOp.Answer MemoryStore Result) (i : ι) (o : OtpOutcome) : Prop :=
  c.threads i = .result (.outcome o) ∧
    ∃ e r swapped, Call.EndedOn (ofThread i c.trace) e r swapped ∧ e.challengeId = x.challengeId

/-- What a run may have done with a challenge that the call `j` issues. -/
structure SingleUse (m₀ : MemoryStore) (c : Config ι StoreOp StoreOp.Answer MemoryStore Result)
    (j : ι) : Prop where
  verified_once : ∀ i i', Ended x c i .verified → Ended x c i' .verified → i = i'
  verified_right : ∀ i, Ended x c i .verified → ∃ otp now clock, calls i = .verify otp now clock ∧
    x.otpHash = hashOtp sha256 msisdn otp ∧ clock.orNow now < x.expiresAt
  judged_le : c.trace.countP (judged policy calls x) ≤ policy.maxAttempts.toNat
  spent : ∀ i, Ended x c i .verified ∨ Ended x c i .exhausted →
    Spent policy x (c.shared.otp msisdn)
  never_again : ∀ pre post, c.trace = pre ++ post → Issued x j pre →
    Spent policy x ((replay MemoryStore.exec m₀ pre).otp msisdn) →
    ∀ e ∈ post, judged policy calls x e = false
  gone : ∀ pre post, c.trace = pre ++ post → Issued x j pre →
    Gone x ((replay MemoryStore.exec m₀ pre).otp msisdn) → Gone x (c.shared.otp msisdn)

/-! ### What one operation does -/

variable {sha256 policy msisdn calls x} {m₀ m : MemoryStore} {tr : List (ι × StoreEvent)}

theorem exec_replaceOtp (e : OtpChallenge) (r : Option OtpChallenge) (m : MemoryStore) :
    (∃ c, m.otp e.msisdn = some c ∧ unchanged c e ∧
        MemoryStore.exec (.replaceOtp e r) m = (true, { m with otp := update m.otp e.msisdn r })) ∨
      MemoryStore.exec (.replaceOtp e r) m = (false, m) := by
  simp only [MemoryStore.exec, MemoryStore.replaceOtp]
  cases hm : m.otp e.msisdn with
  | none => exact Or.inr rfl
  | some c =>
    dsimp only
    split_ifs with hu
    · exact Or.inl ⟨c, rfl, hu, rfl⟩
    · exact Or.inr rfl

theorem exec_issueOtp (ch : OtpChallenge) (cooldown cap now : Int) (clock : Clock)
    (m : MemoryStore) :
    (∃ sends, MemoryStore.exec (.issueOtp ch cooldown cap now clock) m =
        (.ok none, { m with otpSends := sends, otp := update m.otp ch.msisdn (some ch) })) ∨
      ∃ refused,
        MemoryStore.exec (.issueOtp ch cooldown cap now clock) m = (.ok (some refused), m) := by
  simp only [MemoryStore.exec, MemoryStore.issueOtp]
  split
  · exact Or.inr ⟨_, rfl⟩
  · exact Or.inl ⟨_, rfl⟩

theorem attempts_of_unchanged {c e : OtpChallenge} (h : unchanged c e) : c.attempts = e.attempts := by
  by_contra hne
  simp [unchanged, hne] at h

theorem id_of_unchanged {c e : OtpChallenge} (h : unchanged c e) (hid : e.challengeId ≠ "") :
    c.challengeId = e.challengeId := by
  unfold unchanged at h
  rw [if_pos hid] at h
  split_ifs at h
  exact of_decide_eq_true h

inductive Effect (sha256 : String → String) (policy : OtpPolicy) (msisdn : String)
    (calls : ι → Call) (tr : List (ι × StoreEvent)) (i : ι) (before : Option OtpChallenge) :
    StoreEvent → Option OtpChallenge → Prop
  | read : Effect sha256 policy msisdn calls tr i before ⟨.getOtp msisdn, before⟩ before
  | refused {ch : OtpChallenge} {cooldown cap now : Int} {clock : Clock} (why : OtpIssueRefused) :
    Effect sha256 policy msisdn calls tr i before
      ⟨.issueOtp ch cooldown cap now clock, .ok (some why)⟩ before
  | issued {ch : OtpChallenge} {cooldown cap now : Int} {clock : Clock} :
    (calls i).issues sha256 policy msisdn = some ch → ofThread i tr = [] →
    Effect sha256 policy msisdn calls tr i before ⟨.issueOtp ch cooldown cap now clock, .ok none⟩
      (some ch)
  | lost {e : OtpChallenge} {r : Option OtpChallenge} :
    Effect sha256 policy msisdn calls tr i before ⟨.replaceOtp e r, false⟩ before
  | replaced {c e : OtpChallenge} : before = some c → unchanged c e →
    (i, (⟨.getOtp msisdn, some e⟩ : StoreEvent)) ∈ tr →
    Effect sha256 policy msisdn calls tr i before
      ⟨.replaceOtp e ((calls i).replacement sha256 policy msisdn e), true⟩
      ((calls i).replacement sha256 policy msisdn e)

structure Keyed (msisdn : String) (tr : List (ι × StoreEvent)) (stored : Option OtpChallenge) :
    Prop where
  stored : ∀ c ∈ stored, c.msisdn = msisdn
  read : ∀ i e, (i, (⟨.getOtp msisdn, some e⟩ : StoreEvent)) ∈ tr → e.msisdn = msisdn

theorem issues_msisdn {call : Call} {ch : OtpChallenge}
    (h : call.issues sha256 policy msisdn = some ch) : ch.msisdn = msisdn := by
  cases call <;> cases h
  rfl

theorem effect_of_guard {i : ι} {op : StoreOp} (hk : Keyed msisdn tr (m.otp msisdn))
    (hg : (calls i).guard sha256 policy msisdn (ofThread i tr) op) :
    Effect sha256 policy msisdn calls tr i (m.otp msisdn) ⟨op, (MemoryStore.exec op m).1⟩
      ((MemoryStore.exec op m).2.otp msisdn) := by
  obtain ⟨-, hg⟩ := hg
  cases op with
  | getOtp n =>
    subst hg
    exact .read
  | issueOtp ch cooldown cap now clock =>
    obtain ⟨hnil, hissues, -⟩ := hg
    rcases exec_issueOtp ch cooldown cap now clock m with ⟨sends, h⟩ | ⟨why, h⟩ <;> rw [h]
    · simpa only [issues_msisdn hissues, update_self] using .issued hissues hnil
    · exact .refused why
  | replaceOtp e r =>
    obtain ⟨hread, -, rfl⟩ := hg
    rw [mem_ofThread] at hread
    have hm := hk.read i e hread
    rcases exec_replaceOtp e ((calls i).replacement sha256 policy msisdn e) m with
      ⟨c, hc, hu, h⟩ | h <;> rw [h]
    · rw [hm] at hc
      simpa only [hm, update_self] using .replaced hc hu hread
    · exact .lost
  | _ => exact hg.elim

section Step
variable {i j : ι} {before after : Option OtpChallenge} {ev : StoreEvent}

theorem mem_read_snoc {i' : ι} {e : OtpChallenge}
    (heff : Effect sha256 policy msisdn calls tr i before ev after)
    (h : (i', (⟨.getOtp msisdn, some e⟩ : StoreEvent)) ∈ tr ++ [(i, ev)]) :
    (i', (⟨.getOtp msisdn, some e⟩ : StoreEvent)) ∈ tr ∨ before = some e := by
  refine (List.mem_append.mp h).imp_right fun h => ?_
  cases heff <;> cases List.mem_singleton.mp h
  rfl

theorem Keyed.step (hk : Keyed msisdn tr before)
    (heff : Effect sha256 policy msisdn calls tr i before ev after) :
    Keyed msisdn (tr ++ [(i, ev)]) after := by
  constructor
  · cases heff with
    | read | refused | lost => exact hk.stored
    | issued hissues => rintro c ⟨⟩; exact issues_msisdn hissues
    | @replaced c e hc hu hread =>
      rcases (calls i).replacement_cases sha256 policy msisdn e with
        h | ⟨-, -, h⟩ <;> rw [h]
      · nofun
      · rintro c ⟨⟩
        exact hk.read i e hread
  · intro i' e h
    rcases mem_read_snoc heff h with h | h
    · exact hk.read i' e h
    · exact hk.stored e h

end Step

theorem keyed_of_history (hd : Distinct sha256 policy msisdn calls m₀)
    (h : OtpHistory sha256 policy msisdn calls m₀ tr m) : Keyed msisdn tr (m.otp msisdn) :=
  h.invariant (P := fun tr m => Keyed msisdn tr (m.otp msisdn)) ⟨hd.keyed, by simp⟩
    fun _ _ _ _ _ hg hk => hk.step (effect_of_guard hk hg)

/-- What holds of the stored challenge at one point of a history, and is kept by every effect
after it, holds at its end. -/
theorem after_effects (hd : Distinct sha256 policy msisdn calls m₀)
    {P : List (ι × StoreEvent) → Option OtpChallenge → Prop} {pre post : List (ι × StoreEvent)}
    (h : OtpHistory sha256 policy msisdn calls m₀ (pre ++ post) m)
    (hpre : P pre ((replay MemoryStore.exec m₀ pre).otp msisdn))
    (hstep : ∀ tr before i ev after, pre <+: tr →
      Effect sha256 policy msisdn calls tr i before ev after → P tr before →
      P (tr ++ [(i, ev)]) after) : P (pre ++ post) (m.otp msisdn) :=
  History.after (P := fun tr m => P tr (m.otp msisdn)) h hpre fun tr _ i _ hp htr hg =>
    hstep tr _ i _ _ hp (effect_of_guard (keyed_of_history hd htr) hg)

/-! ### One issued challenge -/

/-- The stored attempts are the guesses judged so far, and whoever has read the challenge has
read it as it was issued, but for the attempts. -/
structure Tracked (policy : OtpPolicy) (msisdn : String) (calls : ι → Call) (x : OtpChallenge)
    (j : ι) (tr : List (ι × StoreEvent)) (stored : Option OtpChallenge) : Prop where
  stored : ∀ c ∈ stored, c.challengeId = x.challengeId → Issued x j tr ∧
    c = { x with attempts := c.attempts } ∧ c.attempts = tr.countP (judged policy calls x)
  read : ∀ i e, (i, (⟨.getOtp msisdn, some e⟩ : StoreEvent)) ∈ tr →
    e.challengeId = x.challengeId → Issued x j tr ∧
      e = { x with attempts := e.attempts } ∧ e.attempts ≤ tr.countP (judged policy calls x)
  bound : tr.countP (judged policy calls x) ≤ policy.maxAttempts.toNat
  early : ¬ Issued x j tr → tr.countP (judged policy calls x) = 0

section Judged
omit [DecidableEq ι]
variable (policy calls x)

@[simp] theorem judged_getOtp (i : ι) (n : String) (o : Option OtpChallenge) :
    judged policy calls x (i, (⟨.getOtp n, o⟩ : StoreEvent)) = false := rfl

@[simp] theorem judged_issueOtp (i : ι) (ch : OtpChallenge) (cooldown cap now : Int) (clock : Clock)
    (r : Except StoreError (Option OtpIssueRefused)) :
    judged policy calls x (i, (⟨.issueOtp ch cooldown cap now clock, r⟩ : StoreEvent)) = false := rfl

@[simp] theorem judged_replaceOtp (i : ι) (e : OtpChallenge) (r : Option OtpChallenge)
    (swapped : Bool) :
    judged policy calls x (i, (⟨.replaceOtp e r, swapped⟩ : StoreEvent)) =
      (swapped && (calls i).judges policy e && (e.challengeId = x.challengeId : Bool)) := rfl

end Judged

omit [DecidableEq ι] in
theorem Issued.snoc {j i : ι} {ev : StoreEvent} (h : Issued x j tr) : Issued x j (tr ++ [(i, ev)]) := by
  obtain ⟨cooldown, cap, now, clock, h⟩ := h
  exact ⟨cooldown, cap, now, clock, List.mem_append_left _ h⟩

omit [DecidableEq ι] in
theorem Issued.mono {j : ι} {tr tr' : List (ι × StoreEvent)} (h : Issued x j tr) (hp : tr <+: tr') :
    Issued x j tr' := by
  obtain ⟨cooldown, cap, now, clock, h⟩ := h
  exact ⟨cooldown, cap, now, clock, hp.subset h⟩

theorem not_issued_of_idle {j : ι} (h : ofThread j tr = []) : ¬ Issued x j tr := by
  rintro ⟨cooldown, cap, now, clock, hmem⟩
  rw [← mem_ofThread, h] at hmem
  cases hmem

theorem lt_toNat_of_judges {call : Call} {e : OtpChallenge} {n : Nat}
    (hj : call.judges policy e) (hn : e.attempts = n) : n + 1 ≤ policy.maxAttempts.toNat := by
  cases call with
  | verify otp now clock =>
    simp only [Call.judges, Bool.and_eq_true, decide_eq_true_eq] at hj
    omega
  | create => cases hj
  | discard => cases hj

section Step
variable {i j : ι} {before after : Option OtpChallenge} {ev : StoreEvent}

theorem Tracked.step_of_not_judged (ht : Tracked policy msisdn calls x j tr before)
    (heff : Effect sha256 policy msisdn calls tr i before ev after)
    (hnot : judged policy calls x (i, ev) = false)
    (hafter : ∀ c ∈ after, c.challengeId = x.challengeId → c ∈ before) :
    Tracked policy msisdn calls x j (tr ++ [(i, ev)]) after := by
  have hcount : (tr ++ [(i, ev)]).countP (judged policy calls x) =
      tr.countP (judged policy calls x) := by simp [hnot]
  constructor
  · intro c hc hid
    obtain ⟨hissued, hfields, hattempts⟩ := ht.stored c (hafter c hc hid) hid
    exact ⟨hissued.snoc, hfields, hcount ▸ hattempts⟩
  · intro i' e h hid
    rw [hcount]
    rcases mem_read_snoc heff h with h | h
    · exact (ht.read i' e h hid).imp_left Issued.snoc
    · obtain ⟨hissued, hfields, hattempts⟩ := ht.stored e h hid
      exact ⟨hissued.snoc, hfields, Int.le_of_eq hattempts⟩
  · exact hcount ▸ ht.bound
  · intro h
    exact hcount ▸ ht.early fun hissued => h hissued.snoc

theorem Tracked.step (hd : Distinct sha256 policy msisdn calls m₀)
    (hx : (calls j).issues sha256 policy msisdn = some x)
    (ht : Tracked policy msisdn calls x j tr before)
    (heff : Effect sha256 policy msisdn calls tr i before ev after) :
    Tracked policy msisdn calls x j (tr ++ [(i, ev)]) after := by
  have heff' := heff
  cases heff with
  | read => exact ht.step_of_not_judged heff' rfl fun c hc _ => hc
  | refused => exact ht.step_of_not_judged heff' rfl fun c hc _ => hc
  | lost => exact ht.step_of_not_judged heff' rfl fun c hc _ => hc
  | @issued ch cooldown cap now clock hissues hidle =>
    by_cases hid : ch.challengeId = x.challengeId
    · obtain rfl := hd.ids _ _ _ _ hissues hx hid
      obtain rfl : ch = x := Option.some.inj (hissues.symm.trans hx)
      -- it was not stored before, so that no guess at it has been judged
      have hzero := ht.early (not_issued_of_idle hidle)
      have hcount : (tr ++ [(i, (⟨.issueOtp ch cooldown cap now clock, .ok none⟩ : StoreEvent))]).countP
          (judged policy calls ch) = 0 := by simp [hzero]
      have hissued : Issued ch i
          (tr ++ [(i, (⟨.issueOtp ch cooldown cap now clock, .ok none⟩ : StoreEvent))]) :=
        ⟨cooldown, cap, now, clock, by simp⟩
      refine ⟨?_, ?_, by omega, fun h => absurd hissued h⟩
      · rintro c ⟨⟩ -
        refine ⟨hissued, rfl, ?_⟩
        rw [hcount]
        cases hcall : calls i <;> rw [hcall] at hx <;> cases hx
        rfl
      · intro i' e h hid'
        rcases mem_read_snoc heff' h with h | h
        · exact absurd (ht.read i' e h hid').1 (not_issued_of_idle hidle)
        · exact absurd (ht.stored e h hid').1 (not_issued_of_idle hidle)
    · exact ht.step_of_not_judged heff' rfl fun c hc hc' => absurd (Option.some.inj hc ▸ hc') hid
  | @replaced c e hc hu hread =>
    have hr := (calls i).replacement_cases sha256 policy msisdn e
    -- a replacement counts only where it judges a guess at this challenge
    by_cases hid : e.challengeId = x.challengeId
    · have hne : e.challengeId ≠ "" := hid ▸ hd.nonempty j x hx
      obtain ⟨hissued, hc', hattempts⟩ := ht.stored c hc ((id_of_unchanged hu hne).trans hid)
      have he : e.attempts = tr.countP (judged policy calls x) :=
        (attempts_of_unchanged hu).symm.trans hattempts
      have hfields := (ht.read i e hread hid).2.1
      cases hj : (calls i).judges policy e with
      | false =>
        have hnone : (calls i).replacement sha256 policy msisdn e = none :=
          (calls i).replacement_of_not_judges hj
        exact ht.step_of_not_judged heff' (by simp [hj]) fun c' hc' _ => by rw [hnone] at hc'; cases hc'
      | true =>
        have hcount : (tr ++ [(i, (⟨.replaceOtp e ((calls i).replacement sha256 policy msisdn e),
            true⟩ : StoreEvent))]).countP (judged policy calls x) =
            tr.countP (judged policy calls x) + 1 := by simp [hj, hid]
        refine ⟨?_, ?_, hcount ▸ lt_toNat_of_judges hj he, fun h => absurd hissued.snoc h⟩
        · intro c' hc' _
          rcases hr with h | ⟨-, -, h⟩ <;> rw [h] at hc' <;> cases hc'
          refine ⟨hissued.snoc, by rw [hfields], ?_⟩
          dsimp only
          omega
        · intro i' e' h hid'
          rw [hcount]
          rcases mem_read_snoc heff' h with h | h
          · obtain ⟨-, hfields', hle⟩ := ht.read i' e' h hid'
            exact ⟨hissued.snoc, hfields', by omega⟩
          · obtain ⟨-, hfields', hle⟩ := ht.stored e' h hid'
            exact ⟨hissued.snoc, hfields', by omega⟩
    · refine ht.step_of_not_judged heff' (by simp [hid]) fun c' hc' hid' => ?_
      rcases hr with h | ⟨-, -, h⟩ <;> rw [h] at hc' <;> cases hc'
      exact absurd hid' hid

theorem Gone.step (hd : Distinct sha256 policy msisdn calls m₀)
    (hx : (calls j).issues sha256 policy msisdn = some x) (hissued : Issued x j tr)
    (hgone : Gone x before) (heff : Effect sha256 policy msisdn calls tr i before ev after) :
    Gone x after := by
  cases heff with
  | read => exact hgone
  | refused => exact hgone
  | lost => exact hgone
  | issued hissues hidle =>
    rintro c ⟨⟩ hid
    obtain rfl := hd.ids _ _ _ _ hissues hx hid
    exact not_issued_of_idle hidle hissued
  | @replaced c e hc hu hread =>
    intro c' hc' hid
    rcases (calls i).replacement_cases sha256 policy msisdn e with
      h | ⟨-, -, h⟩ <;> rw [h] at hc' <;> cases hc'
    exact hgone c hc ((id_of_unchanged hu (hid ▸ hd.nonempty j x hx)).trans hid)

theorem Spent.step (hd : Distinct sha256 policy msisdn calls m₀)
    (hx : (calls j).issues sha256 policy msisdn = some x) (hissued : Issued x j tr)
    (ht : Tracked policy msisdn calls x j tr before) (hspent : Spent policy x before)
    (heff : Effect sha256 policy msisdn calls tr i before ev after) :
    Spent policy x after ∧ judged policy calls x (i, ev) = false := by
  cases heff with
  | read => exact ⟨hspent, rfl⟩
  | refused => exact ⟨hspent, rfl⟩
  | lost => exact ⟨hspent, rfl⟩
  | issued hissues hidle =>
    refine ⟨?_, rfl⟩
    rintro c ⟨⟩ hid
    obtain rfl := hd.ids _ _ _ _ hissues hx hid
    exact absurd hissued (not_issued_of_idle hidle)
  | @replaced c e hc hu hread =>
    by_cases hid : e.challengeId = x.challengeId
    · have hcid := (id_of_unchanged hu (hid ▸ hd.nonempty j x hx)).trans hid
      obtain ⟨-, hcfields, -⟩ := ht.stored c hc hcid
      have hefields := (ht.read i e hread hid).2.1
      have hattempts := attempts_of_unchanged hu
      have hce : c = e := by rw [hcfields, hefields, hattempts]
      have hj : (calls i).judges policy e = false := by
        rw [← hce]
        rcases hspent c hc hcid with h | h <;> cases calls i <;> simp [Call.judges, h]
      rw [(calls i).replacement_of_not_judges hj]
      exact ⟨fun _ h => (by cases h), by simp [hj]⟩
    · refine ⟨?_, by simp [hid]⟩
      intro c' hc' hid'
      rcases (calls i).replacement_cases sha256 policy msisdn e
        with h | ⟨-, -, h⟩ <;> rw [h] at hc' <;> cases hc'
      exact absurd hid' hid

end Step

section Run
variable {j : ι} {pre post : List (ι × StoreEvent)}

theorem tracked_of_history (hd : Distinct sha256 policy msisdn calls m₀)
    (hx : (calls j).issues sha256 policy msisdn = some x)
    (h : OtpHistory sha256 policy msisdn calls m₀ tr m) :
    Tracked policy msisdn calls x j tr (m.otp msisdn) := by
  have h' : OtpHistory sha256 policy msisdn calls m₀ ([] ++ tr) m := h
  refine after_effects hd h' ?_ fun _ _ _ _ _ _ heff ht => ht.step hd hx heff
  exact ⟨fun c hc hid => absurd hid (hd.stored j x c hx hc), by simp, by simp, fun _ => rfl⟩

theorem gone_of_history (hd : Distinct sha256 policy msisdn calls m₀)
    (hx : (calls j).issues sha256 policy msisdn = some x)
    (h : OtpHistory sha256 policy msisdn calls m₀ (pre ++ post) m) (hissued : Issued x j pre)
    (hgone : Gone x ((replay MemoryStore.exec m₀ pre).otp msisdn)) : Gone x (m.otp msisdn) :=
  after_effects (P := fun _ stored => Gone x stored) hd h hgone
    fun _ _ _ _ _ hp heff hg => hg.step hd hx (hissued.mono hp) heff

theorem spent_of_history (hd : Distinct sha256 policy msisdn calls m₀)
    (hx : (calls j).issues sha256 policy msisdn = some x)
    (h : OtpHistory sha256 policy msisdn calls m₀ (pre ++ post) m) (hissued : Issued x j pre)
    (hspent : Spent policy x ((replay MemoryStore.exec m₀ pre).otp msisdn)) :
    Spent policy x (m.otp msisdn) ∧ ∀ e ∈ post, judged policy calls x e = false := by
  have hall : Tracked policy msisdn calls x j (pre ++ post) (m.otp msisdn) ∧
      Spent policy x (m.otp msisdn) ∧
      (pre ++ post).countP (judged policy calls x) = pre.countP (judged policy calls x) := by
    refine after_effects (P := fun tr stored => Tracked policy msisdn calls x j tr stored ∧
      Spent policy x stored ∧ tr.countP (judged policy calls x) = pre.countP (judged policy calls x))
      hd h ⟨tracked_of_history hd hx h.of_append, hspent, rfl⟩ ?_
    rintro tr before i ev after hp heff ⟨ht, hs, hcount⟩
    obtain ⟨hs', hnot⟩ := hs.step hd hx (hissued.mono hp) ht heff
    exact ⟨ht.step hd hx heff, hs', by simp [hnot, hcount]⟩
  obtain ⟨-, hs, hcount⟩ := hall
  refine ⟨hs, fun e he => ?_⟩
  rw [List.countP_append, Nat.add_eq_left, List.countP_eq_zero] at hcount
  simpa using hcount e he

theorem effect_of_history {i : ι} {ev : StoreEvent} (hd : Distinct sha256 policy msisdn calls m₀)
    (h : OtpHistory sha256 policy msisdn calls m₀ (pre ++ [(i, ev)]) m) :
    Effect sha256 policy msisdn calls pre i ((replay MemoryStore.exec m₀ pre).otp msisdn) ev
      (m.otp msisdn) := by
  obtain ⟨hpre, hg, hans⟩ := h.snoc_inv
  have heff := effect_of_guard (keyed_of_history hd hpre) hg
  rwa [← hans, ← replay_snoc, ← h.eq_replay] at heff

theorem Effect.replace_inv {i : ι} {before after : Option OtpChallenge} {e : OtpChallenge}
    {r : Option OtpChallenge} {swapped : Bool}
    (h : Effect sha256 policy msisdn calls tr i before ⟨.replaceOtp e r, swapped⟩ after) :
    (swapped = false ∧ after = before) ∨
      swapped = true ∧ after = r ∧ ∃ c, before = some c ∧ unchanged c e := by
  generalize hev : (⟨.replaceOtp e r, swapped⟩ : StoreEvent) = ev at h
  cases h with
  | read => cases hev
  | refused => cases hev
  | issued => cases hev
  | lost => cases hev; exact Or.inl ⟨rfl, rfl⟩
  | replaced hc hu hread =>
    injection hev with hop hswapped
    injection hop with he hr
    subst he hr
    exact Or.inr ⟨hswapped, rfl, _, hc, hu⟩

theorem spent_of_replace {i : ι} {e : OtpChallenge} {r : Option OtpChallenge} {swapped : Bool}
    (hd : Distinct sha256 policy msisdn calls m₀)
    (hx : (calls j).issues sha256 policy msisdn = some x)
    (h : OtpHistory sha256 policy msisdn calls m₀ (pre ++ [(i, ⟨.replaceOtp e r, swapped⟩)]) m)
    (hid : e.challengeId = x.challengeId) (htook : swapped → r = none)
    (hfound : swapped = false → policy.maxAttempts ≤ e.attempts) :
    Issued x j pre ∧ Spent policy x (m.otp msisdn) ∧ (swapped → Gone x (m.otp msisdn)) := by
  obtain ⟨hpre, ⟨-, hread, -⟩, -⟩ := h.snoc_inv
  have ht := tracked_of_history hd hx hpre
  rw [mem_ofThread] at hread
  obtain ⟨hissued, -, hle⟩ := ht.read i e hread hid
  refine ⟨hissued, ?_⟩
  rcases (effect_of_history hd h).replace_inv with ⟨rfl, hafter⟩ | ⟨rfl, hafter, -⟩ <;> rw [hafter]
  · refine ⟨fun c hc hcid => Or.inr ?_, nofun⟩
    have hattempts := (ht.stored c hc hcid).2.2
    have hmax := hfound rfl
    omega
  · rw [htook rfl]
    exact ⟨nofun, fun _ => nofun⟩

theorem mem_of_endedOn {i : ι} {e : OtpChallenge} {r : Option OtpChallenge} {swapped : Bool}
    (h : Call.EndedOn (ofThread i tr) e r swapped) :
    (i, (⟨.replaceOtp e r, swapped⟩ : StoreEvent)) ∈ tr :=
  mem_ofThread.mp (List.mem_of_getLast? h)

theorem expires_of_judges {call : Call} {e : OtpChallenge} (hj : call.judges policy e)
    (hg : call.guesses sha256 msisdn e) : ∃ otp now clock, call = .verify otp now clock ∧
      e.otpHash = hashOtp sha256 msisdn otp ∧ clock.orNow now < e.expiresAt := by
  cases call with
  | verify otp now clock =>
    refine ⟨otp, now, clock, rfl, of_decide_eq_true hg, ?_⟩
    simp only [Call.judges, OtpChallenge.expired, Clock.orNow_some (clock.orNow_ne_zero now),
      Bool.and_eq_true, Bool.not_eq_true', decide_eq_false_iff_not, Int.not_le] at hj
    exact hj.1.2
  | create => cases hj
  | discard => cases hj

theorem endedOn_inj {h : List StoreEvent} {e e' : OtpChallenge} {r r' : Option OtpChallenge}
    {swapped swapped' : Bool} (hended : Call.EndedOn h e r swapped)
    (hended' : Call.EndedOn h e' r' swapped') : e = e' ∧ r = r' ∧ swapped = swapped' := by
  simpa [Call.EndedOn, and_assoc] using hended.symm.trans hended'

/-- A call that verified or exhausted the challenge ended on a deletion that took it, or
on one that lost it but had found its attempts used up. -/
theorem endedOn_of_ended {i : ι} {c : Config ι StoreOp StoreOp.Answer MemoryStore Result}
    (hpost : (c.threads i).Obeys ((calls i).guard sha256 policy msisdn)
      ((calls i).Post sha256 policy msisdn) (ofThread i c.trace))
    (h : Ended x c i .verified ∨ Ended x c i .exhausted) :
    ∃ e r swapped, Call.EndedOn (ofThread i c.trace) e r swapped ∧
      e.challengeId = x.challengeId ∧ (swapped → r = none) ∧
      (swapped = false → policy.maxAttempts ≤ e.attempts) := by
  rcases h with ⟨hresult, e, r, swapped, hended, hid⟩ | ⟨hresult, e, r, swapped, hended, hid⟩ <;>
    rw [hresult] at hpost <;> refine ⟨e, r, swapped, hended, hid, ?_⟩
  · obtain ⟨e', hended', -⟩ := hpost.verified rfl
    obtain ⟨rfl, rfl, rfl⟩ := endedOn_inj hended hended'
    exact ⟨fun _ => rfl, nofun⟩
  · obtain ⟨e', r', swapped', hended', htook, hfound⟩ := hpost.exhausted rfl
    obtain ⟨rfl, rfl, rfl⟩ := endedOn_inj hended hended'
    exact ⟨htook, hfound⟩

theorem took_of_ended {i : ι} {c : Config ι StoreOp StoreOp.Answer MemoryStore Result}
    (hpost : (c.threads i).Obeys ((calls i).guard sha256 policy msisdn)
      ((calls i).Post sha256 policy msisdn) (ofThread i c.trace))
    (h : Ended x c i .verified) : ∃ e, e.challengeId = x.challengeId ∧
      (i, (⟨.replaceOtp e none, true⟩ : StoreEvent)) ∈ c.trace ∧
      (calls i).judges policy e ∧ (calls i).guesses sha256 msisdn e := by
  obtain ⟨hresult, e, r, swapped, hended, hid⟩ := h
  rw [hresult] at hpost
  obtain ⟨e', hended', hj, hg⟩ := hpost.verified rfl
  obtain ⟨rfl, rfl, rfl⟩ := endedOn_inj hended hended'
  exact ⟨e, hid, mem_of_endedOn hended', hj, hg⟩

theorem not_taken_twice {i i' : ι} {e e' : OtpChallenge}
    (hd : Distinct sha256 policy msisdn calls m₀)
    (hx : (calls j).issues sha256 policy msisdn = some x)
    (h : OtpHistory sha256 policy msisdn calls m₀
      (pre ++ (i, ⟨.replaceOtp e none, true⟩) :: post) m)
    (hid : e.challengeId = x.challengeId) (hid' : e'.challengeId = x.challengeId)
    (hmem : (i', (⟨.replaceOtp e' none, true⟩ : StoreEvent)) ∈ post) :
    (calls i').judges policy e' = false := by
  rw [← List.singleton_append, ← List.append_assoc] at h
  obtain ⟨hissued, hspent, -⟩ := spent_of_replace hd hx h.of_append hid (fun _ => rfl) nofun
  have hnot := (spent_of_history hd hx h hissued.snoc hspent).2 _ hmem
  simpa [hid'] using hnot

theorem took_of_verified {i : ι} {c : Config ι StoreOp StoreOp.Answer MemoryStore Result}
    (hpost : (c.threads i).Obeys ((calls i).guard sha256 policy msisdn)
      ((calls i).Post sha256 policy msisdn) (ofThread i c.trace))
    (h : c.threads i = .result (.outcome .verified)) :
    ∃ otp now clock e, calls i = .verify otp now clock ∧
      Call.EndedOn (ofThread i c.trace) e none true ∧
      e.otpHash = hashOtp sha256 msisdn otp ∧ clock.orNow now < e.expiresAt := by
  rw [h] at hpost
  obtain ⟨e, hended, hj, hg⟩ := hpost.verified rfl
  obtain ⟨otp, now, clock, hcall, hhash, hexpires⟩ := expires_of_judges hj hg
  exact ⟨otp, now, clock, e, hcall, hended, hhash, hexpires⟩

/-- Any interleaving of OTP calls uses each issued challenge at most once, a call returns VERIFIED
only when its last operation took a challenge with the right code and in time, and a call that
loses all its rounds returns MISMATCH. -/
theorem otp_single_use (sha256 : String → String) (policy : OtpPolicy) (msisdn : String)
    (calls : ι → Call) (m₀ : MemoryStore) (hd : Distinct sha256 policy msisdn calls m₀)
    (schedule : List ι) :
    (∀ j x, (calls j).issues sha256 policy msisdn = some x →
      SingleUse sha256 policy msisdn calls x m₀
        (runOf sha256 policy msisdn calls m₀ schedule) j) ∧
    (∀ i, (runOf sha256 policy msisdn calls m₀ schedule).threads i = .result (.outcome .verified) →
      ∃ otp now clock e, calls i = .verify otp now clock ∧
        Call.EndedOn (ofThread i (runOf sha256 policy msisdn calls m₀ schedule).trace) e none true ∧
        e.otpHash = hashOtp sha256 msisdn otp ∧ clock.orNow now < e.expiresAt) ∧
    ∀ i, (ofThread i (runOf sha256 policy msisdn calls m₀ schedule).trace).countP
        ((calls i).lost policy) = verifyRounds →
      (runOf sha256 policy msisdn calls m₀ schedule).threads i = .result (.outcome .mismatch) := by
  obtain ⟨hist, hobeys⟩ := run_history MemoryStore.exec m₀
    (fun i => program_obeys sha256 policy msisdn (calls i)) schedule
  change OtpHistory sha256 policy msisdn calls m₀
    (runOf sha256 policy msisdn calls m₀ schedule).trace
    (runOf sha256 policy msisdn calls m₀ schedule).shared at hist
  generalize hc : runOf sha256 policy msisdn calls m₀ schedule = c at hist ⊢
  rw [runOf] at hc
  rw [hc] at hobeys
  refine ⟨fun j x hx => ?_, fun i hi => took_of_verified (hobeys i) hi, fun i hlost => ?_⟩
  · refine ⟨fun i i' hi hi' => ?_, fun i hi => ?_, (tracked_of_history hd hx hist).bound,
      fun i hi => ?_, fun pre post htr hissued hspent => ?_, fun pre post htr hissued hgone => ?_⟩
    -- two that took the challenge would have replaced it one after the other
    · obtain ⟨e, hid, hmem, hj, -⟩ := took_of_ended (hobeys i) hi
      obtain ⟨e', hid', hmem', hj', -⟩ := took_of_ended (hobeys i') hi'
      by_contra hne
      rcases split_two hmem hmem' (fun h => hne (congrArg Prod.fst h)) with
        ⟨pre, post, htr, hpost⟩ | ⟨pre, post, htr, hpost⟩ <;> rw [htr] at hist
      · exact absurd hj' (by simp [not_taken_twice hd hx hist hid hid' hpost])
      · exact absurd hj (by simp [not_taken_twice hd hx hist hid' hid hpost])
    -- the guess is judged against the challenge as it was issued
    · obtain ⟨e, hid, hmem, hj, hg⟩ := took_of_ended (hobeys i) hi
      obtain ⟨otp, now, clock, hcall, hhash, hexpires⟩ := expires_of_judges hj hg
      obtain ⟨pre, post, htr⟩ := List.append_of_mem hmem
      rw [htr] at hist
      obtain ⟨hpre, ⟨-, hread, -⟩, -⟩ := hist.at
      rw [mem_ofThread] at hread
      have hfields := ((tracked_of_history hd hx hpre).read i e hread hid).2.1
      rw [hfields] at hhash hexpires
      exact ⟨otp, now, clock, hcall, hhash, hexpires⟩
    · obtain ⟨e, r, swapped, hended, hid, htook, hfound⟩ := endedOn_of_ended (hobeys i) hi
      obtain ⟨pre, post, htr⟩ := List.append_of_mem (mem_of_endedOn hended)
      rw [htr, ← List.singleton_append, ← List.append_assoc] at hist
      obtain ⟨hissued, hspent, -⟩ := spent_of_replace hd hx hist.of_append hid htook hfound
      exact (spent_of_history hd hx hist hissued.snoc hspent).1
    · rw [htr] at hist
      exact (spent_of_history hd hx hist hissued hspent).2
    · rw [htr] at hist
      exact gone_of_history hd hx hist hissued hgone
  · have hi := hobeys i
    cases hthread : c.threads i with
    | result a =>
      rw [hthread] at hi
      rw [hi.lost_all hlost]
    | call op next =>
      rw [hthread] at hi
      exact absurd hlost (Nat.ne_of_lt hi.1.1)

/-- A challenge issued, and its code tried by two calls at once. -/
theorem otp_single_use_of_two_guesses :
    let calls : Fin 3 → Call := ![
      .create "450051234567890" none none ⟨1700000000, by decide⟩ "123456" "c1",
      .verify "123456" none ⟨1700000060, by decide⟩, .verify "123456" none ⟨1700000060, by decide⟩]
    SingleUse id {} "821012345678" calls
      (newChallenge id {} "821012345678" "450051234567890" none 1700000000 "123456" "c1") {}
      (runOf id {} "821012345678" calls {} [0, 1, 2, 1, 2, 2]) 0 := by
  intro calls
  have hissues : ∀ i a, (calls i).issues id {} "821012345678" = some a → i = 0 ∧
      a.challengeId = "c1" := by
    intro i a hi
    match i, hi with
    | 0, hi => exact ⟨rfl, by cases hi; rfl⟩
    | 1, hi => cases hi
    | 2, hi => cases hi
  have hd : Distinct id {} "821012345678" calls {} :=
    ⟨fun i j a b hi hj _ => (hissues i a hi).1.trans (hissues j b hj).1.symm,
      fun i a hi => by simp [(hissues i a hi).2], fun _ _ _ _ h => (nomatch h),
      fun _ h => (nomatch h)⟩
  have hx : (calls 0).issues id {} "821012345678" = some
    (newChallenge id {} "821012345678" "450051234567890" none 1700000000 "123456" "c1") := rfl
  exact (otp_single_use id {} "821012345678" calls {} hd [0, 1, 2, 1, 2, 2]).1 0 _ hx

end Run

end Acs.Otp
