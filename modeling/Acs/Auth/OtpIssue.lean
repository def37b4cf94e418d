import Mathlib
import Acs.Data.SlidingWindow
import Acs.Interleave.Runs
import Acs.Store.DynamoDb
import Acs.Auth.OtpProtocol

/-! `DynamoDbStore.issue_otp` among other `issue_otp` and `replace_otp` calls: its transaction
commits where `MemoryStore.issue_otp` would have accepted. -/

namespace Acs.OtpIssue
open Interleave Function DynamoDb DynamoTable

inductive Call
  | issue (challenge : OtpChallenge) (cooldownSeconds maxSendsPerDay now : Int) (clock : Clock)
      (faults : Nat → Option ClientError)
  | replace (expected : OtpChallenge) (replacement : Option OtpChallenge)

inductive Result
  | issued (r : Except StoreError (Option OtpIssueRefused))
  | replaced (b : Bool)

abbrev ItemEvent := Event ItemOp.Answer

def commits : ItemEvent → Bool
  | ⟨.transactIssue .., .ok ()⟩ => true
  | _ => false

namespace Call

def program : Call → ItemProgram Result
  | issue challenge cooldownSeconds maxSendsPerDay now clock faults => do
    return .issued (← issueOtp challenge cooldownSeconds maxSendsPerDay now clock faults)
  | replace expected replacement => do
    return .replaced (← replaceOtp expected replacement)

/-- The operations of a call: `issue_otp` writes only what it computed from a quota and then a
challenge it has just read, and nothing after it has committed. -/
def guard : Call → List ItemEvent → ItemOp → Prop
  | issue challenge cooldownSeconds maxSendsPerDay now clock _, h, op =>
    (∀ e ∈ h, commits e = false) ∧
      match op with
      | .getQuota _ | .getChallenge _ => True
      | .transactIssue msisdn quotaItem version item existing _ =>
        ∃ h' quota, h = h' ++ [⟨.getQuota msisdn, quota⟩, ⟨.getChallenge msisdn, existing⟩] ∧
          MemoryStore.issueRefusal existing (MemoryStore.recentSends (OtpQuota.history quota) now)
            cooldownSeconds maxSendsPerDay now clock = none ∧
          msisdn = challenge.msisdn ∧ item = challenge ∧ quotaItem = quotaPut quota now ∧
          version = quotaVersion quota
      | _ => False
  | replace expected replacement, _, op =>
    op = .replaceChallenge expected.msisdn expected replacement

def Post : Call → List ItemEvent → Result → Prop
  | issue .., h, .issued (.ok none) =>
    ∃ h' e, h = h' ++ [e] ∧ commits e ∧ ∀ e' ∈ h', commits e' = false
  | issue .., h, .issued _ => ∀ e ∈ h, commits e = false
  | issue .., _, .replaced _ => False
  | replace .., _, _ => True

end Call

theorem issueFrom_obeys (challenge : OtpChallenge) (cooldownSeconds maxSendsPerDay now : Int)
    (clock : Clock) (faults : Nat → Option ClientError) {rounds : Nat} {h : List ItemEvent}
    (hnone : ∀ e ∈ h, commits e = false) :
    (issueFrom challenge cooldownSeconds maxSendsPerDay now clock faults rounds).Obeys
      (Call.issue challenge cooldownSeconds maxSendsPerDay now clock faults).guard
      (fun h r => (Call.issue challenge cooldownSeconds maxSendsPerDay now clock faults).Post h
        (.issued r)) h := by
  induction rounds generalizing h with
  | zero => exact hnone
  | succ rounds ih =>
    refine ⟨⟨hnone, trivial⟩, fun quota => ?_⟩
    have hquota : ∀ e ∈ h ++ [⟨.getQuota challenge.msisdn, quota⟩], commits e = false := by
      simpa [or_imp, forall_and, commits] using hnone
    refine ⟨⟨hquota, trivial⟩, fun existing => ?_⟩
    have hread : ∀ e ∈ h ++ [⟨.getQuota challenge.msisdn, quota⟩] ++
        [⟨.getChallenge challenge.msisdn, existing⟩], commits e = false := by
      simpa [or_imp, forall_and, commits] using hnone
    dsimp only [Program.bind]
    cases hrefusal : MemoryStore.issueRefusal existing
        (MemoryStore.recentSends (OtpQuota.history quota) now) cooldownSeconds maxSendsPerDay now
        clock with
    | some refused => exact hread
    | none =>
      refine ⟨⟨hread, h, quota, by simp, hrefusal, rfl, rfl, rfl, rfl⟩, fun ans => ?_⟩
      cases ans with
      | ok => exact ⟨_, _, rfl, rfl, hread⟩
      | error e =>
        have hlost : ∀ e' ∈ h ++ [⟨.getQuota challenge.msisdn, quota⟩] ++
            [⟨.getChallenge challenge.msisdn, existing⟩] ++
            [⟨.transactIssue challenge.msisdn (quotaPut quota now) (quotaVersion quota) challenge
              existing (faults rounds), .error e⟩], commits e' = false := by
          simpa [or_imp, forall_and, commits] using hnone
        dsimp only [Program.bind]
        split_ifs
        · exact ih hlost
        · exact hlost

theorem program_obeys (call : Call) : call.program.Obeys call.guard call.Post [] := by
  cases call with
  | issue challenge cooldownSeconds maxSendsPerDay now clock faults =>
    exact (issueFrom_obeys challenge cooldownSeconds maxSendsPerDay now clock faults
      (by simp)).bind
  | replace expected replacement => exact ⟨rfl, fun _ => trivial⟩

/-! ### How the two items of one MSISDN change -/

def Bumped (q q' : Option OtpQuota) : Prop :=
  ∃ v', q'.bind (·.version) = some v' ∧ ∀ a ∈ q, ∃ v, a.version = some v ∧ v < v'

def Aged (c c' : Option OtpChallenge) : Prop := ∀ b ∈ c', ∃ a ∈ c, b = a ∨ a.attempts < b.attempts

def Later (msisdn : String) (t t' : DynamoTable) : Prop :=
  Bumped (t.quotas msisdn) (t'.quotas msisdn) ∨
    t'.quotas msisdn = t.quotas msisdn ∧ Aged (t.challenges msisdn) (t'.challenges msisdn)

theorem Bumped.trans {q q' q'' : Option OtpQuota} (h : Bumped q q') (h' : Bumped q' q'') :
    Bumped q q'' := by
  obtain ⟨v', hv', hlt⟩ := h
  obtain ⟨v'', hv'', hlt'⟩ := h'
  refine ⟨v'', hv'', fun a ha => ?_⟩
  obtain ⟨v, hv, hvv'⟩ := hlt a ha
  obtain ⟨b, rfl, hb⟩ := Option.bind_eq_some_iff.mp hv'
  obtain ⟨w, hw, hww⟩ := hlt' b rfl
  obtain rfl : v' = w := Option.some.inj (hb.symm.trans hw)
  exact ⟨v, hv, Int.lt_trans hvv' hww⟩

theorem Aged.refl (c : Option OtpChallenge) : Aged c c := fun b hb => ⟨b, hb, Or.inl rfl⟩

theorem Aged.trans {c c' c'' : Option OtpChallenge} (h : Aged c c') (h' : Aged c' c'') :
    Aged c c'' := by
  intro d hd
  obtain ⟨b, hb, hbd⟩ := h' d hd
  obtain ⟨a, ha, hab⟩ := h b hb
  refine ⟨a, ha, ?_⟩
  rcases hbd with rfl | hbd
  · exact hab
  · rcases hab with rfl | hab
    · exact Or.inr hbd
    · exact Or.inr (Int.lt_trans hab hbd)

theorem Later.refl (msisdn : String) (t : DynamoTable) : Later msisdn t t :=
  Or.inr ⟨rfl, Aged.refl _⟩

theorem Later.trans {msisdn : String} {t t' t'' : DynamoTable} (h : Later msisdn t t')
    (h' : Later msisdn t' t'') : Later msisdn t t'' := by
  rcases h with h | ⟨hq, hc⟩ <;> rcases h' with h' | ⟨hq', hc'⟩
  · exact Or.inl (h.trans h')
  · exact Or.inl (hq' ▸ h)
  · exact Or.inl (hq ▸ h')
  · exact Or.inr ⟨hq'.trans hq, hc.trans hc'⟩

/-- If the version read is still there, no send was accepted, and a challenge that still has its
attempts is the one read. -/
theorem Later.pinned {msisdn : String} {t₁ t₂ t₃ : DynamoTable} (h₁ : Later msisdn t₁ t₂)
    (h₂ : Later msisdn t₂ t₃) (hquota : ¬ Bumped (t₁.quotas msisdn) (t₃.quotas msisdn)) :
    t₃.quotas msisdn = t₁.quotas msisdn ∧ Aged (t₂.challenges msisdn) (t₃.challenges msisdn) := by
  rcases h₁ with h₁ | ⟨hq₁, -⟩ <;> rcases h₂ with h₂ | ⟨hq₂, hc₂⟩
  · exact absurd (h₁.trans h₂) hquota
  · exact absurd (hq₂ ▸ h₁) hquota
  · exact absurd (hq₁ ▸ h₂) hquota
  · exact ⟨hq₂.trans hq₁, hc₂⟩

/-! ### What one operation does -/

/-- The call never puts back a challenge with no more attempts than the one it expects, as
`verify_challenge` and `discard_challenge` never do. -/
def Call.Raises : Call → Prop
  | .issue .. => True
  | .replace expected replacement => ∀ c ∈ replacement, expected.attempts < c.attempts

/-- What `MemoryStore` would hold in the place of the table. -/
def view (t : DynamoTable) : MemoryStore :=
  { subscribers := t.subscribers, msisdnIndex := t.msisdns, otp := t.challenges
    otpSends := OtpQuota.history ∘ t.quotas, tokens := t.tokens, devices := t.devices }

variable {gsi : Gsi} {t t' : DynamoTable} {msisdn : String}

@[simp] theorem commits_transactIssue_ok (m : String) (quotaItem : OtpQuota) (version : Option Int)
    (item : OtpChallenge) (existing : Option OtpChallenge) (fault : Option ClientError) :
    commits ⟨.transactIssue m quotaItem version item existing fault, .ok ()⟩ = true := rfl

@[simp] theorem commits_transactIssue_error (m : String) (quotaItem : OtpQuota)
    (version : Option Int) (item : OtpChallenge) (existing : Option OtpChallenge)
    (fault : Option ClientError) (e : ClientError) :
    commits ⟨.transactIssue m quotaItem version item existing fault, .error e⟩ = false := rfl

theorem eq_of_commits {e : ItemEvent} (h : commits e) :
    ∃ msisdn quotaItem version item existing fault,
      e = ⟨.transactIssue msisdn quotaItem version item existing fault, .ok ()⟩ := by
  unfold commits at h
  split at h
  · exact ⟨_, _, _, _, _, _, rfl⟩
  · cases h

theorem transactIssue_ok {quotaItem : OtpQuota} {version : Option Int} {item : OtpChallenge}
    {existing : Option OtpChallenge} {fault : Option ClientError}
    (h : exec gsi (.transactIssue msisdn quotaItem version item existing fault) t = (.ok (), t')) :
    quotaCondition version (t.quotas msisdn) ∧
      challengeCondition existing (t.challenges msisdn) ∧
      t' = t.putIssue msisdn quotaItem item := by
  cases fault with
  | some e => cases h
  | none =>
    simp only [exec, DynamoTable.transactIssue] at h
    split_ifs at h with hmet
    · rw [Bool.and_eq_true] at hmet
      cases h
      exact ⟨hmet.1, hmet.2, rfl⟩
    · cases h

theorem transactIssue_error {quotaItem : OtpQuota} {version : Option Int} {item : OtpChallenge}
    {existing : Option OtpChallenge} {fault : Option ClientError} {e : ClientError}
    (h : exec gsi (.transactIssue msisdn quotaItem version item existing fault) t = (.error e, t')) :
    t' = t := by
  cases fault with
  | some e => cases h; rfl
  | none =>
    simp only [exec, DynamoTable.transactIssue] at h
    split_ifs at h
    · cases h
    · cases h
      rfl

theorem view_replaceChallenge (expected : OtpChallenge) (replacement : Option OtpChallenge)
    (t : DynamoTable) :
    (view t).replaceOtp expected replacement =
      ((exec gsi (.replaceChallenge expected.msisdn expected replacement) t).1,
        view (exec gsi (.replaceChallenge expected.msisdn expected replacement) t).2) := by
  simp only [exec, MemoryStore.replaceOtp, replaceChallenge, view, sameChallenge_eq_unchanged]
  cases t.challenges expected.msisdn with
  | none => rfl
  | some current =>
    dsimp only
    split_ifs <;> rfl

theorem attempts_of_sameChallenge {e c : OtpChallenge} (h : sameChallenge e c) :
    c.attempts = e.attempts := by
  unfold sameChallenge at h
  split_ifs at h <;> simp only [Bool.and_eq_true, decide_eq_true_eq] at h <;> exact h.2

theorem aged_replaceChallenge {expected : OtpChallenge} {replacement : Option OtpChallenge}
    (hraises : ∀ c ∈ replacement, expected.attempts < c.attempts) (m : String) :
    Aged (t.challenges msisdn) ((replaceChallenge t m expected replacement).2.challenges msisdn) := by
  unfold replaceChallenge
  cases hc : t.challenges m with
  | none => exact Aged.refl _
  | some current =>
    dsimp only
    split_ifs with hsame
    · by_cases hm : msisdn = m
      · subst hm
        simp only [update_self, hc]
        intro b hb
        have hlt := hraises b hb
        rw [← attempts_of_sameChallenge hsame] at hlt
        exact ⟨current, rfl, Or.inr hlt⟩
      · simp only [update_of_ne hm]
        exact Aged.refl _
    · exact Aged.refl _

theorem bumped_of_quotaCondition {quota : Option OtpQuota} {stored : Option OtpQuota} {now : Int}
    (h : quotaCondition (quotaVersion quota) stored) : Bumped stored (some (quotaPut quota now)) := by
  refine ⟨OtpQuota.readVersion quota + 1, rfl, fun a ha => ?_⟩
  obtain rfl : stored = some a := ha
  simp only [quotaCondition, ne_eq, decide_not, Bool.and_eq_true, decide_eq_true_eq] at h
  cases quota with
  | none => exact absurd h.2 (by simpa [quotaVersion] using h.1)
  | some q => exact ⟨_, h.2, Int.lt_succ _⟩

theorem later_of_guard {ι : Type} {calls : ι → Call} {i : ι} {h : List ItemEvent} {op : ItemOp}
    (hraises : (calls i).Raises) (hg : (calls i).guard h op) :
    Later msisdn t (exec gsi op t).2 := by
  cases hcall : calls i with
  | issue challenge cooldownSeconds maxSendsPerDay now clock faults =>
    rw [hcall] at hg
    obtain ⟨-, hg⟩ := hg
    cases op with
    | getQuota => exact Later.refl _ _
    | getChallenge => exact Later.refl _ _
    | transactIssue m quotaItem version item existing fault =>
      obtain ⟨-, quota, -, -, -, -, rfl, rfl⟩ := hg
      rcases hexec : exec gsi (.transactIssue m (quotaPut quota now) (quotaVersion quota) item
        existing fault) t with ⟨ans, t'⟩
      cases ans with
      | error e => exact transactIssue_error hexec ▸ Later.refl _ _
      | ok =>
        obtain ⟨hquota, -, rfl⟩ := transactIssue_ok hexec
        by_cases hm : m = msisdn
        · subst hm
          exact Or.inl (by simpa using bumped_of_quotaCondition hquota)
        · refine Or.inr ⟨by simp [update_of_ne (Ne.symm hm)], ?_⟩
          simpa [update_of_ne (Ne.symm hm)] using Aged.refl _
    | _ => exact hg.elim
  | replace expected replacement =>
    rw [hcall] at hg hraises
    obtain rfl := hg
    refine Or.inr ⟨?_, aged_replaceChallenge hraises expected.msisdn⟩
    simp only [exec, replaceChallenge]
    cases t.challenges expected.msisdn with
    | none => rfl
    | some current =>
      dsimp only
      split_ifs <;> rfl

/-! ### The commit -/

section Run
variable {ι : Type} [DecidableEq ι] {calls : ι → Call} {t₀ s : DynamoTable}
  {pre post : List (ι × ItemEvent)} {i : ι}

abbrev IssueHistory (gsi : Gsi) (calls : ι → Call) (t₀ : DynamoTable) (tr : List (ι × ItemEvent))
    (t : DynamoTable) : Prop :=
  History (exec gsi) (fun i => (calls i).guard) t₀ tr t

theorem later_of_history (msisdn : String) (hraises : ∀ i, (calls i).Raises)
    (h : IssueHistory gsi calls t₀ (pre ++ post) s) :
    Later msisdn (replay (exec gsi) t₀ pre) s :=
  h.rely (Later.refl msisdn) (fun _ _ _ => Later.trans) fun _ _ i _ _ hg =>
    later_of_guard (hraises i) hg

theorem quota_eq_of_not_bumped {quota stored : Option OtpQuota}
    (h : quotaCondition (quotaVersion quota) stored) : ¬ Bumped quota stored := by
  rintro ⟨v', hv', hlt⟩
  obtain ⟨b, rfl, hb⟩ := Option.bind_eq_some_iff.mp hv'
  simp only [quotaCondition, hb, Bool.and_eq_true, decide_eq_true_eq] at h
  cases quota with
  | none => exact absurd h.2 nofun
  | some q =>
    obtain ⟨v, hv, hlt⟩ := hlt q rfl
    rw [quotaVersion, Option.map_some, OtpQuota.readVersion, hv] at h
    obtain rfl : v' = v := Option.some.inj h.2
    exact Int.lt_irrefl _ hlt

theorem challenge_eq_of_aged {existing stored : Option OtpChallenge} (haged : Aged existing stored)
    (h : challengeCondition existing stored) : stored = existing := by
  cases existing with
  | none => exact of_decide_eq_true h
  | some e =>
    cases stored with
    | none => cases h
    | some c =>
      obtain ⟨a, ha, hca⟩ := haged c rfl
      cases ha
      rcases hca with rfl | hlt
      · rfl
      · exact absurd (attempts_of_sameChallenge h) (Int.ne_of_gt hlt)

theorem reads_of_commit {quotaItem : OtpQuota} {version : Option Int} {item : OtpChallenge}
    {existing : Option OtpChallenge} {fault : Option ClientError}
    (hraises : ∀ i, (calls i).Raises)
    (h : IssueHistory gsi calls t₀
      (pre ++ (i, ⟨.transactIssue msisdn quotaItem version item existing fault, .ok ()⟩) :: post) s) :
    ∃ cooldownSeconds maxSendsPerDay now clock faults,
      calls i = .issue item cooldownSeconds maxSendsPerDay now clock faults ∧
      msisdn = item.msisdn ∧
      MemoryStore.issueRefusal ((replay (exec gsi) t₀ pre).challenges msisdn)
        (MemoryStore.recentSends (OtpQuota.history ((replay (exec gsi) t₀ pre).quotas msisdn)) now)
        cooldownSeconds maxSendsPerDay now clock = none ∧
      replay (exec gsi) t₀ (pre ++
          [(i, ⟨.transactIssue msisdn quotaItem version item existing fault, .ok ()⟩)]) =
        (replay (exec gsi) t₀ pre).putIssue msisdn
          (quotaPut ((replay (exec gsi) t₀ pre).quotas msisdn) now) item := by
  obtain ⟨hpre, hg, hans⟩ := h.at
  cases hcall : calls i with
  | replace expected replacement =>
    simp only [hcall, Call.guard] at hg
    cases hg
  | issue challenge cooldownSeconds maxSendsPerDay now clock faults =>
    simp only [hcall, Call.guard] at hg
    obtain ⟨-, h', quota, hlast, haccepts, rfl, rfl, rfl, rfl⟩ := hg
    obtain ⟨hquota, hchallenge, hnext⟩ := transactIssue_ok (Prod.ext hans.symm rfl)
    -- where the quota was read, and after it the challenge
    obtain ⟨p₁, p₂, hsplit, -, hp₂⟩ := split_of_ofThread hlast
    rw [← List.nil_append [_]] at hp₂
    obtain ⟨p₃, p₄, rfl, -, -⟩ := split_of_ofThread hp₂
    rw [hsplit] at hpre
    have hreadQuota := hpre.at.2.2
    have hpre' := hpre
    rw [← List.cons_append, ← List.append_assoc] at hpre'
    have hreadChallenge := hpre'.at.2.2
    have h₁ := later_of_history item.msisdn hraises hpre'.of_append
    have h₂ := later_of_history item.msisdn hraises hpre'
    dsimp only [exec] at hreadQuota hreadChallenge
    rw [List.append_assoc, List.cons_append, ← hsplit] at h₂
    obtain ⟨hq, hc⟩ := h₁.pinned h₂ (hreadQuota ▸ quota_eq_of_not_bumped hquota)
    have hexisting := challenge_eq_of_aged (hreadChallenge ▸ hc) hchallenge
    have hquotaEq := hq.trans hreadQuota.symm
    refine ⟨_, _, _, _, _, rfl, rfl, ?_, ?_⟩
    · rw [hexisting, hquotaEq]
      exact haccepts
    · rw [replay_snoc, hquotaEq]
      exact hnext

theorem view_of_commit {t : DynamoTable} {item : OtpChallenge}
    {cooldownSeconds maxSendsPerDay now : Int} {clock : Clock}
    (h : MemoryStore.issueRefusal (t.challenges item.msisdn)
      (MemoryStore.recentSends (OtpQuota.history (t.quotas item.msisdn)) now) cooldownSeconds
      maxSendsPerDay now clock = none) :
    (view t).issueOtp item cooldownSeconds maxSendsPerDay now clock =
      (none, view (t.putIssue item.msisdn (quotaPut (t.quotas item.msisdn) now) item)) := by
  simp only [MemoryStore.issueOtp, view, comp_apply, h, putIssue_quotas, comp_update]
  rfl

theorem exec_of_not_commits {h : List ItemEvent} {op : ItemOp} {call : Call}
    (hissue : ∀ e r, call ≠ .replace e r) (hg : call.guard h op)
    (hnot : commits ⟨op, (exec gsi op t).1⟩ = false) : (exec gsi op t).2 = t := by
  cases call with
  | replace e r => exact absurd rfl (hissue e r)
  | issue =>
    obtain ⟨-, hg⟩ := hg
    cases op with
    | getQuota => rfl
    | getChallenge => rfl
    | transactIssue m quotaItem version item existing fault =>
      rcases hexec : exec gsi (.transactIssue m quotaItem version item existing fault) t with ⟨ans, t'⟩
      rw [hexec] at hnot
      cases ans with
      | error e => exact transactIssue_error hexec
      | ok => cases hnot
    | _ => exact hg.elim

theorem quotas_of_not_commits {h : List ItemEvent} {op : ItemOp} {call : Call} (hg : call.guard h op)
    (hnot : commits ⟨op, (exec gsi op t).1⟩ = false) : (exec gsi op t).2.quotas = t.quotas := by
  cases call with
  | issue => rw [exec_of_not_commits (fun _ _ h => by cases h) hg hnot]
  | replace e r =>
    obtain rfl := hg
    simp only [exec, replaceChallenge]
    cases t.challenges e.msisdn with
    | none => rfl
    | some current =>
      dsimp only
      split_ifs <;> rfl

def accepted (calls : ι → Call) (msisdn : String) (tr : List (ι × ItemEvent)) : List Int :=
  tr.filterMap fun e =>
    match calls e.1 with
    | .issue challenge _ _ now _ _ =>
      if commits e.2 && (challenge.msisdn = msisdn : Bool) then some now else none
    | .replace _ _ => none

omit [DecidableEq ι] in
theorem accepted_snoc (calls : ι → Call) (msisdn : String) (tr : List (ι × ItemEvent))
    (e : ι × ItemEvent) :
    accepted calls msisdn (tr ++ [e]) = accepted calls msisdn tr ++ accepted calls msisdn [e] :=
  List.filterMap_append ..

omit [DecidableEq ι] in
theorem accepted_of_not_commits {e : ItemEvent} (h : commits e = false) :
    accepted calls msisdn [(i, e)] = [] := by
  cases hcall : calls i <;> simp [accepted, hcall, h]

theorem admitted_of_history {maxSendsPerDay : Int} (hraises : ∀ i, (calls i).Raises)
    (hpolicy : ∀ i challenge cooldown cap now clock faults,
      calls i = .issue challenge cooldown cap now clock faults → cap = maxSendsPerDay)
    {tr : List (ι × ItemEvent)} (h : IssueHistory gsi calls t₀ tr s)
    (hmono : (accepted calls msisdn tr).Pairwise (· ≤ ·)) :
    SlidingWindow.Admitted 86400 maxSendsPerDay (OtpQuota.history (t₀.quotas msisdn))
      (accepted calls msisdn tr) (OtpQuota.history (s.quotas msisdn)) := by
  induction h with
  | nil => exact .nil
  | @snoc tr s i op hist hg ih =>
    rw [accepted_snoc] at hmono ⊢
    have ih := ih (List.pairwise_append.mp hmono).1
    have hist' : IssueHistory gsi calls t₀ _ _ := .snoc i op hist hg
    cases hc : commits ⟨op, (exec gsi op s).1⟩ with
    | false =>
      rw [accepted_of_not_commits hc, List.append_nil, quotas_of_not_commits hg hc]
      exact ih
    | true =>
      obtain ⟨m, quotaItem, version, item, existing, fault, he⟩ := eq_of_commits hc
      rw [hist'.eq_replay]
      rw [he] at hist' hmono ⊢
      obtain ⟨cooldown, cap, now, clock, faults, hcall, rfl, haccepts, hnext⟩ :=
        reads_of_commit hraises hist'
      rw [hnext]
      rw [← hist.eq_replay] at haccepts ⊢
      by_cases hm : item.msisdn = msisdn
      · subst hm
        have hsent : accepted calls item.msisdn [(i, ⟨.transactIssue item.msisdn quotaItem version
            item existing fault, .ok ()⟩)] = [now] := by simp [accepted, hcall]
        rw [hsent] at hmono ⊢
        rw [putIssue_quotas, update_self]
        refine ih.snoc ?_ fun t ht => (List.pairwise_append.mp hmono).2.2 t ht now (by simp)
        have hcap := hpolicy i _ _ _ _ _ _ hcall
        exact hcap ▸ MemoryStore.length_lt_of_issueRefusal haccepts
      · have hsent : accepted calls msisdn [(i, ⟨.transactIssue item.msisdn quotaItem version item
            existing fault, .ok ()⟩)] = [] := by simp [accepted, hcall, hm]
        rw [hsent, List.append_nil, putIssue_quotas, update_of_ne (Ne.symm hm)]
        exact ih

def runOf (gsi : Gsi) (calls : ι → Call) (t₀ : DynamoTable) (schedule : List ι) :
    Config ι ItemOp ItemOp.Answer DynamoTable Result :=
  (start t₀ fun i => (calls i).program).run (exec gsi) schedule

/-- What a run of OTP calls does, seen as steps of `MemoryStore`. -/
structure Refines (gsi : Gsi) (calls : ι → Call) (t₀ : DynamoTable)
    (c : Config ι ItemOp ItemOp.Answer DynamoTable Result) : Prop where
  /-- A commit is one accepting step of `MemoryStore.issue_otp`. -/
  commit : ∀ pre i ev post, c.trace = pre ++ (i, ev) :: post → commits ev →
    ∃ challenge cooldownSeconds maxSendsPerDay now clock faults,
      calls i = .issue challenge cooldownSeconds maxSendsPerDay now clock faults ∧
      (view (replay (exec gsi) t₀ pre)).issueOtp challenge cooldownSeconds maxSendsPerDay now clock =
        (none, view (replay (exec gsi) t₀ (pre ++ [(i, ev)])))
  /-- A call that returned `None` has committed, once and last. -/
  returned : ∀ i, (∀ e r, calls i ≠ .replace e r) → c.threads i = .result (.issued (.ok none)) →
    ∃ h e, ofThread i c.trace = h ++ [e] ∧ commits e ∧ ∀ e' ∈ h, commits e' = false
  /-- One that was refused or failed has not. -/
  refused : ∀ i r, (∀ e r, calls i ≠ .replace e r) → c.threads i = .result (.issued r) →
    r ≠ .ok none → ∀ e ∈ ofThread i c.trace, commits e = false
  /-- Nothing else an `issue_otp` call does changes the table. -/
  unchanged : ∀ pre i ev post, c.trace = pre ++ (i, ev) :: post →
    (∀ e r, calls i ≠ .replace e r) → commits ev = false →
    replay (exec gsi) t₀ (pre ++ [(i, ev)]) = replay (exec gsi) t₀ pre
  /-- A `replace_otp` call is that of `MemoryStore`. -/
  replace : ∀ pre i ev post expected replacement, c.trace = pre ++ (i, ev) :: post →
    calls i = .replace expected replacement → ∃ swapped,
      ev = ⟨.replaceChallenge expected.msisdn expected replacement, swapped⟩ ∧
      (view (replay (exec gsi) t₀ pre)).replaceOtp expected replacement =
        (swapped, view (replay (exec gsi) t₀ (pre ++ [(i, ev)])))
  /-- No window has more accepted sends than the daily cap. -/
  window : ∀ maxSendsPerDay msisdn, (∀ i challenge cooldown cap now clock faults,
      calls i = .issue challenge cooldown cap now clock faults → cap = maxSendsPerDay) →
    (accepted calls msisdn c.trace).Pairwise (· ≤ ·) → ∀ a,
      ((accepted calls msisdn c.trace).countP fun t => a ≤ t && t ≤ a + 86400) ≤
        maxSendsPerDay.toNat
  /-- No challenge is issued within the cooldown of one still outstanding. -/
  cooldown : ∀ pre i ev post challenge cooldownSeconds maxSendsPerDay now clock faults,
    c.trace = pre ++ (i, ev) :: post → commits ev →
    calls i = .issue challenge cooldownSeconds maxSendsPerDay now clock faults →
    ∀ outstanding ∈ (replay (exec gsi) t₀ pre).challenges challenge.msisdn,
      outstanding.consumed = false → outstanding.expired (some now) clock = false →
      cooldownSeconds ≤ now - outstanding.createdAt

/-- `issue_otp` among calls that never put back a challenge without raising its attempts. -/
theorem issueOtp_refines (gsi : Gsi) (calls : ι → Call) (t₀ : DynamoTable)
    (hraises : ∀ i, (calls i).Raises) (schedule : List ι) :
    Refines gsi calls t₀ (runOf gsi calls t₀ schedule) := by
  -- the run is a history of what the calls may do, and each call ends as its program says
  obtain ⟨hist, hobeys⟩ := run_history (exec gsi) t₀
    (fun i => program_obeys (calls i)) schedule
  change IssueHistory gsi calls t₀ (runOf gsi calls t₀ schedule).trace
    (runOf gsi calls t₀ schedule).shared at hist
  generalize hc : runOf gsi calls t₀ schedule = c at hist ⊢
  rw [runOf] at hc
  rw [hc] at hobeys
  constructor
  case commit =>
    intro pre i ev post htr hcommits
    rw [htr] at hist
    obtain ⟨m, quotaItem, version, item, existing, fault, rfl⟩ := eq_of_commits hcommits
    obtain ⟨cooldown, cap, now, clock, faults, hcall, rfl, haccepts, hnext⟩ :=
      reads_of_commit hraises hist
    rw [hnext]
    exact ⟨item, cooldown, cap, now, clock, faults, hcall, view_of_commit haccepts⟩
  case returned =>
    intro i hissue hresult
    have hpost := hobeys i
    rw [hresult] at hpost
    cases hcall : calls i with
    | replace e r => exact absurd hcall (hissue e r)
    | issue => rwa [hcall] at hpost
  case refused =>
    intro i r hissue hresult hr
    have hpost := hobeys i
    rw [hresult] at hpost
    cases hcall : calls i with
    | replace e r => exact absurd hcall (hissue e r)
    | issue =>
      rw [hcall] at hpost
      match r, hr, hpost with
      | .error _, _, hpost => exact hpost
      | .ok (some _), _, hpost => exact hpost
      | .ok none, hr, _ => exact absurd rfl hr
  case unchanged =>
    intro pre i ev post htr hissue hnot
    rw [htr] at hist
    obtain ⟨-, hg, hans⟩ := hist.at
    rw [replay_snoc]
    obtain ⟨op, ans⟩ := ev
    dsimp only at hans hg
    subst hans
    exact exec_of_not_commits hissue hg hnot
  case replace =>
    intro pre i ev post expected replacement htr hcall
    rw [htr] at hist
    obtain ⟨-, hg, hans⟩ := hist.at
    rw [replay_snoc]
    obtain ⟨op, ans⟩ := ev
    dsimp only at hans hg
    simp only [hcall, Call.guard] at hg
    subst hg hans
    exact ⟨_, rfl, view_replaceChallenge expected replacement _⟩
  case window =>
    intro cap msisdn hpolicy hmono a
    exact (admitted_of_history hraises hpolicy hist hmono).window_le a
  case cooldown =>
    intro pre i ev post challenge cooldown cap now clock faults htr hcommits hcall outstanding hout
      hconsumed hexpired
    rw [htr] at hist
    obtain ⟨m, quotaItem, version, item, existing, fault, rfl⟩ := eq_of_commits hcommits
    obtain ⟨_, _, _, _, _, hcall', rfl, haccepts, -⟩ := reads_of_commit hraises hist
    cases hcall.symm.trans hcall'
    rw [hout] at haccepts
    exact MemoryStore.cooldown_of_issueRefusal haccepts hconsumed hexpired

theorem raises_replacement (sha256 : String → String) (policy : OtpPolicy) (msisdn : String)
    (call : Otp.Call) (e : OtpChallenge) :
    (Call.replace e (call.replacement sha256 policy msisdn e)).Raises := by
  intro c hc
  rcases call.replacement_cases sha256 policy msisdn e with
    h | ⟨-, -, h⟩ <;> rw [h] at hc <;> cases hc
  exact Int.lt_succ _

/-- Two sends a day apart, and a wrong guess between. -/
theorem issueOtp_refines_of_two_sends :
    let first : OtpChallenge :=
      ⟨"821012345678", "9f2c", "450051234567890", 1000, 1300, 0, none, false, "a"⟩
    let second : OtpChallenge :=
      ⟨"821012345678", "77aa", "450051234567890", 87400, 87700, 0, none, false, "b"⟩
    let calls : Fin 3 → Call := ![.issue first 60 1 1000 ⟨1000, by decide⟩ fun _ => none,
      .replace first (some { first with attempts := 1 }),
      .issue second 60 1 87400 ⟨87400, by decide⟩ fun _ => none]
    Refines ⟨id, fun _ => .refl _⟩ calls {}
      (runOf ⟨id, fun _ => .refl _⟩ calls {} [0, 0, 0, 2, 1, 2, 2]) := by
  intro first second calls
  refine issueOtp_refines _ calls {} (fun i => ?_) _
  match i with
  | 0 => trivial
  | 1 => rintro c ⟨⟩; decide
  | 2 => trivial

/-- A `replace_otp` that keeps the id and the attempts but prolongs the challenge makes the
transaction commit within the cooldown. -/
theorem issueOtp_not_refines :
    let first : OtpChallenge :=
      ⟨"821012345678", "9f2c", "450051234567890", 1000, 1005, 0, none, false, "a"⟩
    let second : OtpChallenge :=
      ⟨"821012345678", "77aa", "450051234567890", 1010, 1310, 0, none, false, "b"⟩
    let calls : Fin 3 → Call := ![.issue first 60 10 1000 ⟨1000, by decide⟩ fun _ => none,
      .issue second 60 10 1010 ⟨1010, by decide⟩ fun _ => none,
      .replace first (some { first with expiresAt := 1400 })]
    ¬ Refines ⟨id, fun _ => .refl _⟩ calls {}
      (runOf ⟨id, fun _ => .refl _⟩ calls {} [0, 0, 0, 1, 1, 2, 1]) := by
  intro first second calls h
  have htr : ∃ pre quotaItem version existing fault,
      (runOf ⟨id, fun _ => .refl _⟩ calls {} [0, 0, 0, 1, 1, 2, 1]).trace = pre ++
        [(1, ⟨.transactIssue "821012345678" quotaItem version second existing fault, .ok ()⟩)] ∧
      (replay (exec ⟨id, fun _ => .refl _⟩) {} pre).challenges "821012345678" =
        some { first with expiresAt := 1400 } :=
    ⟨[_, _, _, _, _, _], _, _, _, _, rfl, rfl⟩
  obtain ⟨pre, quotaItem, version, existing, fault, htr, hstored⟩ := htr
  have hlate := h.cooldown pre 1 _ [] second 60 10 1010 _ _ htr rfl rfl _ hstored rfl rfl
  exact absurd hlate (by decide)

end Run

end Acs.OtpIssue
