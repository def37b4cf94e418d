import Mathlib
import Acs.Store.OtpItems

/-! The two stores implement one OTP contract: `issue_otp`, `get_otp` and `replace_otp`, one at a
time, return the same on `MemoryStore` and on the items of the table. -/

namespace Acs
open Function Interleave

/-- A call of the OTP part of the port. -/
inductive OtpCall
  | issueOtp (challenge : OtpChallenge) (cooldownSeconds maxSendsPerDay now : Int) (clock : Clock)
  | getOtp (msisdn : String)
  | replaceOtp (expected : OtpChallenge) (replacement : Option OtpChallenge)

namespace OtpCall

def op : OtpCall → StoreOp
  | issueOtp challenge cooldown cap now clock => .issueOtp challenge cooldown cap now clock
  | getOtp msisdn => .getOtp msisdn
  | replaceOtp expected replacement => .replaceOtp expected replacement

def numbers : OtpCall → List Int
  | issueOtp challenge _ _ now _ => challenge.numbers ++ [now, now + 86400]
  | getOtp _ => []
  | replaceOtp expected replacement =>
    expected.numbers ++ replacement.elim [] OtpChallenge.numbers

end OtpCall

def MemoryStore.replies : List OtpCall → MemoryStore → List (Event StoreOp.Answer)
  | [], _ => []
  | call :: calls, m =>
    let r := exec call.op m
    ⟨call.op, r.1⟩ :: replies calls r.2

def DynamoDb.replies (gsi : Gsi) :
    List OtpCall → OtpTable → Except StoreError (List (Event StoreOp.Answer))
  | [], _ => .ok []
  | call :: calls, t => do
    let r ← (impl (fun _ => none) call.op).attempt (OtpTable.exec gsi) t
    let rest ← replies gsi calls r.2
    return ⟨call.op, r.1⟩ :: rest

namespace OtpContract
open DynamoDb MemoryStore

/-- The typed table holds what the memory store holds; each quota carries a version, of at most
the number of codes issued. -/
structure Mirrors (issued : Nat) (d : DynamoTable) (m : MemoryStore) : Prop where
  otp : m.otp = d.challenges
  sends : m.otpSends = OtpQuota.history ∘ d.quotas
  versioned : ∀ msisdn, ∀ q ∈ d.quotas msisdn, ∃ v ∈ q.version, v.natAbs ≤ issued

structure Bounded (d : DynamoTable) : Prop where
  challenges : ∀ msisdn, ∀ c ∈ d.challenges msisdn, Sendable c.numbers
  sends : ∀ msisdn, ∀ q ∈ d.quotas msisdn, Sendable q.sends

/-- A memory store and a table that hold the same challenges and send times. -/
structure Stores where
  memory : MemoryStore
  typed : DynamoTable
  table : OtpTable
  issued : Nat
  mirrors : Mirrors issued typed memory
  bounded : Bounded typed
  represents : table.Represents typed

def fresh : Stores where
  memory := {}
  typed := {}
  table := {}
  issued := 0
  mirrors := ⟨rfl, rfl, nofun⟩
  bounded := ⟨nofun, nofun⟩
  represents := ⟨rfl, fun _ => .none, fun _ => .none⟩

section Issue
variable {gsi : Gsi} {d : DynamoTable} {m : MemoryStore} {issued : Nat} {challenge : OtpChallenge}
  {cooldownSeconds maxSendsPerDay now : Int} {clock : Clock}

theorem quotaCondition_read {msisdn : String}
    (hversioned : ∀ q ∈ d.quotas msisdn, ∃ v ∈ q.version, v.natAbs ≤ issued) :
    DynamoTable.quotaCondition (quotaVersion (d.quotas msisdn)) (d.quotas msisdn) := by
  cases hquota : d.quotas msisdn with
  | none => rfl
  | some q =>
    obtain ⟨v, hv, -⟩ := hversioned q hquota
    simp [DynamoTable.quotaCondition, quotaVersion, OtpQuota.readVersion, Option.mem_def.mp hv]

theorem sameChallenge_self (c : OtpChallenge) : sameChallenge c c := by
  unfold sameChallenge
  split_ifs <;> simp

theorem challengeCondition_self (existing : Option OtpChallenge) :
    DynamoTable.challengeCondition existing existing := by
  cases existing with
  | none => rfl
  | some c => exact sameChallenge_self c

theorem transactIssue_read {msisdn : String} {quota : OtpQuota}
    (hversioned : ∀ q ∈ d.quotas msisdn, ∃ v ∈ q.version, v.natAbs ≤ issued) :
    d.transactIssue msisdn quota (quotaVersion (d.quotas msisdn)) challenge (d.challenges msisdn) =
      (.ok (), d.putIssue msisdn quota challenge) := by
  rw [DynamoTable.transactIssue, quotaCondition_read hversioned, challengeCondition_self]
  rfl

/-- What `issue_otp` decides on what it reads. -/
def refusal (d : DynamoTable) (challenge : OtpChallenge) (cooldownSeconds maxSendsPerDay now : Int)
    (clock : Clock) : Option OtpIssueRefused :=
  issueRefusal (d.challenges challenge.msisdn)
    (recentSends (OtpQuota.history (d.quotas challenge.msisdn)) now) cooldownSeconds maxSendsPerDay
    now clock

theorem impl_issueOtp (challenge : OtpChallenge) (cooldownSeconds maxSendsPerDay now : Int)
    (clock : Clock) (faults : Nat → Option ClientError) :
    impl faults (.issueOtp challenge cooldownSeconds maxSendsPerDay now clock) =
      issueFrom challenge cooldownSeconds maxSendsPerDay now clock faults (4 + 1) := rfl

theorem issueOtp_alone (hm : Mirrors issued d m) :
    run gsi (fun _ => none) (.issueOtp challenge cooldownSeconds maxSendsPerDay now clock) d =
      match refusal d challenge cooldownSeconds maxSendsPerDay now clock with
      | some refused => (.ok (some refused), d)
      | none => (.ok none, d.putIssue challenge.msisdn (quotaPut (d.quotas challenge.msisdn) now)
          challenge) := by
  have hput : d.transactIssue challenge.msisdn (quotaPut (d.quotas challenge.msisdn) now)
      (quotaVersion (d.quotas challenge.msisdn)) challenge (d.challenges challenge.msisdn) =
      (.ok (), d.putIssue challenge.msisdn (quotaPut (d.quotas challenge.msisdn) now) challenge) :=
    transactIssue_read (hm.versioned challenge.msisdn)
  rw [run, impl_issueOtp]
  simp only [issueFrom, Program.perform_bind, Program.eval_call, DynamoTable.exec]
  change Program.eval _ (match refusal d challenge cooldownSeconds maxSendsPerDay now clock with
    | some refused => _
    | none => _) d = _
  cases refusal d challenge cooldownSeconds maxSendsPerDay now clock with
  | some refused => rfl
  | none =>
    dsimp only
    rw [Program.eval_call, DynamoTable.exec, hput]
    rfl

theorem issueOtp_along {Q : DynamoTable → ItemOp → Prop}
    (hquota : Q d (.getQuota challenge.msisdn)) (hchallenge : Q d (.getChallenge challenge.msisdn))
    (htransact : Q d (.transactIssue challenge.msisdn (quotaPut (d.quotas challenge.msisdn) now)
      (quotaVersion (d.quotas challenge.msisdn)) challenge (d.challenges challenge.msisdn) none))
    (hm : Mirrors issued d m) :
    (impl (fun _ => none) (.issueOtp challenge cooldownSeconds maxSendsPerDay now clock)).Along
      (DynamoTable.exec gsi) Q d := by
  have hput : d.transactIssue challenge.msisdn (quotaPut (d.quotas challenge.msisdn) now)
      (quotaVersion (d.quotas challenge.msisdn)) challenge (d.challenges challenge.msisdn) =
      (.ok (), d.putIssue challenge.msisdn (quotaPut (d.quotas challenge.msisdn) now) challenge) :=
    transactIssue_read (hm.versioned challenge.msisdn)
  rw [impl_issueOtp]
  simp only [issueFrom, Program.perform_bind, Program.Along, DynamoTable.exec]
  refine ⟨hquota, hchallenge, ?_⟩
  change Program.Along _ Q (match refusal d challenge cooldownSeconds maxSendsPerDay now clock with
    | some refused => _
    | none => _) d
  cases refusal d challenge cooldownSeconds maxSendsPerDay now clock with
  | some refused => trivial
  | none =>
    dsimp only
    rw [Program.Along, DynamoTable.exec, hput]
    exact ⟨htransact, trivial⟩

end Issue

/-! ### One call -/

section Step
variable {gsi : Gsi} {d : DynamoTable} {m : MemoryStore} {issued : Nat}

theorem refusal_eq (hm : Mirrors issued d m) (challenge : OtpChallenge)
    (cooldownSeconds maxSendsPerDay now : Int) (clock : Clock) :
    refusal d challenge cooldownSeconds maxSendsPerDay now clock =
      issueRefusal (m.otp challenge.msisdn) (recentSends (m.otpSends challenge.msisdn) now)
        cooldownSeconds maxSendsPerDay now clock := by
  rw [hm.otp, hm.sends]
  rfl

theorem Mirrors.mono (hm : Mirrors issued d m) : Mirrors (issued + 1) d m where
  otp := hm.otp
  sends := hm.sends
  versioned msisdn q hq := by
    obtain ⟨v, hv, hle⟩ := hm.versioned msisdn q hq
    exact ⟨v, hv, Nat.le_succ_of_le hle⟩

/-- Reading a version back from the quota and raising it by one keeps it small. -/
theorem natAbs_readVersion (hm : Mirrors issued d m) (msisdn : String) :
    (OtpQuota.readVersion (d.quotas msisdn) + 1).natAbs ≤ issued + 1 := by
  have hread : (OtpQuota.readVersion (d.quotas msisdn)).natAbs ≤ issued := by
    cases hquota : d.quotas msisdn with
    | none => exact Nat.zero_le _
    | some q =>
      obtain ⟨v, hv, hle⟩ := hm.versioned msisdn q hquota
      rw [OtpQuota.readVersion, Option.mem_def.mp hv]
      exact hle
  omega

theorem Mirrors.putIssue (hm : Mirrors issued d m) (challenge : OtpChallenge) (now : Int) :
    Mirrors (issued + 1)
      (d.putIssue challenge.msisdn (quotaPut (d.quotas challenge.msisdn) now) challenge)
      { m with
        otpSends := update m.otpSends challenge.msisdn
          (recentSends (m.otpSends challenge.msisdn) now ++ [now])
        otp := update m.otp challenge.msisdn (some challenge) } where
  otp := by rw [DynamoTable.putIssue_challenges, hm.otp]
  sends := by
    rw [DynamoTable.putIssue_quotas, comp_update, hm.sends]
    rfl
  versioned msisdn q hq := by
    rw [DynamoTable.putIssue_quotas] at hq
    by_cases heq : msisdn = challenge.msisdn
    · rw [heq, update_self] at hq
      cases hq
      exact ⟨_, rfl, natAbs_readVersion hm _⟩
    · rw [update_of_ne heq] at hq
      exact hm.mono.versioned msisdn q hq

theorem Mirrors.replaced (hm : Mirrors issued d m) (msisdn : String)
    (replacement : Option OtpChallenge) :
    Mirrors (issued + 1) { d with challenges := update d.challenges msisdn replacement }
      { m with otp := update m.otp msisdn replacement } where
  otp := by rw [hm.otp]
  sends := hm.sends
  versioned := hm.mono.versioned

theorem run_mirrors (gsi : Gsi) (hm : Mirrors issued d m) (call : OtpCall) :
    (run gsi (fun _ => none) call.op d).1 = (MemoryStore.exec call.op m).1 ∧
      Mirrors (issued + 1) (run gsi (fun _ => none) call.op d).2
        (MemoryStore.exec call.op m).2 := by
  cases call with
  | issueOtp challenge cooldownSeconds maxSendsPerDay now clock =>
    rw [OtpCall.op, issueOtp_alone hm, refusal_eq hm]
    simp only [MemoryStore.exec, MemoryStore.issueOtp]
    cases issueRefusal (m.otp challenge.msisdn) (recentSends (m.otpSends challenge.msisdn) now)
      cooldownSeconds maxSendsPerDay now clock with
    | some refused => exact ⟨rfl, hm.mono⟩
    | none => exact ⟨rfl, hm.putIssue challenge now⟩
  | getOtp msisdn =>
    refine ⟨?_, hm.mono⟩
    change d.challenges msisdn = m.otp msisdn
    rw [hm.otp]
  | replaceOtp expected replacement =>
    change (d.replaceChallenge expected.msisdn expected replacement).1 =
        (m.replaceOtp expected replacement).1 ∧
      Mirrors (issued + 1) (d.replaceChallenge expected.msisdn expected replacement).2
        (m.replaceOtp expected replacement).2
    have hreplaced := hm.replaced expected.msisdn replacement
    rw [hm.otp] at hreplaced
    rw [DynamoTable.replaceChallenge, MemoryStore.replaceOtp, hm.otp]
    cases d.challenges expected.msisdn with
    | none => exact ⟨rfl, hm.mono⟩
    | some current =>
      dsimp only
      rw [sameChallenge_eq_unchanged]
      split_ifs
      · exact ⟨rfl, hreplaced⟩
      · exact ⟨rfl, hm.mono⟩

theorem sendable_recent {sends : List Int} (h : Sendable sends) (now : Int) :
    Sendable (recentSends sends now) := fun n hn => h n (List.mem_of_mem_filter hn)

theorem Bounded.history (hb : Bounded d) (msisdn : String) :
    Sendable (OtpQuota.history (d.quotas msisdn)) := by
  cases hquota : d.quotas msisdn with
  | none => exact nofun
  | some q => exact hb.sends msisdn q hquota

theorem Bounded.existing (hb : Bounded d) (msisdn : String) :
    Sendable ((d.challenges msisdn).elim [] OtpChallenge.numbers) := by
  cases hchallenge : d.challenges msisdn with
  | none => exact nofun
  | some c => exact hb.challenges msisdn c hchallenge

theorem Bounded.sends_put (hb : Bounded d) (msisdn : String) {now : Int} (hnow : fitsNumber now) :
    Sendable (quotaPut (d.quotas msisdn) now).sends :=
  sendable_append.mpr ⟨sendable_recent (hb.history msisdn) now, sendable_cons.mpr ⟨hnow, nofun⟩⟩

theorem Bounded.putIssue (hb : Bounded d) {challenge : OtpChallenge} {now : Int}
    (hchallenge : Sendable challenge.numbers) (hnow : fitsNumber now) :
    Bounded (d.putIssue challenge.msisdn (quotaPut (d.quotas challenge.msisdn) now) challenge) where
  challenges msisdn c hc := by
    rw [DynamoTable.putIssue_challenges] at hc
    by_cases heq : msisdn = challenge.msisdn
    · rw [heq, update_self] at hc
      cases hc
      exact hchallenge
    · rw [update_of_ne heq] at hc
      exact hb.challenges msisdn c hc
  sends msisdn q hq := by
    rw [DynamoTable.putIssue_quotas] at hq
    by_cases heq : msisdn = challenge.msisdn
    · rw [heq, update_self] at hq
      cases hq
      exact hb.sends_put _ hnow
    · rw [update_of_ne heq] at hq
      exact hb.sends msisdn q hq

theorem Bounded.replaced (hb : Bounded d) (msisdn : String) {replacement : Option OtpChallenge}
    (hreplacement : Sendable (replacement.elim [] OtpChallenge.numbers)) :
    Bounded { d with challenges := update d.challenges msisdn replacement } where
  challenges msisdn' c hc := by
    change c ∈ update d.challenges msisdn replacement msisdn' at hc
    by_cases heq : msisdn' = msisdn
    · rw [heq, update_self] at hc
      cases hc
      exact hreplacement
    · rw [update_of_ne heq] at hc
      exact hb.challenges msisdn' c hc
  sends := hb.sends

theorem Bounded.run (hb : Bounded d) (hm : Mirrors issued d m) {call : OtpCall}
    (hcall : Sendable call.numbers) : Bounded (DynamoDb.run gsi (fun _ => none) call.op d).2 := by
  cases call with
  | issueOtp challenge cooldownSeconds maxSendsPerDay now clock =>
    obtain ⟨hchallenge, hnow⟩ := sendable_append.mp hcall
    rw [OtpCall.op, issueOtp_alone hm]
    cases refusal d challenge cooldownSeconds maxSendsPerDay now clock with
    | some refused => exact hb
    | none => exact hb.putIssue hchallenge (sendable_cons.mp hnow).1
  | getOtp msisdn => exact hb
  | replaceOtp expected replacement =>
    obtain ⟨-, hreplacement⟩ := sendable_append.mp hcall
    change Bounded (d.replaceChallenge expected.msisdn expected replacement).2
    rw [DynamoTable.replaceChallenge]
    cases d.challenges expected.msisdn with
    | none => exact hb
    | some current =>
      dsimp only
      split_ifs
      · exact hb.replaced expected.msisdn hreplacement
      · exact hb

theorem fits_version {v : Int} {k : Nat} (hv : v.natAbs ≤ k) (hk : k < 10 ^ 38) : fitsNumber v := by
  unfold fitsNumber
  exact decide_eq_true (Nat.lt_of_le_of_lt hv hk)

theorem sendable_transact (hb : Bounded d) (hm : Mirrors issued d m) {challenge : OtpChallenge}
    {now : Int} (hchallenge : Sendable challenge.numbers) (hnow : fitsNumber now)
    (hexpires : fitsNumber (now + 86400)) (hissued : issued + 1 < 10 ^ 38) :
    Sendable (ItemOp.transactIssue challenge.msisdn (quotaPut (d.quotas challenge.msisdn) now)
      (quotaVersion (d.quotas challenge.msisdn)) challenge (d.challenges challenge.msisdn)
      none).numbers := by
  have hraised : fitsNumber (OtpQuota.readVersion (d.quotas challenge.msisdn) + 1) :=
    fits_version (natAbs_readVersion hm challenge.msisdn) hissued
  have hversion : Sendable (quotaVersion (d.quotas challenge.msisdn)).toList := by
    cases hquota : d.quotas challenge.msisdn with
    | none => exact fun _ h => (by cases h)
    | some q =>
      obtain ⟨v, hv, hle⟩ := hm.versioned challenge.msisdn q hquota
      have hfits : fitsNumber v := fits_version hle (Nat.lt_of_succ_lt hissued)
      simpa [quotaVersion, OtpQuota.readVersion, Option.mem_def.mp hv, Sendable] using hfits
  have hput : Sendable (quotaPut (d.quotas challenge.msisdn) now).numbers := by
    refine sendable_append.mpr ⟨sendable_append.mpr ⟨hb.sends_put _ hnow, ?_⟩, ?_⟩
    · exact sendable_cons.mpr ⟨hraised, fun _ h => (by cases h)⟩
    · exact sendable_cons.mpr ⟨hexpires, fun _ h => (by cases h)⟩
  simp only [ItemOp.numbers, sendable_append]
  exact ⟨⟨⟨hput, hversion⟩, hchallenge⟩, hb.existing challenge.msisdn⟩

theorem along_sendable (gsi : Gsi) (hb : Bounded d) (hm : Mirrors issued d m) {call : OtpCall}
    (hcall : Sendable call.numbers) (hissued : issued + 1 < 10 ^ 38) :
    (impl (fun _ => none) call.op).Along (DynamoTable.exec gsi) (fun _ op => Sendable op.numbers)
      d := by
  cases call with
  | issueOtp challenge cooldownSeconds maxSendsPerDay now clock =>
    obtain ⟨hchallenge, hnumbers⟩ := sendable_append.mp hcall
    obtain ⟨hnow, hexpires⟩ := sendable_cons.mp hnumbers
    have htransact := sendable_transact hb hm hchallenge hnow (sendable_cons.mp hexpires).1 hissued
    exact issueOtp_along (Q := fun _ op => Sendable op.numbers) nofun nofun htransact hm
  | getOtp msisdn => exact ⟨nofun, trivial⟩
  | replaceOtp expected replacement => exact ⟨hcall, trivial⟩

/-- A program over the table does to the items what it does to the typed table. -/
theorem attempt_agrees {p : ItemProgram α} {t : OtpTable} (hR : t.Represents d)
    {r : α × OtpTable} (h : p.attempt (OtpTable.exec gsi) t = .ok r) :
    r.1 = (p.eval (DynamoTable.exec gsi) d).1 ∧
      r.2.Represents (p.eval (DynamoTable.exec gsi) d).2 := by
  have hexec : ∀ (op : ItemOp) (t : OtpTable) (d : DynamoTable) (r : op.Answer × OtpTable),
      t.Represents d → OtpTable.exec gsi op t = .ok r →
        r.1 = (DynamoTable.exec gsi op d).1 ∧ r.2.Represents (DynamoTable.exec gsi op d).2 :=
    fun _ _ _ _ hR hop => OtpTable.exec_refines hR hop
  exact Program.attempt_refines hexec hR h

theorem attempt_sends {p : ItemProgram α} {t : OtpTable} (hR : t.Represents d)
    (hp : p.Along (DynamoTable.exec gsi) (fun _ op => Sendable op.numbers) d) :
    ∃ r, p.attempt (OtpTable.exec gsi) t = .ok r := by
  have hexec : ∀ (op : ItemOp) (t : OtpTable) (d : DynamoTable), t.Represents d →
      Sendable op.numbers → ∃ r, OtpTable.exec gsi op t = .ok r ∧
        r.1 = (DynamoTable.exec gsi op d).1 ∧ r.2.Represents (DynamoTable.exec gsi op d).2 := by
    intro op t d hR hop
    obtain ⟨r, hr⟩ := OtpTable.exec_sends hR hop
    exact ⟨r, hr, OtpTable.exec_refines hR hr⟩
  exact Program.attempt_ok hexec hR hp

theorem replies_agree (hm : Mirrors issued d m) {t : OtpTable} (hR : t.Represents d)
    (calls : List OtpCall) {answered : List (Event StoreOp.Answer)}
    (h : DynamoDb.replies gsi calls t = .ok answered) :
    answered = MemoryStore.replies calls m := by
  induction calls generalizing issued d m t answered with
  | nil =>
    cases h
    rfl
  | cons call calls ih =>
    simp only [DynamoDb.replies, Except.bind_eq_ok, Except.pure_eq_ok] at h
    obtain ⟨r, hr, rest, hrest, rfl⟩ := h
    obtain ⟨hanswer, hR'⟩ := attempt_agrees hR hr
    obtain ⟨hmemory, hm'⟩ := run_mirrors gsi hm call
    have htail := ih hm' hR' hrest
    rw [MemoryStore.replies, htail, hanswer]
    exact congrArg (fun a => (⟨call.op, a⟩ :: _ : List (Event StoreOp.Answer))) hmemory

theorem replies_ok (hm : Mirrors issued d m) (hb : Bounded d) {t : OtpTable}
    (hR : t.Represents d) (calls : List OtpCall) (hcalls : ∀ call ∈ calls, Sendable call.numbers)
    (hissued : issued + calls.length < 10 ^ 38) :
    ∃ answered, DynamoDb.replies gsi calls t = .ok answered := by
  induction calls generalizing issued d m t with
  | nil => exact ⟨_, rfl⟩
  | cons call calls ih =>
    have hcall := hcalls call List.mem_cons_self
    rw [List.length_cons] at hissued
    obtain ⟨r, hr⟩ := attempt_sends hR (along_sendable gsi hb hm hcall (by omega))
    obtain ⟨-, hR'⟩ := attempt_agrees hR hr
    obtain ⟨-, hm'⟩ := run_mirrors gsi hm call
    obtain ⟨rest, hrest⟩ := ih hm' (hb.run hm hcall) hR'
      (fun call hmem => hcalls call (List.mem_cons_of_mem _ hmem)) (by omega)
    simp only [DynamoDb.replies, Except.bind_eq_ok]
    exact ⟨_, r, hr, rest, hrest, rfl⟩

end Step

/-- Over any sequence of calls the table replies what the memory store replies, as long as no call
faults; and none does that brings numbers of at most 38 digits. -/
theorem stores_agree (gsi : Gsi) (stores : Stores) (calls : List OtpCall) :
    (∀ answered, DynamoDb.replies gsi calls stores.table = .ok answered →
        answered = MemoryStore.replies calls stores.memory) ∧
      ((∀ call ∈ calls, Sendable call.numbers) → stores.issued + calls.length < 10 ^ 38 →
        ∃ answered, DynamoDb.replies gsi calls stores.table = .ok answered) :=
  ⟨fun _ h => replies_agree stores.mirrors stores.represents calls h,
    fun hcalls hissued =>
      replies_ok stores.mirrors stores.bounded stores.represents calls hcalls hissued⟩

namespace Lab

def oldChallenge : OtpChallenge :=
  { msisdn := "01012345678", otpHash := "5f1d", imsi := "450010000000001", createdAt := 100
    expiresAt := 400 }

def oldItem : Attributes :=
  [("pk", .s "OTP#01012345678"), ("sk", .s "CHAL"), ("entity", .s "otp"),
   ("msisdn", .s "01012345678"), ("otp_hash", .s "5f1d"), ("imsi", .s "450010000000001"),
   ("created_at", .n 100 0), ("expires_at", .n 400 0), ("attempts", .n 0 0),
   ("consumed", .bool false)]

theorem oldItem_stored : OtpChallenge.Stored oldItem oldChallenge := ⟨rfl, rfl, rfl⟩

def old : Stores where
  memory := { otp := update fresh.memory.otp oldChallenge.msisdn (some oldChallenge) }
  typed := { challenges := update fresh.typed.challenges oldChallenge.msisdn (some oldChallenge) }
  table := { items := update fresh.table.items (challengeKey oldChallenge.msisdn) (some oldItem) }
  issued := 0
  mirrors := ⟨rfl, rfl, nofun⟩
  bounded := fresh.bounded.replaced oldChallenge.msisdn (by decide)
  represents :=
    { rest := rfl
      quota := rel_update_ne (fun m => quotaKey_ne_challengeKey m oldChallenge.msisdn)
        fresh.represents.quota (some oldItem)
      challenge :=
        rel_update challengeKey_injective fresh.represents.challenge (.some oldItem_stored) _ }

def calls : List OtpCall :=
  [.getOtp oldChallenge.msisdn,
   .replaceOtp oldChallenge (some { oldChallenge with attempts := 1 }),
   .replaceOtp oldChallenge none,
   .issueOtp { oldChallenge with challengeId := "c1", createdAt := 120 } 60 10 120 ⟨120, by decide⟩,
   .issueOtp { oldChallenge with challengeId := "c1", createdAt := 200 } 60 10 200 ⟨200, by decide⟩,
   .replaceOtp { oldChallenge with attempts := 1 } none]

theorem stores_agree_old :
    DynamoDb.replies ⟨id, fun _ => .refl _⟩ calls old.table =
      .ok (MemoryStore.replies calls old.memory) := by
  obtain ⟨hagree, hsent⟩ := stores_agree ⟨id, fun _ => .refl _⟩ old calls
  obtain ⟨answered, hanswered⟩ := hsent (by decide) (by norm_num [old, calls])
  rw [hanswered, hagree answered hanswered]

end Lab
end OtpContract
end Acs
