import Acs.Api.MsisdnIndex

/-! A store as its subscribers and its pending challenges see it, for both stores. -/

namespace Acs.OtpOwner
open Interleave Function SecondaryIndex MsisdnIndex

def WritesDirectory : StoreOp → Prop
  | .putSubscriber .. => True
  | .deleteSubscriber _ => True
  | .editSubscriber _ => True
  | _ => False

def WritesChallenges : StoreOp → Prop
  | .issueOtp .. => True
  | .replaceOtp .. => True
  | _ => False

/-- A store as its subscribers and its challenges see it. -/
structure ChallengeStore (σ : Type) extends DirectoryStore σ where
  challenges : σ → String → Option OtpChallenge
  challenges_kept : ∀ op s, ¬ WritesChallenges op → challenges (step op s).2 = challenges s
  directory_kept : ∀ op s, ¬ WritesDirectory op → directory (step op s).2 = directory s
  found : ∀ msisdn s x, (step (.getSubscriberByMsisdn msisdn) s).1 = some x →
    ∃ imsi, (directory s).table imsi = some x
  getOtp : ∀ msisdn s, step (.getOtp msisdn) s = (challenges s msisdn, s)
  issue : ∀ c cooldown cap now clock s,
    challenges (step (.issueOtp c cooldown cap now clock) s).2 = challenges s ∨
      challenges (step (.issueOtp c cooldown cap now clock) s).2 =
        update (challenges s) c.msisdn (some c)
  replace : ∀ e r s, challenges (step (.replaceOtp e r) s).2 =
    if (step (.replaceOtp e r) s).1 then update (challenges s) e.msisdn r else challenges s

section Stores

def memoryChallenges : ChallengeStore MemoryStore where
  toDirectoryStore := memoryDirectory
  challenges := MemoryStore.otp
  challenges_kept op m hop := by
    cases op with
    | issueOtp => exact absurd trivial hop
    | replaceOtp => exact absurd trivial hop
    | deleteSubscriber imsi =>
      change (MemoryStore.deleteSubscriber m imsi).otp = _
      unfold MemoryStore.deleteSubscriber
      split <;> rfl
    | editSubscriber x =>
      change (MemoryStore.editSubscriber m x).otp = _
      unfold MemoryStore.editSubscriber
      split <;> rfl
    | _ => rfl
  directory_kept op m hop := by
    cases op with
    | putSubscriber => exact absurd trivial hop
    | deleteSubscriber => exact absurd trivial hop
    | editSubscriber => exact absurd trivial hop
    | issueOtp c cooldown cap now clock =>
      simp only [memoryDirectory, MemoryStore.exec, MemoryStore.issueOtp]
      split <;> rfl
    | replaceOtp e r =>
      simp only [memoryDirectory, MemoryStore.exec, MemoryStore.replaceOtp]
      split
      · split_ifs <;> rfl
      · rfl
    | _ => rfl
  found msisdn m x h := by
    change m.getSubscriberByMsisdn msisdn = some x at h
    unfold MemoryStore.getSubscriberByMsisdn at h
    split at h
    · split_ifs at h
      exact ⟨_, h⟩
    · cases h
  getOtp _ _ := rfl
  issue c cooldown cap now clock m := by
    simp only [memoryDirectory, MemoryStore.exec, MemoryStore.issueOtp]
    split
    · exact Or.inl rfl
    · exact Or.inr rfl
  replace e r m := by
    change (m.replaceOtp e r).2.otp = if (m.replaceOtp e r).1 = true then _ else m.otp
    unfold MemoryStore.replaceOtp
    cases hstored : m.otp e.msisdn with
    | none => simp
    | some current => cases hsame : unchanged current e <;> simp [hsame]

variable (gsi : Gsi) (faults : Nat → Option ClientError)

theorem transactIssue_cases (msisdn : String) (quota : OtpQuota) (version : Option Int)
    (c : OtpChallenge) (existing : Option OtpChallenge) (fault : Option ClientError)
    (t : DynamoTable) :
    (∃ e, DynamoTable.exec gsi (.transactIssue msisdn quota version c existing fault) t =
        (.error e, t)) ∨
      DynamoTable.exec gsi (.transactIssue msisdn quota version c existing fault) t =
        (.ok (), t.putIssue msisdn quota c) := by
  cases fault with
  | some e => exact Or.inl ⟨e, rfl⟩
  | none =>
    simp only [DynamoTable.exec, DynamoTable.transactIssue]
    split_ifs
    · exact Or.inr rfl
    · exact Or.inl ⟨_, rfl⟩

theorem issueFrom_leaves (c : OtpChallenge) (cooldown cap now : Int) (clock : Clock) (rounds : Nat)
    (t : DynamoTable) :
    let t' := ((DynamoDb.issueFrom c cooldown cap now clock faults rounds).eval
      (DynamoTable.exec gsi) t).2
    t'.subscribers = t.subscribers ∧ t'.msisdns = t.msisdns ∧
      (t'.challenges = t.challenges ∨ t'.challenges = update t.challenges c.msisdn (some c)) := by
  induction rounds with
  | zero => exact ⟨rfl, rfl, Or.inl rfl⟩
  | succ rounds ih =>
    simp only [DynamoDb.issueFrom, Program.perform_bind, Program.eval_call]
    split
    · exact ⟨rfl, rfl, Or.inl rfl⟩
    · rw [Program.eval_call]
      rcases transactIssue_cases gsi c.msisdn _ _ c _ (faults rounds) t with ⟨e, hlost⟩ | hput
      · erw [hlost]
        dsimp only
        split_ifs
        · exact ih
        · exact ⟨rfl, rfl, Or.inl rfl⟩
      · erw [hput]
        exact ⟨rfl, rfl, Or.inr rfl⟩

def KeepsChallenges : ItemOp → Prop
  | .transactIssue .. => False
  | .replaceChallenge .. => False
  | _ => True

def KeepsDirectory : ItemOp → Prop
  | .putSubscriber _ => False
  | .deleteSubscriber _ => False
  | .putMsisdn .. => False
  | .deleteMsisdn _ => False
  | _ => True

theorem revokeEach_uses {Q : ItemOp → Prop} (hQ : ∀ tokenHash, Q (.updateRevoked tokenHash))
    (items : List TokenRecord) : (DynamoDb.revokeEach items).Uses Q := by
  induction items with
  | nil => trivial
  | cons x items ih =>
    unfold DynamoDb.revokeEach
    split_ifs
    · exact ih
    · exact ⟨hQ _, fun _ => ih.bind fun _ => trivial⟩

theorem impl_keepsChallenges {op : StoreOp} (hop : ¬ WritesChallenges op) :
    (DynamoDb.impl faults op).Uses KeepsChallenges := by
  cases op with
  | issueOtp => exact absurd trivial hop
  | replaceOtp => exact absurd trivial hop
  | getSubscriberByMsisdn msisdn =>
    refine ⟨trivial, fun imsi => ?_⟩
    cases imsi with
    | none => trivial
    | some imsi => exact ⟨trivial, fun _ => trivial⟩
  | putSubscriber x clock =>
    refine ⟨trivial, fun previous => ⟨trivial, fun _ => ⟨trivial, fun _ => ?_⟩⟩⟩
    cases previous with
    | none => trivial
    | some p =>
      dsimp only
      split_ifs
      · exact ⟨trivial, fun _ => trivial⟩
      · trivial
  | deleteSubscriber imsi =>
    refine ⟨trivial, fun x => ⟨trivial, fun _ => ?_⟩⟩
    cases x with
    | none => trivial
    | some x => exact ⟨trivial, fun _ => trivial⟩
  | editSubscriber x => trivial
  | getToken tokenHash =>
    refine ⟨trivial, fun found => ?_⟩
    cases found <;> trivial
  | revokeTokensForImsi imsi =>
    exact ⟨trivial, fun items => revokeEach_uses (fun _ => trivial) items⟩
  | _ => exact ⟨trivial, fun _ => trivial⟩

theorem impl_keepsDirectory {op : StoreOp} (hop : ¬ WritesDirectory op) :
    (DynamoDb.impl faults op).Uses KeepsDirectory := by
  cases op with
  | putSubscriber => exact absurd trivial hop
  | deleteSubscriber => exact absurd trivial hop
  | editSubscriber => exact absurd trivial hop
  | getSubscriberByMsisdn msisdn =>
    refine ⟨trivial, fun imsi => ?_⟩
    cases imsi with
    | none => trivial
    | some imsi => exact ⟨trivial, fun _ => trivial⟩
  | issueOtp c cooldown cap now clock =>
    change (DynamoDb.issueFrom c cooldown cap now clock faults _).Uses KeepsDirectory
    induction DynamoDb.otpWriteRounds with
    | zero => trivial
    | succ rounds ih =>
      refine ⟨trivial, fun quota => ⟨trivial, fun existing => ?_⟩⟩
      dsimp only [Program.bind]
      split
      · trivial
      · refine ⟨trivial, fun done => ?_⟩
        cases done with
        | ok _ => trivial
        | error e =>
          dsimp only [Program.bind]
          split_ifs
          · exact ih
          · trivial
  | getToken tokenHash =>
    refine ⟨trivial, fun found => ?_⟩
    cases found <;> trivial
  | revokeTokensForImsi imsi =>
    exact ⟨trivial, fun items => revokeEach_uses (fun _ => trivial) items⟩
  | _ => exact ⟨trivial, fun _ => trivial⟩

theorem exec_keepsChallenges {op : ItemOp} (hop : KeepsChallenges op) (t : DynamoTable) :
    (DynamoTable.exec gsi op t).2.challenges = t.challenges := by
  cases op <;> first | rfl | exact hop.elim

theorem exec_keepsDirectory {op : ItemOp} (hop : KeepsDirectory op) (t : DynamoTable) :
    (DynamoTable.exec gsi op t).2.subscribers = t.subscribers ∧
      (DynamoTable.exec gsi op t).2.msisdns = t.msisdns := by
  cases op with
  | transactIssue msisdn quota version c existing fault =>
    rcases transactIssue_cases gsi msisdn quota version c existing fault t with ⟨e, h⟩ | h <;>
      rw [h] <;> exact ⟨rfl, rfl⟩
  | replaceChallenge msisdn expected replacement =>
    simp only [DynamoTable.exec, DynamoTable.replaceChallenge]
    split
    · split_ifs <;> exact ⟨rfl, rfl⟩
    · exact ⟨rfl, rfl⟩
  | putSubscriber => exact hop.elim
  | deleteSubscriber => exact hop.elim
  | putMsisdn => exact hop.elim
  | deleteMsisdn => exact hop.elim
  | _ => exact ⟨rfl, rfl⟩

def dynamoChallenges : ChallengeStore DynamoTable where
  toDirectoryStore := dynamoDirectory gsi faults
  challenges := DynamoTable.challenges
  challenges_kept op t hop :=
    (impl_keepsChallenges faults hop).invariant (P := fun t' => t'.challenges = t.challenges)
      (fun op t' hkeeps h => (exec_keepsChallenges gsi hkeeps t').trans h) rfl
  directory_kept op t hop := by
    have hkept : ((DynamoDb.impl faults op).eval (DynamoTable.exec gsi) t).2.subscribers =
        t.subscribers ∧
        ((DynamoDb.impl faults op).eval (DynamoTable.exec gsi) t).2.msisdns = t.msisdns :=
      (impl_keepsDirectory faults hop).invariant
        (P := fun t' => t'.subscribers = t.subscribers ∧ t'.msisdns = t.msisdns)
        (fun op t' hkeeps h => ⟨(exec_keepsDirectory gsi hkeeps t').1.trans h.1,
          (exec_keepsDirectory gsi hkeeps t').2.trans h.2⟩) ⟨rfl, rfl⟩
    change Indexed.mk _ _ = Indexed.mk _ _
    rw [Indexed.mk.injEq]
    exact hkept
  found msisdn t x h := by
    change ((DynamoDb.getSubscriberByMsisdn msisdn).eval (DynamoTable.exec gsi) t).1 = some x at h
    simp only [DynamoDb.getSubscriberByMsisdn, Program.perform_bind, Program.eval_call] at h
    split at h
    · cases h
    · exact ⟨_, h⟩
  getOtp _ _ := rfl
  issue c cooldown cap now clock t := (issueFrom_leaves gsi faults c cooldown cap now clock _ t).2.2
  replace e r t := by
    change (t.replaceChallenge e.msisdn e r).2.challenges =
      if (t.replaceChallenge e.msisdn e r).1 = true then _ else t.challenges
    unfold DynamoTable.replaceChallenge
    cases hstored : t.challenges e.msisdn with
    | none => simp
    | some current => cases hsame : sameChallenge e current <;> simp [hsame]

end Stores
end Acs.OtpOwner
