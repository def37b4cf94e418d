import Acs.Api.MsisdnUi
import Acs.Auth.OtpProtocol
import Acs.Domain.ChallengeStore
import Acs.Domain.Serving

/-! Whose challenge a one-time code consumes, while subscribers are edited: on either store, one
request after another. -/

namespace Acs.OtpOwner
open Interleave Function SecondaryIndex MsisdnIndex

section Invariant
variable {σ : Type} (S : ChallengeStore σ)

/-- A challenge stands under its number, and no record has that number but the one it was issued
for; records stand under their own IMSI. -/
structure Owned (s : σ) : Prop where
  keyed : ∀ imsi x, (S.directory s).table imsi = some x → x.imsi = imsi
  numbered : ∀ msisdn c, S.challenges s msisdn = some c → c.msisdn = msisdn
  alone : ∀ msisdn c, S.challenges s msisdn = some c →
    (S.directory s).Alone Subscriber.msisdn c.imsi msisdn

def Admits (s : σ) : StoreOp → Prop
  | .putSubscriber x _ => ∀ c, S.challenges s x.msisdn = some c → x.imsi = c.imsi
  | .editSubscriber x => ∀ c, S.challenges s x.msisdn = some c → x.imsi = c.imsi
  | .issueOtp c .. => (S.directory s).Alone Subscriber.msisdn c.imsi c.msisdn
  | .replaceOtp e r =>
    S.challenges s e.msisdn = some e ∧ ∀ c, r = some c → c.imsi = e.imsi ∧ c.msisdn = e.msisdn
  | _ => True

variable {S} {s : σ}

theorem alone_update {d : Directory} {k imsi msisdn : String} {v : Option Subscriber}
    {index : String → Option String} (h : d.Alone Subscriber.msisdn imsi msisdn)
    (hv : ∀ x, v = some x → x.msisdn = msisdn → k = imsi) :
    (Indexed.mk (update d.table k v) index).Alone Subscriber.msisdn imsi msisdn := by
  intro k' hk'
  rw [Indexed.has_update] at hk'
  split_ifs at hk' with heq
  · obtain ⟨x, hx, hmsisdn⟩ := Option.map_eq_some_iff.mp hk'
    exact heq.trans (hv x hx hmsisdn)
  · exact h k' hk'

theorem Owned.put {s' : σ} {x y : Subscriber} {index : String → Option String} (h : Owned S s)
    (hchallenges : S.challenges s' = S.challenges s)
    (hdirectory : S.directory s' = ⟨update (S.directory s).table x.imsi (some y), index⟩)
    (himsi : y.imsi = x.imsi) (hmsisdn : y.msisdn = x.msisdn)
    (hadm : ∀ c, S.challenges s x.msisdn = some c → x.imsi = c.imsi) : Owned S s' := by
  constructor
  · rw [hdirectory]
    intro imsi z hz
    by_cases hk : imsi = x.imsi
    · subst hk
      obtain rfl : y = z := by simpa using hz
      exact himsi
    · exact h.keyed imsi z (by simpa [hk] using hz)
  · rw [hchallenges]
    exact h.numbered
  · rw [hchallenges, hdirectory]
    intro msisdn c hc
    apply alone_update (h.alone msisdn c hc)
    intro z hz hnumber
    obtain rfl := Option.some.inj hz
    exact hadm c (by rwa [← hmsisdn, hnumber])

theorem Owned.of_kept {s' : σ} (h : Owned S s) (hdirectory : S.directory s' = S.directory s)
    (hchallenges : S.challenges s' = S.challenges s) : Owned S s' := by
  constructor
  · rw [hdirectory]
    exact h.keyed
  · rw [hchallenges]
    exact h.numbered
  · rw [hdirectory, hchallenges]
    exact h.alone

theorem Owned.challenge {s' : σ} {msisdn : String} {r : Option OtpChallenge} (h : Owned S s)
    (hdirectory : S.directory s' = S.directory s)
    (hchallenges : S.challenges s' = update (S.challenges s) msisdn r)
    (hr : ∀ c, r = some c → c.msisdn = msisdn ∧
      (S.directory s).Alone Subscriber.msisdn c.imsi msisdn) : Owned S s' := by
  constructor
  · rw [hdirectory]
    exact h.keyed
  · rw [hchallenges]
    intro number c hc
    by_cases hk : number = msisdn
    · subst hk
      exact (hr c (by simpa using hc)).1
    · exact h.numbered number c (by simpa [hk] using hc)
  · rw [hchallenges, hdirectory]
    intro number c hc
    by_cases hk : number = msisdn
    · subst hk
      exact (hr c (by simpa using hc)).2
    · exact h.alone number c (by simpa [hk] using hc)

theorem owned_step (op : StoreOp) (s : σ) (hop : Admits S s op) (h : Owned S s) :
    Owned S (S.step op s).2 := by
  cases op with
  | putSubscriber x clock =>
    have hchallenges := S.challenges_kept (.putSubscriber x clock) s id
    exact h.put hchallenges (S.put x clock s) (S.stamp_imsi x clock) (S.stamp_msisdn x clock) hop
  | editSubscriber x =>
    have hchallenges := S.challenges_kept (.editSubscriber x) s id
    have hdirectory := S.edit x s
    split_ifs at hdirectory
    · exact h.put hchallenges hdirectory rfl rfl hop
    · exact h.of_kept hdirectory hchallenges
  | deleteSubscriber imsi =>
    have hchallenges := S.challenges_kept (.deleteSubscriber imsi) s id
    have hdirectory := S.delete imsi s
    constructor
    · rw [hdirectory]
      intro k x hx
      by_cases hk : k = imsi
      · simp [Indexed.remove, hk] at hx
      · exact h.keyed k x (by simpa [Indexed.remove, hk] using hx)
    · rw [hchallenges]
      exact h.numbered
    · rw [hchallenges, hdirectory]
      intro msisdn c hc
      exact alone_update (h.alone msisdn c hc) fun x hx => (by cases hx)
  | issueOtp c cooldown cap now clock =>
    have hdirectory := S.directory_kept (.issueOtp c cooldown cap now clock) s id
    rcases S.issue c cooldown cap now clock s with hkept | hissued
    · exact h.of_kept hdirectory hkept
    · exact h.challenge hdirectory hissued fun c' hc' => Option.some.inj hc' ▸ ⟨rfl, hop⟩
  | replaceOtp e r =>
    have hdirectory := S.directory_kept (.replaceOtp e r) s id
    have hreplaced := S.replace e r s
    split_ifs at hreplaced
    · refine h.challenge hdirectory hreplaced fun c hc => ?_
      obtain ⟨hstored, hr⟩ := hop
      obtain ⟨himsi, hmsisdn⟩ := hr c hc
      exact ⟨hmsisdn, himsi ▸ h.alone _ e hstored⟩
    · exact h.of_kept hdirectory hreplaced
  | _ => exact h.of_kept (S.directory_kept _ s id) (S.challenges_kept _ s id)

end Invariant

section Codes
variable {σ : Type} {S : ChallengeStore σ} {s : σ} {sha256 : String → String} {policy : OtpPolicy}
  {msisdn otp : String} {current : Int} {clock : Clock}

def Guesses (S : ChallengeStore σ) (msisdn : String) (s : σ) : StoreOp → Prop
  | .getOtp _ => True
  | .replaceOtp e r => e.msisdn = msisdn ∧ Admits S s (.replaceOtp e r)
  | _ => False

theorem admits_of_guesses (s : σ) (op : StoreOp) (h : Guesses S msisdn s op) : Admits S s op := by
  cases op <;> first | exact trivial | exact h.2 | exact h.elim

variable (sha256 policy msisdn otp) in
theorem judge_owner {c c' : OtpChallenge} (h : (Otp.judge sha256 policy msisdn otp c).2 = some c') :
    c'.imsi = c.imsi ∧ c'.msisdn = c.msisdn := by
  unfold Otp.judge at h
  dsimp only at h
  split_ifs at h
  cases h
  exact ⟨rfl, rfl⟩

theorem along_verifyFrom (h : Owned S s) (rounds : Nat) :
    (Otp.verifyFrom sha256 policy msisdn otp current clock rounds).Along S.step (Guesses S msisdn)
      s := by
  induction rounds generalizing s with
  | zero => trivial
  | succ rounds ih =>
    refine ⟨trivial, ?_⟩
    rw [S.getOtp]
    cases hfound : S.challenges s msisdn with
    | none => trivial
    | some c =>
      have hmsisdn := h.numbered msisdn c hfound
      have hreplace : ∀ r, (∀ c', r = some c' → c'.imsi = c.imsi ∧ c'.msisdn = c.msisdn) →
          Guesses S msisdn s (.replaceOtp c r) :=
        fun r hr => ⟨hmsisdn, by rw [hmsisdn]; exact hfound, hr⟩
      dsimp only [Program.bind]
      split_ifs
      · trivial
      · exact ⟨hreplace none nofun, trivial⟩
      · exact ⟨hreplace none nofun, trivial⟩
      · have hjudged := hreplace _ fun c' => judge_owner sha256 policy msisdn otp
        refine ⟨hjudged, ?_⟩
        have howned := owned_step _ s (admits_of_guesses s _ hjudged) h
        cases (S.step (.replaceOtp c (Otp.judge sha256 policy msisdn otp c).2) s).1 with
        | true => trivial
        | false => exact ih howned

theorem consumed_of_verified (rounds : Nat)
    (h : ((Otp.verifyFrom sha256 policy msisdn otp current clock rounds).eval S.step s).1 =
      .verified) :
    ∃ c, ⟨.replaceOtp c none, true⟩ ∈
      (Otp.verifyFrom sha256 policy msisdn otp current clock rounds).events S.step s := by
  induction rounds generalizing s with
  | zero => cases h
  | succ rounds ih =>
    simp only [Otp.verifyFrom, Store.getOtp, Store.replaceOtp, Program.perform_bind,
      Program.eval_call, Program.events_call, S.getOtp] at h ⊢
    cases hfound : S.challenges s msisdn with
    | none => simp [hfound] at h
    | some c =>
      rw [hfound] at h
      dsimp only at h ⊢
      split_ifs at h ⊢ with hconsumed hexpired hattempts
      · cases h
      · cases h
      · cases h
      · rw [Program.events_call]
        rw [Program.eval_call] at h
        cases hswapped : (S.step (.replaceOtp c (Otp.judge sha256 policy msisdn otp c).2) s).1 with
        | true =>
          rw [hswapped] at h
          rcases Otp.judge_cases sha256 policy msisdn otp c with
            ⟨-, hjudge⟩ | ⟨-, hjudge⟩ | ⟨-, hjudge⟩
          · rw [hjudge]
            exact ⟨c, List.mem_cons_of_mem _ List.mem_cons_self⟩
          · rw [hjudge] at h
            cases h
          · rw [hjudge] at h
            cases h
        | false =>
          rw [hswapped] at h
          obtain ⟨c', hc'⟩ := ih h
          exact ⟨c', List.mem_cons_of_mem _ (List.mem_cons_of_mem _ hc')⟩

theorem along_discardFrom (challenge : OtpChallenge) (h : Owned S s) (rounds : Nat) :
    (Otp.discardFrom challenge rounds).Along S.step (Admits S) s := by
  induction rounds generalizing s with
  | zero => trivial
  | succ rounds ih =>
    refine ⟨trivial, ?_⟩
    rw [S.getOtp]
    cases hfound : S.challenges s challenge.msisdn with
    | none => trivial
    | some c =>
      have hmsisdn := h.numbered _ c hfound
      dsimp only [Program.bind]
      split_ifs
      · have hadm : Admits S s (.replaceOtp c none) := ⟨by rw [hmsisdn]; exact hfound, nofun⟩
        refine ⟨hadm, ?_⟩
        have howned := owned_step _ s hadm h
        cases (S.step (.replaceOtp c none) s).1 with
        | true => trivial
        | false => exact ih howned
      · trivial

theorem along_createChallenge {imsi : String} {smsPort now : Option Int} {challengeId : String}
    (halone : (S.directory s).Alone Subscriber.msisdn imsi msisdn) :
    (Otp.createChallenge sha256 policy msisdn imsi smsPort now clock otp challengeId).Along S.step
      (Admits S) s := by
  refine ⟨halone, ?_⟩
  dsimp only [Program.bind]
  split <;> trivial

end Codes
end Acs.OtpOwner
