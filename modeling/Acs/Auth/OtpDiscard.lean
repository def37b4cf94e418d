import Acs.Auth.OtpRuns

/-! `discard_challenge` among any other OTP calls for the MSISDN: it takes no challenge but its
own, and its rounds outlast the guesses on it exactly when the policy allows no more attempts
than there are rounds. -/

namespace Acs.Otp
open Interleave Function

variable {ι : Type} [DecidableEq ι] (sha256 : String → String) (policy : OtpPolicy)
  (msisdn : String) (calls : ι → Call) (x : OtpChallenge)

/-- No two challenges share an id, none has the empty id of old records, and the attempts of
the one stored at first are a count. -/
structure Identified (m₀ : MemoryStore) : Prop extends
    Distinct sha256 policy msisdn calls m₀ where
  named : x.challengeId ≠ ""
  first : ∀ c, m₀.otp msisdn = some c → c.challengeId ≠ "" ∧ 0 ≤ c.attempts

def Late (d : ι) (tr : List (ι × StoreEvent)) : Prop :=
  ∀ j a, (calls j).issues sha256 policy msisdn = some a → a.challengeId = x.challengeId →
    ∀ pre e post, tr = pre ++ (d, e) :: post → Issued a j pre

/-- The call `d` leaves every challenge but `x` in place, and once it has returned, `x` is not
stored. -/
structure DiscardsExactly (m₀ : MemoryStore)
    (c : Config ι StoreOp StoreOp.Answer MemoryStore Result) (d : ι) : Prop where
  only : ∀ pre e post, c.trace = pre ++ (d, e) :: post → ∀ n s,
    (replay MemoryStore.exec m₀ pre).otp n = some s →
    n ≠ msisdn ∨ s.challengeId ≠ x.challengeId →
    (replay MemoryStore.exec m₀ (pre ++ [(d, e)])).otp n = some s
  gone : ∀ r, c.threads d = .result r → Gone x (c.shared.otp msisdn)

def lostRound : StoreEvent → Bool
  | ⟨.replaceOtp _ _, swapped⟩ => !swapped
  | _ => false

def Settles : StoreEvent → Prop
  | ⟨.getOtp _, stored⟩ => ∀ c ∈ stored, c.sameIssue x = false
  | ⟨.replaceOtp _ _, swapped⟩ => swapped = true
  | _ => False

def discardGuard (h : List StoreEvent) : StoreOp → Prop
  | .getOtp m => m = msisdn
  | .replaceOtp e r =>
    r = none ∧ e.sameIssue x ∧ h.getLast? = some ⟨.getOtp msisdn, some e⟩
  | _ => False

def discardPost (h : List StoreEvent) : Prop :=
  (∃ e, h.getLast? = some e ∧ Settles x e) ∨ h.countP lostRound = verifyRounds

variable {sha256 policy msisdn calls x} {m₀ m : MemoryStore} {tr : List (ι × StoreEvent)} {d : ι}

theorem discardFrom_pursues (hx : x.msisdn = msisdn) {rounds : Nat} {h : List StoreEvent}
    (hrounds : h.countP lostRound + rounds = verifyRounds) :
    (discardFrom x rounds).Obeys (discardGuard msisdn x) (fun h _ => discardPost x h) h := by
  induction rounds generalizing h with
  | zero => exact Or.inr hrounds
  | succ rounds ih =>
    refine ⟨hx, fun stored => ?_⟩
    cases stored with
    | none => exact Or.inl ⟨⟨.getOtp x.msisdn, none⟩, by simp, nofun⟩
    | some e =>
      dsimp only [Program.bind]
      split_ifs with hsame
      · refine ⟨⟨rfl, hsame, by simp [hx]⟩, fun swapped => ?_⟩
        cases swapped with
        | true => exact Or.inl ⟨⟨.replaceOtp e none, true⟩, by simp, rfl⟩
        | false =>
          refine ih ?_
          have hget : lostRound (⟨.getOtp x.msisdn, some e⟩ : StoreEvent) = false := rfl
          have hlost : lostRound (⟨.replaceOtp e none, false⟩ : StoreEvent) = true := rfl
          simp only [List.countP_append, List.countP_singleton, hget, hlost]
          simp only [if_true, Bool.false_eq_true, if_false]
          omega
      · refine Or.inl ⟨⟨.getOtp x.msisdn, some e⟩, by simp, ?_⟩
        rintro c ⟨⟩
        exact Bool.eq_false_iff.mpr hsame

def Pursues (msisdn : String) (call : Call) (h : List StoreEvent) (op : StoreOp) : Prop :=
  ∀ x, call = .discard x → discardGuard msisdn { x with msisdn } h op

theorem program_pursues (call : Call) :
    (call.program sha256 policy msisdn).Obeys (Pursues msisdn call)
      (fun h _ => ∀ x, call = .discard x → discardPost { x with msisdn } h) [] := by
  cases call with
  | discard x =>
    refine (Program.Obeys.mono (discardFrom_pursues rfl rfl) ?_ ?_).bind
    · rintro h op hg _ ⟨⟩
      exact hg
    · rintro h _ hp _ ⟨⟩
      exact hp
  | verify | create =>
    exact (Program.obeys_trivial _ _).mono (fun _ _ _ => nofun) (fun _ _ _ => nofun)

theorem discardFrom_succ_bind {β : Type} (challenge : OtpChallenge) (rounds : Nat)
    (f : Bool → StoreProgram β) :
    discardFrom challenge (rounds + 1) >>= f =
      .call (.getOtp challenge.msisdn) fun stored => match stored with
        | none => f false
        | some current => if current.sameIssue challenge then
            .call (.replaceOtp current none) fun swapped =>
              if swapped then f true else discardFrom challenge rounds >>= f
          else f false := by
  refine congrArg (Program.call (StoreOp.getOtp challenge.msisdn)) (funext fun stored => ?_)
  cases stored with
  | none => rfl
  | some current =>
    dsimp only [Program.bind]
    split_ifs
    · refine congrArg (Program.call (StoreOp.replaceOtp current none)) (funext fun swapped => ?_)
      cases swapped <;> rfl
    · rfl

theorem sameIssue_iff {c : OtpChallenge} (hc : c.challengeId ≠ "") (hx : x.challengeId ≠ "") :
    c.sameIssue x = true ↔ c.challengeId = x.challengeId := by
  rw [OtpChallenge.sameIssue, if_pos ⟨hc, hx⟩, decide_eq_true_iff]

theorem unchanged_iff {c e : OtpChallenge} (he : e.challengeId ≠ "") :
    unchanged c e = true ↔ c.attempts = e.attempts ∧ c.challengeId = e.challengeId := by
  rw [unchanged]
  split_ifs with hattempts
  · simp [hattempts]
  · simp [Classical.not_not.mp hattempts]

structure Named (msisdn : String) (tr : List (ι × StoreEvent)) (stored : Option OtpChallenge) :
    Prop where
  stored : ∀ c ∈ stored, c.challengeId ≠ "" ∧ 0 ≤ c.attempts
  read : ∀ i e, (i, (⟨.getOtp msisdn, some e⟩ : StoreEvent)) ∈ tr →
    e.challengeId ≠ "" ∧ 0 ≤ e.attempts

theorem attempts_of_issues {call : Call} {a : OtpChallenge}
    (h : call.issues sha256 policy msisdn = some a) : a.attempts = 0 := by
  cases call <;> cases h
  rfl

theorem Named.step {i : ι} {before after : Option OtpChallenge} {ev : StoreEvent}
    (hd : Distinct sha256 policy msisdn calls m₀) (hn : Named msisdn tr before)
    (heff : Effect sha256 policy msisdn calls tr i before ev after) :
    Named msisdn (tr ++ [(i, ev)]) after := by
  constructor
  · cases heff with
    | read | refused | lost => exact hn.stored
    | issued hissues =>
      rintro _ ⟨⟩
      exact ⟨hd.nonempty i _ hissues, (attempts_of_issues hissues).ge⟩
    | @replaced c e hc hu hread =>
      obtain ⟨hid, hattempts⟩ := hn.read i e hread
      rcases (calls i).replacement_cases sha256 policy msisdn e with h | ⟨-, -, h⟩ <;> rw [h]
      · nofun
      · rintro c ⟨⟩
        exact ⟨hid, Int.add_nonneg hattempts (by decide)⟩
  · intro i' e h
    rcases mem_read_snoc heff h with h | h
    · exact hn.read i' e h
    · exact hn.stored e h

theorem named_of_history (hd : Identified sha256 policy msisdn calls x m₀)
    (h : OtpHistory sha256 policy msisdn calls m₀ tr m) : Named msisdn tr (m.otp msisdn) :=
  h.invariant (P := fun tr m => Named msisdn tr (m.otp msisdn)) ⟨hd.first, by simp⟩
    fun _ _ _ _ htr hg hn =>
      hn.step hd.toDistinct (effect_of_guard (keyed_of_history hd.toDistinct htr) hg)

/-! ### Lost rounds are attempts -/

/-- How a discard of `x` that has seen `h` stands to what is stored: each round it lost is an
attempt on `x`, made since and below the policy's bound, and once settled `x` is gone. -/
structure Pursued (policy : OtpPolicy) (msisdn : String) (x : OtpChallenge) (h : List StoreEvent)
    (stored : Option OtpChallenge) : Prop where
  moved : ∀ c ∈ stored, c.challengeId = x.challengeId →
    (h.countP lostRound : Int) ≤ c.attempts ∧
      (0 < h.countP lostRound → c.attempts < policy.maxAttempts)
  read : ∀ e, h.getLast? = some ⟨.getOtp msisdn, some e⟩ → e.challengeId = x.challengeId →
    ∀ c ∈ stored, c.challengeId = x.challengeId → (h.countP lostRound : Int) ≤ e.attempts ∧
      e.attempts ≤ c.attempts ∧ (e.attempts < c.attempts → c.attempts < policy.maxAttempts)
  settled : ∀ e, h.getLast? = some e → Settles x e → Gone x stored

theorem countP_snoc_getOtp (h : List StoreEvent) (n : String) (stored : Option OtpChallenge) :
    (h ++ [(⟨.getOtp n, stored⟩ : StoreEvent)]).countP lostRound = h.countP lostRound := by
  have hget : lostRound (⟨.getOtp n, stored⟩ : StoreEvent) = false := rfl
  simp [hget]

theorem countP_snoc_lost (h : List StoreEvent) (e : OtpChallenge) (r : Option OtpChallenge) :
    (h ++ [(⟨.replaceOtp e r, false⟩ : StoreEvent)]).countP lostRound =
      h.countP lostRound + 1 := by
  have hlost : lostRound (⟨.replaceOtp e r, false⟩ : StoreEvent) = true := rfl
  simp [hlost]

theorem exec_replaceOtp_false {e : OtpChallenge} {r : Option OtpChallenge}
    (h : (MemoryStore.exec (.replaceOtp e r) m).1 = false) :
    (MemoryStore.exec (.replaceOtp e r) m).2 = m ∧
      ∀ c, m.otp e.msisdn = some c → unchanged c e = false := by
  simp only [MemoryStore.exec, MemoryStore.replaceOtp] at h ⊢
  cases hm : m.otp e.msisdn with
  | none => exact ⟨rfl, fun _ h => (by cases h)⟩
  | some c =>
    simp only [hm] at h ⊢
    split_ifs at h ⊢ with hu
    refine ⟨rfl, ?_⟩
    rintro c' ⟨⟩
    exact Bool.eq_false_iff.mpr hu

theorem exec_replaceOtp_true {e : OtpChallenge} {r : Option OtpChallenge}
    (h : (MemoryStore.exec (.replaceOtp e r) m).1 = true) :
    ∃ c, m.otp e.msisdn = some c ∧ unchanged c e ∧
      (MemoryStore.exec (.replaceOtp e r) m).2 = { m with otp := update m.otp e.msisdn r } := by
  rcases exec_replaceOtp e r m with ⟨c, hc, hu, hexec⟩ | hexec
  · exact ⟨c, hc, hu, by rw [hexec]⟩
  · rw [hexec] at h
    cases h

section Step
variable {h : List StoreEvent} {stored : Option OtpChallenge}

theorem Pursued.step_read (hx : x.challengeId ≠ "") (hn : ∀ c ∈ stored, c.challengeId ≠ "")
    (hp : Pursued policy msisdn x h stored) :
    Pursued policy msisdn x (h ++ [⟨.getOtp msisdn, stored⟩]) stored := by
  constructor
  · rw [countP_snoc_getOtp]
    exact hp.moved
  · intro e hlast _ c hc hid
    rw [List.getLast?_concat] at hlast
    obtain rfl : stored = some e := by
      injection hlast with hlast
      exact eq_of_heq (Sigma.mk.inj hlast).2
    obtain rfl : e = c := Option.some.inj hc
    rw [countP_snoc_getOtp]
    exact ⟨(hp.moved e rfl hid).1, le_rfl, fun hlt => absurd hlt (lt_irrefl _)⟩
  · intro e hlast hsettles c hc hid
    rw [List.getLast?_concat] at hlast
    obtain rfl := Option.some.inj hlast
    have hsame : c.sameIssue x = true := (sameIssue_iff (hn c hc) hx).mpr hid
    have hdiff : c.sameIssue x = false := hsettles c hc
    rw [hsame] at hdiff
    cases hdiff

/-- A round is lost only to an attempt made since the discard read the challenge. -/
theorem Pursued.step_lost {e : OtpChallenge} (hp : Pursued policy msisdn x h stored)
    (hlast : h.getLast? = some ⟨.getOtp msisdn, some e⟩) (hid : e.challengeId = x.challengeId)
    (hx : x.challengeId ≠ "") (hlost : ∀ c, stored = some c → unchanged c e = false) :
    Pursued policy msisdn x (h ++ [⟨.replaceOtp e none, false⟩]) stored := by
  constructor
  · intro c hc hcid
    obtain ⟨hle, hec, hlt⟩ := hp.read e hlast hid c hc hcid
    have hne : c.attempts ≠ e.attempts := fun heq => by
      have hu := (unchanged_iff (c := c) (hid ▸ hx)).mpr ⟨heq, hcid.trans hid.symm⟩
      rw [hlost c hc] at hu
      cases hu
    have hmoved : e.attempts < c.attempts := lt_of_le_of_ne hec (Ne.symm hne)
    rw [countP_snoc_lost]
    exact ⟨by push_cast; omega, fun _ => hlt hmoved⟩
  · intro e' hlast'
    rw [List.getLast?_concat] at hlast'
    cases hlast'
  · intro e' hlast' hsettles
    rw [List.getLast?_concat] at hlast'
    obtain rfl := Option.some.inj hlast'
    cases hsettles

theorem Pursued.step_taken : Pursued policy msisdn x h none :=
  ⟨nofun, fun _ _ _ => nofun, fun _ _ _ => nofun⟩

theorem Pursued.step_other {i : ι} {before after : Option OtpChallenge} {ev : StoreEvent}
    (hx : x.challengeId ≠ "")
    (hlate : ∀ a, (calls i).issues sha256 policy msisdn = some a →
      a.challengeId = x.challengeId → ofThread i tr = [] → h = [])
    (hp : Pursued policy msisdn x h before)
    (heff : Effect sha256 policy msisdn calls tr i before ev after) :
    Pursued policy msisdn x h after := by
  cases heff with
  | read | refused | lost => exact hp
  | @issued a _ _ _ _ hissues hidle =>
    have hnil : a.challengeId = x.challengeId → h = [] := fun hid => hlate a hissues hid hidle
    refine ⟨?_, ?_, ?_⟩
    · rintro c ⟨⟩ hid
      rw [hnil hid, attempts_of_issues hissues]
      exact ⟨le_rfl, fun hlt => absurd hlt (lt_irrefl 0)⟩
    · rintro e hlast - c ⟨⟩ hid
      rw [hnil hid] at hlast
      cases hlast
    · rintro e hlast - c ⟨⟩ hid
      rw [hnil hid] at hlast
      cases hlast
  | @replaced c e hc hu hread =>
    rcases (calls i).replacement_cases sha256 policy msisdn e with hr | ⟨-, hlt, hr⟩ <;> rw [hr]
    · exact .step_taken
    · have hattempts := attempts_of_unchanged hu
      have hcid : e.challengeId = x.challengeId → c.challengeId = x.challengeId := fun hid =>
        (id_of_unchanged hu (hid ▸ hx)).trans hid
      refine ⟨?_, ?_, ?_⟩
      · rintro c' ⟨⟩ hid
        obtain ⟨hle, -⟩ := hp.moved c hc (hcid hid)
        exact ⟨by dsimp only; omega, fun _ => hlt⟩
      · rintro e' hlast hid' c' ⟨⟩ hid
        obtain ⟨hle, hec, -⟩ := hp.read e' hlast hid' c hc (hcid hid)
        exact ⟨hle, by dsimp only; omega, fun _ => hlt⟩
      · rintro e' hlast hsettles c' ⟨⟩ hid
        exact hp.settled e' hlast hsettles c hc (hcid hid)

end Step

section Run
variable {whole : List (ι × StoreEvent)}

abbrev PursuedHistory (sha256 : String → String) (policy : OtpPolicy) (msisdn : String)
    (calls : ι → Call) (m₀ : MemoryStore) (tr : List (ι × StoreEvent)) (m : MemoryStore) : Prop :=
  History MemoryStore.exec (fun i h op => (calls i).guard sha256 policy msisdn h op ∧
    Pursues msisdn (calls i) h op) m₀ tr m

theorem history_of_pursued (h : PursuedHistory sha256 policy msisdn calls m₀ tr m) :
    OtpHistory sha256 policy msisdn calls m₀ tr m := h.mono fun _ _ _ hg => hg.1

theorem idle_of_late {i : ι} {a : OtpChallenge} (hlate : Late sha256 policy msisdn calls x d whole)
    (hin : tr <+: whole) (hissues : (calls i).issues sha256 policy msisdn = some a)
    (hid : a.challengeId = x.challengeId) (hidle : ofThread i tr = []) : ofThread d tr = [] := by
  by_contra hne
  obtain ⟨e, he⟩ := List.exists_mem_of_ne_nil _ hne
  obtain ⟨pre, post, rfl⟩ := List.append_of_mem (mem_ofThread.mp he)
  obtain ⟨rest, rfl⟩ := hin
  have hissued : Issued a i pre :=
    hlate i a hissues hid pre e (post ++ rest) (by simp)
  exact not_issued_of_idle hidle (hissued.mono (List.prefix_append _ _))

theorem pursued_of_history (hd : Identified sha256 policy msisdn calls x m₀)
    (hcall : calls d = .discard x) (hlate : Late sha256 policy msisdn calls x d tr)
    (h : PursuedHistory sha256 policy msisdn calls m₀ tr m) :
    Pursued policy msisdn x (ofThread d tr) (m.otp msisdn) := by
  have hstart : Pursued policy msisdn x (ofThread d []) (m₀.otp msisdn) := by
    rw [ofThread_nil]
    refine ⟨fun c hc _ => ⟨(hd.first c hc).2, fun hlt => absurd hlt (lt_irrefl 0)⟩, ?_, ?_⟩
    · rintro e ⟨⟩
    · rintro e ⟨⟩
  have h' : PursuedHistory sha256 policy msisdn calls m₀ ([] ++ tr) m := h
  refine h'.along (P := fun tr m => Pursued policy msisdn x (ofThread d tr) (m.otp msisdn))
    hstart ?_
  intro tr' s i op _ hin htr hg hp
  have hnamed := named_of_history hd (history_of_pursued htr)
  have hkeyed := keyed_of_history hd.toDistinct (history_of_pursued htr)
  by_cases hi : i = d
  · subst hi
    rw [ofThread_snoc_self]
    have hguard := hg.2 x hcall
    cases op with
    | getOtp n =>
      obtain rfl : n = msisdn := hguard
      exact hp.step_read hd.named fun c hc => (hnamed.stored c hc).1
    | replaceOtp e r =>
      obtain ⟨rfl, hsame, hlast⟩ := hguard
      have hread := mem_ofThread.mp (List.mem_of_getLast? hlast)
      have hid : e.challengeId = x.challengeId :=
        (sameIssue_iff (x := { x with msisdn }) (hnamed.read i e hread).1 hd.named).mp hsame
      have hm := hkeyed.read i e hread
      cases hans : (MemoryStore.exec (.replaceOtp e none) s).1 with
      | false =>
        obtain ⟨hkept, hlost⟩ := exec_replaceOtp_false hans
        rw [hkept]
        exact hp.step_lost hlast hid hd.named (hm ▸ hlost)
      | true =>
        obtain ⟨c, -, -, hexec⟩ := exec_replaceOtp_true hans
        have hnone : (MemoryStore.exec (.replaceOtp e none) s).2.otp msisdn = none := by
          rw [hexec, hm]
          exact update_self ..
        rw [hnone]
        exact .step_taken
    | _ => exact hguard.elim
  · rw [ofThread_snoc_ne hi]
    have htr' : tr' <+: tr := (List.prefix_append _ _).trans hin
    exact hp.step_other hd.named (fun a ha hid hidle => idle_of_late hlate htr' ha hid hidle)
      (effect_of_guard hkeyed hg.1)

theorem only_of_history {pre post : List (ι × StoreEvent)} {e : StoreEvent}
    (hd : Identified sha256 policy msisdn calls x m₀) (hcall : calls d = .discard x)
    (h : PursuedHistory sha256 policy msisdn calls m₀ (pre ++ (d, e) :: post) m)
    {n : String} {s : OtpChallenge} (hs : (replay MemoryStore.exec m₀ pre).otp n = some s)
    (hother : n ≠ msisdn ∨ s.challengeId ≠ x.challengeId) :
    (replay MemoryStore.exec m₀ (pre ++ [(d, e)])).otp n = some s := by
  obtain ⟨hpre, ⟨-, hg⟩, -⟩ := h.at
  have hguard := hg x hcall
  rw [replay_snoc]
  obtain ⟨op, ans⟩ := e
  cases op with
  | getOtp n => exact hs
  | replaceOtp e r =>
    obtain ⟨rfl, hsame, hlast⟩ := hguard
    have hread := mem_ofThread.mp (List.mem_of_getLast? hlast)
    have hname := (named_of_history hd (history_of_pursued hpre)).read d e hread
    have hid : e.challengeId = x.challengeId :=
      (sameIssue_iff (x := { x with msisdn }) hname.1 hd.named).mp hsame
    have hm := (keyed_of_history hd.toDistinct (history_of_pursued hpre)).read d e hread
    rcases exec_replaceOtp e none (replay MemoryStore.exec m₀ pre) with ⟨c, hc, hu, hexec⟩ | hexec
    · have hn : n ≠ msisdn := by
        rintro rfl
        rw [hm, hs] at hc
        obtain rfl := Option.some.inj hc
        have hsid := ((unchanged_iff hname.1).mp hu).2.trans hid
        exact hother.elim (fun h => h rfl) fun h => h hsid
      rw [hexec, hm]
      exact (update_of_ne hn _ _).trans hs
    · rw [hexec]
      exact hs
  | _ => exact hguard.elim

/-- With no more attempts to spend than the discard has rounds, it returns only once the challenge
is gone. -/
theorem gone_of_post {h : List StoreEvent} {stored : Option OtpChallenge}
    (hmax : policy.maxAttempts ≤ verifyRounds) (hp : Pursued policy msisdn x h stored)
    (hpost : discardPost x h) : Gone x stored := by
  rcases hpost with ⟨e, hlast, hsettles⟩ | hlost
  · exact hp.settled e hlast hsettles
  · intro c hc hid
    obtain ⟨hle, hlt⟩ := hp.moved c hc hid
    rw [hlost] at hle hlt
    have hbound := hlt (by decide)
    omega

end Run

/-! ### Guesses that outlast the rounds -/

def guessed (sha256 : String → String) (msisdn : String) (attempts : Int) : OtpChallenge :=
  { msisdn, otpHash := hashOtp sha256 msisdn "" ++ "0", imsi := "450051234567890", attempts,
    createdAt := 1700000000, expiresAt := 1700000300, challengeId := "c1" }

def besieged (sha256 : String → String) (msisdn : String) : ℕ → Call
  | 0 => .discard (guessed sha256 msisdn 0)
  | _ + 1 => .verify "" none ⟨1700000060, by decide⟩

theorem guessed_otpHash_ne (a : Int) :
    (guessed sha256 msisdn a).otpHash ≠ hashOtp sha256 msisdn "" := by
  intro h
  have hlen := congrArg String.length h
  simp [guessed] at hlen

theorem judge_guessed {a : Int} (hlt : a + 1 < policy.maxAttempts) :
    judge sha256 policy msisdn "" (guessed sha256 msisdn a) =
      (.mismatch, some (guessed sha256 msisdn (a + 1))) := by
  simp only [judge, guessed_otpHash_ne, if_false]
  exact if_neg (Int.not_le.mpr hlt)

theorem exec_getOtp_of_stored {c : OtpChallenge} (hm : m.otp msisdn = some c) :
    MemoryStore.exec (.getOtp msisdn) m = (some c, m) := Prod.ext hm rfl

theorem exec_replace_guessed {a : Int} (r : Option OtpChallenge)
    (hm : m.otp msisdn = some (guessed sha256 msisdn a)) :
    MemoryStore.exec (.replaceOtp (guessed sha256 msisdn a) r) m =
      (true, { m with otp := update m.otp msisdn r }) := by
  have hkey : (guessed sha256 msisdn a).msisdn = msisdn := rfl
  have hid : (guessed sha256 msisdn a).challengeId ≠ "" := by simp [guessed]
  simp only [MemoryStore.exec, MemoryStore.replaceOtp, hkey, hm]
  exact if_pos ((unchanged_iff hid).mpr ⟨rfl, rfl⟩)

theorem exec_replace_stale {a : Int}
    (hm : m.otp msisdn = some (guessed sha256 msisdn (a + 1))) :
    MemoryStore.exec (.replaceOtp (guessed sha256 msisdn a) none) m = (false, m) := by
  have hkey : (guessed sha256 msisdn a).msisdn = msisdn := rfl
  have hid : (guessed sha256 msisdn a).challengeId ≠ "" := by simp [guessed]
  simp only [MemoryStore.exec, MemoryStore.replaceOtp, hkey, hm]
  refine if_neg fun hu => ?_
  have hattempts : a + 1 = a := ((unchanged_iff hid).mp hu).1
  omega

theorem eval_wrongGuess {a : Int} (hlt : a + 1 < policy.maxAttempts)
    (hm : m.otp msisdn = some (guessed sha256 msisdn a)) (k : ℕ) :
    (((besieged sha256 msisdn (k + 1)).program sha256 policy msisdn).eval MemoryStore.exec
      m).2.otp msisdn = some (guessed sha256 msisdn (a + 1)) := by
  have hexpired : (guessed sha256 msisdn a).expired (some 1700000060)
      ⟨1700000060, by decide⟩ = false := rfl
  have hmax : ¬ (guessed sha256 msisdn a).attempts ≥ policy.maxAttempts := by
    change ¬ a ≥ policy.maxAttempts
    omega
  have hnow : Clock.orNow ⟨1700000060, by decide⟩ none = 1700000060 := rfl
  have hconsumed : (guessed sha256 msisdn a).consumed = false := rfl
  simp only [besieged, Call.program, verifyChallenge, verifyRounds, verifyFrom, Store.getOtp,
    Store.replaceOtp, Program.perform_bind, Program.call_bind, Program.eval_call,
    exec_getOtp_of_stored hm, exec_replace_guessed _ hm, hnow, hconsumed, hexpired, hmax,
    judge_guessed hlt, if_true, if_false, Bool.false_eq_true]
  exact update_self ..

theorem exists_outlasted {c : Config ℕ StoreOp StoreOp.Answer MemoryStore Result} {rounds k : ℕ}
    {a : Int} (hlt : a + rounds < policy.maxAttempts)
    (hdiscard : c.threads 0 = discardFrom (guessed sha256 msisdn 0) rounds >>= fun b =>
      .result (.discarded b))
    (hguesses : ∀ i, k ≤ i →
      c.threads (i + 1) = (besieged sha256 msisdn (i + 1)).program sha256 policy msisdn)
    (hm : c.shared.otp msisdn = some (guessed sha256 msisdn a)) :
    ∃ schedule, (c.run MemoryStore.exec schedule).threads 0 = .result (.discarded false) ∧
      (c.run MemoryStore.exec schedule).shared.otp msisdn =
        some (guessed sha256 msisdn (a + rounds)) := by
  induction rounds generalizing c k a with
  | zero => exact ⟨[], hdiscard, hm.trans (by simp)⟩
  | succ rounds ih =>
    have hsame : (guessed sha256 msisdn a).sameIssue (guessed sha256 msisdn 0) = true := rfl
    have hkey : (guessed sha256 msisdn 0).msisdn = msisdn := rfl
    rw [discardFrom_succ_bind, hkey] at hdiscard
    -- the discard reads the challenge,
    have hread : (c.step MemoryStore.exec 0).threads 0 = _ := Config.threads_step_self hdiscard
    have hm₁ : (c.step MemoryStore.exec 0).shared = _ := Config.shared_step hdiscard
    simp only [exec_getOtp_of_stored hm, hsame, if_true] at hread hm₁
    -- a guess on it is judged,
    have hguess := hguesses k le_rfl
    have hkept : (c.step MemoryStore.exec 0).threads (k + 1) = c.threads (k + 1) :=
      Config.threads_step_of_ne (Nat.succ_ne_zero k)
    rw [← hkept] at hguess
    obtain ⟨n, hm₂, -, hothers⟩ := Config.run_alone MemoryStore.exec _ hguess
    replace hm₂ := (congrArg (fun m => m.otp msisdn) hm₂).trans
      (@eval_wrongGuess _ policy _ _ a (by omega) (hm₁ ▸ hm) k)
    have hreplace := (hothers 0 (Nat.succ_ne_zero k).symm).trans hread
    -- and its deletion comes too late
    have hlost : (((c.step MemoryStore.exec 0).run MemoryStore.exec
        (List.replicate n (k + 1))).step MemoryStore.exec 0).threads 0 = _ :=
      Config.threads_step_self hreplace
    have hm₃ : (((c.step MemoryStore.exec 0).run MemoryStore.exec
        (List.replicate n (k + 1))).step MemoryStore.exec 0).shared = _ :=
      Config.shared_step hreplace
    rw [exec_replace_stale hm₂] at hlost hm₃
    obtain ⟨schedule, hreturned, hstored⟩ := ih (k := k + 1) (a := a + 1) (by omega) hlost
      (fun i hi => by
        rw [Config.threads_step_of_ne (Nat.succ_ne_zero i), hothers _ (by omega),
          Config.threads_step_of_ne (Nat.succ_ne_zero i)]
        exact hguesses i (by omega))
      (hm₃ ▸ hm₂)
    refine ⟨0 :: (List.replicate n (k + 1) ++ 0 :: schedule), ?_, ?_⟩
    · rw [Config.run_cons, Config.run_append, Config.run_cons]
      exact hreturned
    · rw [Config.run_cons, Config.run_append, Config.run_cons, hstored]
      congr 2
      push_cast
      omega

/-! ### The policies under which a failed delivery leaves nothing behind -/

theorem discardsExactly_run (hmax : policy.maxAttempts ≤ verifyRounds)
    (hd : Identified sha256 policy msisdn calls x m₀) (hcall : calls d = .discard x)
    (schedule : List ι)
    (hlate : Late sha256 policy msisdn calls x d
      (runOf sha256 policy msisdn calls m₀ schedule).trace) :
    DiscardsExactly msisdn x m₀ (runOf sha256 policy msisdn calls m₀ schedule) d := by
  obtain ⟨hist, hobeys⟩ := run_history MemoryStore.exec m₀ (fun i =>
    (program_obeys sha256 policy msisdn (calls i)).and (program_pursues (calls i))) schedule
  change PursuedHistory sha256 policy msisdn calls m₀
    (runOf sha256 policy msisdn calls m₀ schedule).trace
    (runOf sha256 policy msisdn calls m₀ schedule).shared at hist
  constructor
  · intro pre e post htr n s hs hother
    rw [htr] at hist
    exact only_of_history hd hcall hist hs hother
  · intro r hr
    have hpost := hobeys d
    have hr' : ((start m₀ fun i => (calls i).program sha256 policy msisdn).run MemoryStore.exec
      schedule).threads d = .result r := hr
    rw [hr'] at hpost
    exact gone_of_post hmax (pursued_of_history hd hcall hlate hist) (hpost.2 x hcall)

theorem issues_besieged (i : ℕ) : (besieged sha256 msisdn i).issues sha256 policy msisdn = none := by
  cases i <;> rfl

/-- Whatever else the calls for the MSISDN do, a discard removes exactly its own challenge, if and
only if the policy allows no more attempts than the discard has rounds. -/
theorem discard_exact_iff (sha256 : String → String) (policy : OtpPolicy) (msisdn : String) :
    (∀ (ι : Type) [DecidableEq ι] (calls : ι → Call) (m₀ : MemoryStore) (x : OtpChallenge) (d : ι)
        (schedule : List ι), calls d = .discard x →
      Identified sha256 policy msisdn calls x m₀ →
      Late sha256 policy msisdn calls x d (runOf sha256 policy msisdn calls m₀ schedule).trace →
      DiscardsExactly msisdn x m₀ (runOf sha256 policy msisdn calls m₀ schedule) d) ↔
    policy.maxAttempts ≤ verifyRounds := by
  constructor
  · intro hexact
    by_contra hmax
    -- one wrong guess in each round of the discard
    let m₀ : MemoryStore := { otp := update (fun _ => none) msisdn (some (guessed sha256 msisdn 0)) }
    have hm₀ : m₀.otp msisdn = some (guessed sha256 msisdn 0) := by simp [m₀]
    obtain ⟨schedule, hreturned, hstored⟩ := @exists_outlasted _ policy _
      (start m₀ fun i => (besieged sha256 msisdn i).program sha256 policy msisdn) verifyRounds 0 0
      (by omega) rfl (fun _ _ => rfl) hm₀
    have hnone : ∀ i a, (besieged sha256 msisdn i).issues sha256 policy msisdn ≠ some a := by
      intro i a h
      rw [issues_besieged] at h
      cases h
    have hid : (guessed sha256 msisdn 0).challengeId ≠ "" := by simp [guessed]
    have hd : Identified sha256 policy msisdn (besieged sha256 msisdn) (guessed sha256 msisdn 0)
        m₀ := by
      refine ⟨⟨fun i j a b ha => absurd ha (hnone i a), fun i a ha => absurd ha (hnone i a),
        fun i a c ha => absurd ha (hnone i a), ?_⟩, hid, ?_⟩
      · intro c hc
        obtain rfl := Option.some.inj (hm₀.symm.trans hc)
        rfl
      · intro c hc
        obtain rfl := Option.some.inj (hm₀.symm.trans hc)
        exact ⟨hid, le_rfl⟩
    have hgone := (hexact ℕ (besieged sha256 msisdn) m₀ (guessed sha256 msisdn 0) 0 schedule rfl hd
      (fun j a ha => absurd ha (hnone j a))).gone _ hreturned
    exact hgone _ hstored rfl
  · intro hmax ι _ calls m₀ x d schedule hcall hd hlate
    exact discardsExactly_run hmax hd hcall schedule hlate

namespace Lab

def patient : OtpPolicy := { maxAttempts := 6 }

def undelivered : OtpChallenge :=
  newChallenge id patient "821012345678" "450051234567890" none 1700000000 "123456" "c1"

def raced : Fin 7 → Call
  | 0 => .create "450051234567890" none none ⟨1700000000, by decide⟩ "123456" "c1"
  | 1 => .discard undelivered
  | _ => .verify "000000" none ⟨1700000060, by decide⟩

/-- In each round of the discard one guess is judged between its read and its deletion. -/
def schedule : List (Fin 7) :=
  [0, 1, 2, 2, 1, 1, 3, 3, 1, 1, 4, 4, 1, 1, 5, 5, 1, 1, 6, 6, 1]

theorem run_issued : (runOf id patient "821012345678" raced {} [0]).trace =
    [(0, ⟨.issueOtp undelivered 60 10 1700000000 ⟨1700000000, by decide⟩, .ok none⟩)] := rfl

theorem run_returned : (runOf id patient "821012345678" raced {} schedule).threads 1 =
    .result (.discarded false) := rfl

theorem run_stored : (runOf id patient "821012345678" raced {} schedule).shared.otp "821012345678" =
    some { undelivered with attempts := 5 } := rfl

/-- A discard that lost a round to each of five wrong guesses leaves its challenge stored. -/
theorem discard_outlasted : ¬ ∀ (calls : Fin 7 → Call) (m₀ : MemoryStore) (x : OtpChallenge)
    (d : Fin 7) (schedule : List (Fin 7)), calls d = .discard x →
    Identified id patient "821012345678" calls x m₀ →
    Late id patient "821012345678" calls x d
      (runOf id patient "821012345678" calls m₀ schedule).trace →
    DiscardsExactly "821012345678" x m₀ (runOf id patient "821012345678" calls m₀ schedule) d := by
  intro hexact
  have hissues : ∀ i a, (raced i).issues id patient "821012345678" = some a →
      i = 0 ∧ a = undelivered := by
    intro i a ha
    match i, ha with
    | 0, ha => exact ⟨rfl, (Option.some.inj ha).symm⟩
    | 1, ha => cases ha
    | 2, ha | 3, ha | 4, ha | 5, ha | 6, ha => cases ha
  have hid : undelivered.challengeId ≠ "" := by decide
  have hd : Identified id patient "821012345678" raced undelivered {} := by
    refine ⟨⟨fun i j a b ha hb _ => (hissues i a ha).1.trans (hissues j b hb).1.symm, ?_, ?_, ?_⟩,
      hid, ?_⟩
    · intro i a ha
      rw [(hissues i a ha).2]
      exact hid
    · rintro _ _ _ _ ⟨⟩
    · rintro _ ⟨⟩
    · rintro _ ⟨⟩
  have hlate : Late id patient "821012345678" raced undelivered 1
      (runOf id patient "821012345678" raced {} schedule).trace := by
    intro j a ha _ pre e post htr
    obtain ⟨rfl, rfl⟩ := hissues j a ha
    have hfirst := Config.trace_prefix_run MemoryStore.exec
      (runOf id patient "821012345678" raced {} [0]) schedule.tail
    rw [run_issued, runOf, ← Config.run_append] at hfirst
    change _ <+: (runOf id patient "821012345678" raced {} schedule).trace at hfirst
    rw [htr] at hfirst
    cases pre with
    | nil => cases (List.cons_prefix_cons.mp hfirst).1
    | cons first pre =>
      obtain ⟨rfl, -⟩ := List.cons_prefix_cons.mp hfirst
      exact ⟨_, _, _, _, List.mem_cons_self⟩
  have hgone := (hexact raced {} undelivered 1 schedule rfl hd hlate).gone _ run_returned
  exact hgone _ run_stored rfl

end Lab

end Acs.Otp
