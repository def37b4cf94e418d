import Acs.Omadm.Retries

/-! How many messages a session takes before it is closed. -/

namespace Acs.Omadm
open Interleave Package

/-- How many packages follow the one that is sent in a phase. -/
def packagesAfter (phase : String) : ℕ :=
  if phase = "init" then 3 else if phase = "devinfo" then 2 else if phase = "done" then 0 else 1

/-- How many messages a package may be sent in. -/
def perPackage : ℕ := maxMessagesPerPackage.toNat

def room (p : DmPendingPackage) : ℕ := (maxMessagesPerPackage - p.messages).toNat

def storedPhase (key : String) (w : World) : String :=
  ((w.store.dmSessions key).map DmSession.phase).getD "init"

/-- How many messages the session under the key may still take: those of the package under way, or
of the one that starts next, and those of the packages after it. -/
def budget (key : String) (w : World) : ℕ :=
  match (w.store.dmPending key).filter (·.phase = storedPhase key w) with
  | some p => perPackage * packagesAfter (storedPhase key w) + room p
  | none => perPackage * max 1 (packagesAfter (storedPhase key w))

/-- The session is reported complete, and nothing of it is left in the store. -/
structure Closes (key : String) (t : Turn) : Prop where
  metric : t.response.metric ∈ ["DmSessionComplete", "DmSessionCompleteWithErrors"]
  session : t.after.store.dmSessions key = none
  pending : t.after.store.dmPending key = none

section Budget
variable {key phase : String} {w w' : World}

theorem budget_congr (hsame : Undisturbed key w w') : budget key w' = budget key w := by
  unfold budget storedPhase
  rw [hsame.1, hsame.2]

theorem budget_underway {p : DmPendingPackage} (hphase : storedPhase key w = phase)
    (hp : w.store.dmPending key = some p) (hpphase : p.phase = phase) :
    budget key w = perPackage * packagesAfter phase + room p := by
  unfold budget
  rw [hphase, hp, Option.filter_some, if_pos (decide_eq_true hpphase)]

theorem budget_between (hphase : storedPhase key w = phase)
    (hp : ∀ p ∈ w.store.dmPending key, p.phase ≠ phase) :
    budget key w = perPackage * max 1 (packagesAfter phase) := by
  unfold budget
  rw [hphase]
  have hnone : (w.store.dmPending key).filter (·.phase = phase) = none :=
    Option.filter_eq_none_iff.mpr fun p hmem => by simpa using hp p hmem
  rw [hnone]

theorem budget_started {session : DmSession} {pending : Option DmPendingPackage}
    (hsession : w.store.dmSessions key = some session) (hphase : session.phase = phase)
    (hpending : w.store.dmPending key = pending)
    (hfirst : ∀ p, pending = some p → p.phase = phase ∧ p.messages = 1) :
    budget key w < perPackage * (packagesAfter phase + 1) ∨
      pending = none ∧ budget key w = perPackage * max 1 (packagesAfter phase) := by
  have hstored : storedPhase key w = phase := by
    rw [storedPhase, hsession]
    exact hphase
  cases pending with
  | none =>
    refine Or.inr ⟨rfl, budget_between hstored fun p hp => ?_⟩
    rw [hpending] at hp
    cases hp
  | some p =>
    obtain ⟨hpphase, hmessages⟩ := hfirst p rfl
    have hroom : room p < perPackage := by
      rw [room, hmessages]
      decide
    left
    rw [budget_underway hstored hpending hpphase, Nat.mul_succ]
    exact Nat.add_lt_add_left hroom _

end Budget

namespace DmService
variable {service : DmService} {key : String} {t : Turn}

theorem Starts.first {message : SyncMlMessage} {session : DmSession} {encode : Encoder}
    {queue rest : List Entry} {body : Bytes} {pending : Option DmPendingPackage}
    (h : Starts service message session encode queue rest body pending) :
    ∀ p, pending = some p → p.phase = session.phase ∧ p.messages = 1 := by
  intro p hp
  obtain ⟨hrest, hphase⟩ := h.phase hp
  obtain ⟨entries, -, hpending⟩ := h.some_of_cons hrest
  exact ⟨hphase, Option.some.inj (hpending.symm.trans hp) ▸ rfl⟩

/-- The message could still be taken, and closes the session or leaves it fewer messages. -/
def Spends (key : String) (t : Turn) : Prop :=
  0 < budget key t.before ∧ (Closes key t ∨ budget key t.after < budget key t.before)

section Spends
variable {session : DmSession} {outcome : DmResponse} {changes base : DmChanges} {device : Device}
  (hphase : storedPhase key t.before = session.phase)
  (hsessions : t.after.store.dmSessions key = changes.session)
  (hpending : t.after.store.dmPending key = changes.pending)

section Between
variable (hnone : (currentRemainder session (t.before.store.dmPending key)).1 = none)
include hphase hnone

theorem budget_next :
    budget key t.before = perPackage * max 1 (packagesAfter session.phase) :=
  budget_between hphase (currentRemainder_ne hnone)

include hsessions hpending

theorem starts_spends {queue rest : List Entry} {body : Bytes} {pending : Option DmPendingPackage}
    {session' : DmSession}
    (hstarts : Starts service t.message session' t.encode queue rest body pending)
    (hsession : changes.session = some session') (hpend : changes.pending = pending)
    (hnext : packagesAfter session'.phase + 1 = max 1 (packagesAfter session.phase))
    (hmore : pending = none → 0 < packagesAfter session'.phase) : Spends key t := by
  have hbefore := budget_next hphase hnone
  rw [← hnext] at hbefore
  have hsucc : perPackage * (packagesAfter session'.phase + 1) =
      perPackage * packagesAfter session'.phase + perPackage := Nat.mul_succ ..
  have hpos : 0 < perPackage := by decide
  refine ⟨by omega, Or.inr ?_⟩
  rcases budget_started (hsessions.trans hsession) rfl (hpending.trans hpend) hstarts.first with
    hless | ⟨hnil, hafter⟩
  · exact hbefore ▸ hless
  · rw [Nat.max_eq_right (hmore hnil)] at hafter
    omega

theorem inventory_spends (hinit : session.phase = "init")
    (h : service.requestInventory t.message session base t.encode device = .ok (outcome, changes)) :
    Spends key t := by
  obtain ⟨rest, body, pending, hstarts, rfl, rfl⟩ := requestInventory_ok h
  refine starts_spends hphase hsessions hpending hnone hstarts rfl rfl ?_ fun _ => ?_
  · show packagesAfter "devinfo" + 1 = _
    rw [hinit]
    decide
  · show 0 < packagesAfter "devinfo"
    decide

theorem configuration_spends {subscriber : Option Subscriber} (hdevinfo : session.phase = "devinfo")
    (h : service.pushConfiguration t.message session base t.encode device subscriber =
      .ok (outcome, changes)) : Spends key t := by
  obtain ⟨values, rest, body, pending, -, hstarts, rfl, rfl⟩ := pushConfiguration_ok h
  refine starts_spends hphase hsessions hpending hnone hstarts rfl rfl ?_ fun _ => ?_
  · show packagesAfter "configure" + 1 = _
    rw [hdevinfo]
    decide
  · show 0 < packagesAfter "configure"
    decide

theorem finish_spends (hbase : base.session = none) (hmetric : t.response.metric = outcome.metric)
    (hinit : session.phase ≠ "init") (hdevinfo : session.phase ≠ "devinfo")
    (h : service.handleFinish t.message session base t.encode = .ok (outcome, changes)) :
    Spends key t := by
  have hlast : packagesAfter session.phase ≤ 1 := by
    unfold packagesAfter
    rw [if_neg hinit, if_neg hdevinfo]
    split_ifs <;> decide
  obtain ⟨rest, body, pending, hstarts, hcases⟩ := handleFinish_ok h
  rcases hcases with ⟨hrest, -, rfl⟩ | ⟨hnil, hclose⟩
  · -- what is left of the final package is sent in phase done
    obtain ⟨entries, -, hsome⟩ := hstarts.some_of_cons hrest
    refine starts_spends hphase hsessions hpending hnone hstarts rfl rfl ?_ fun hnil => ?_
    · show packagesAfter "done" + 1 = _
      rw [Nat.max_eq_left hlast]
      decide
    · cases hnil.symm.trans hsome
  · obtain ⟨houtcome, hchanges⟩ := Prod.mk.inj hclose
    have hpos : 0 < perPackage * max 1 (packagesAfter session.phase) :=
      Nat.mul_pos (by decide) (by omega)
    refine ⟨(budget_next hphase hnone).symm ▸ hpos, Or.inl ⟨?_, ?_, ?_⟩⟩
    · rw [hmetric, houtcome]
      exact metric_close body _ {}
    · rw [hsessions, hchanges]
      exact hbase
    · rw [hpending, hchanges]
      exact hstarts.none_of_nil hnil

end Between

include hphase hsessions hpending

theorem continued_spends {p : DmPendingPackage} (hbase : base = {})
    (hmetric : t.response.metric = outcome.metric) (hstored : t.before.store.dmPending key = some p)
    (hpphase : p.phase = session.phase) (hfew : p.messages < maxMessagesPerPackage)
    (h : service.sendNext t.message session p base t.encode device = .ok (outcome, changes)) :
    Spends key t := by
  subst hbase
  have hbefore := budget_underway hphase hstored hpphase
  have hroom : 0 < room p := by
    unfold room
    omega
  refine ⟨by omega, ?_⟩
  have hafter : changes.session = some (counted t.message session) →
      storedPhase key t.after = session.phase := by
    intro hsession
    rw [storedPhase, hsessions, hsession]
    exact counted_phase
  obtain ⟨unsent, body, rest, -, -, hcases⟩ := sendNext_ok h
  rcases hcases with ⟨-, -, hclose⟩ | ⟨-, hdone, -, rfl⟩ | ⟨-, -, entries, -, rfl⟩
  · obtain ⟨houtcome, hchanges⟩ := Prod.mk.inj hclose
    refine Or.inl ⟨?_, ?_, ?_⟩
    · rw [hmetric, houtcome]
      exact metric_close body _ {}
    · rw [hsessions, hchanges]
    · rw [hpending, hchanges]
  · -- the package is done with, and the one after it has not started
    have hgone : ∀ p' ∈ t.after.store.dmPending key, p'.phase ≠ session.phase := by
      intro p' hp'
      rw [hpending] at hp'
      cases hp'
    have hmore : 0 < packagesAfter session.phase := by
      unfold packagesAfter
      rw [if_neg hdone]
      split_ifs <;> decide
    have hbetween := budget_between (hafter rfl) hgone
    rw [Nat.max_eq_right hmore] at hbetween
    exact Or.inr (by omega)
  · have hunderway := budget_underway (hafter rfl) hpending hpphase
    have hspent : room { p with entries, messages := p.messages + 1 } < room p := by
      show (maxMessagesPerPackage - (p.messages + 1)).toNat < _
      unfold room
      omega
    exact Or.inr (by omega)

end Spends

theorem exchanged_spends (h : Exchanged service key t) (hown : Own key t.before) :
    Own key t.after ∧ Spends key t := by
  obtain ⟨session, outcome, changes, device, htook⟩ := exchanged_took h hown.session
  have hsid := htook.sessionId
  have hne : session.sessionId ≠ "" := by
    rw [hsid, ← h.keyed]
    exact sessionKey_ne_empty _ _
  have habout := answers_about hsid hown.pending htook.answers
  obtain ⟨hsessions, hpending⟩ : t.after.store.dmSessions key = changes.session ∧
      t.after.store.dmPending key = changes.pending := by
    obtain ⟨hsession, hpending⟩ := after_answers _ hne htook.status htook.answers
    exact ⟨(htook.sessions habout).trans hsession, (htook.pending habout).trans hpending⟩
  refine ⟨⟨fun s hs => habout.session s (hsessions ▸ hs),
    fun p hp => habout.pending p (hpending ▸ hp)⟩, ?_⟩
  have hphase : storedPhase key t.before = session.phase := htook.opens.phase.symm
  have hbase := currentRemainder_changes session (t.before.store.dmPending key)
  have hmetric : t.response.metric = outcome.metric := by rw [htook.response, sent_metric]
  have hanswers := htook.answers
  cases hanswers with
  | ended _ _ _ hnot => exact absurd h.ongoing hnot
  | tooManyMessages => exact absurd htook.status (by decide)
  | noAlert => exact absurd htook.status (by decide)
  | inventory _ _ _ hnone hinit hrequest =>
    exact inventory_spends hphase hsessions hpending hnone hinit hrequest
  | configuration _ _ _ hnone hdevinfo hpush =>
    exact configuration_spends hphase hsessions hpending hnone hdevinfo hpush
  | finish _ _ _ hnone hinit hdevinfo hfinish =>
    exact finish_spends hphase hsessions hpending hnone (by rw [hbase]) hmetric hinit hdevinfo hfinish
  | continued p _ _ _ hsome hfew hsend =>
    obtain ⟨hstored, hpphase, hremainder⟩ := currentRemainder_some hsome
    exact continued_spends hphase hsessions hpending hremainder hmetric hstored hpphase hfew hsend

/-- A session takes no more messages than its budget, up to the one that closes it. -/
theorem conversation_spends {w : World} {ts : List Turn} (hown : Own key w)
    (h : Conversation service key w ts) (hopen : ∀ t ∈ ts.dropLast, ¬ Closes key t) :
    ts.length ≤ budget key w := by
  induction ts generalizing w with
  | nil => exact Nat.zero_le _
  | cons t ts ih =>
    obtain ⟨hsame, hexchanged, hrest⟩ := h
    have hown' : Own key t.before := hown.of_undisturbed hsame
    obtain ⟨hown'', hpos, hspends⟩ := exchanged_spends hexchanged hown'
    rw [budget_congr hsame] at hpos hspends
    cases ts with
    | nil => exact hpos
    | cons t' ts =>
      obtain ⟨hfirst, hlater⟩ := List.forall_mem_cons.mp hopen
      have hspent := hspends.resolve_left hfirst
      have hbound := ih hown'' hrest hlater
      rw [List.length_cons]
      omega

/-- A new session has three packages, and each is sent in a bounded number of messages. -/
theorem session_bounded {w : World} {ts : List Turn} (hreached : Reached w)
    (hfresh : w.store.dmSessions key = none) (hfree : Free key w)
    (h : Conversation service key w ts) (hopen : ∀ t ∈ ts.dropLast, ¬ Closes key t) :
    ts.length ≤ 3 * maxMessagesPerPackage.toNat := by
  have hphase : storedPhase key w = "init" := by rw [storedPhase, hfresh]; rfl
  have hbudget : budget key w = 3 * maxMessagesPerPackage.toNat := by
    rw [budget_between hphase]
    · rfl
    · intro p hp
      have hne := hfree p hp
      rw [hfresh] at hne
      exact hne
  exact hbudget ▸ conversation_spends hreached.own h hopen

end DmService

/-- A session of four messages: its configuration takes two of them, and the last closes it. -/
theorem session_bounded_split : ∃ ts closing,
    Conversation Lab.failing Lab.key Lab.world (ts ++ [closing]) ∧
      (∃ t ∈ ts, t.response.metric = "DmPackageContinued") ∧
      (∀ t ∈ ts, ¬ Closes Lab.key t) ∧ (ts ++ [closing]).length ≤ 384 := by
  have hconverses : Lab.failing.converses Lab.key Lab.world
      [⟨Lab.sent Lab.asks, contentTypeXml, fun _ r => r.metric = "DmInventoryRequested"⟩,
        ⟨Lab.sent Lab.takes, contentTypeXml, fun _ r => r.metric = "DmConfigPushed"⟩,
        ⟨Lab.sent Lab.fails, contentTypeXml, fun _ r => r.metric = "DmPackageContinued"⟩,
        ⟨Lab.sent Lab.ends, contentTypeXml, fun _ _ => true⟩] = true := by
    decide +kernel
  obtain ⟨ts, hconversation, -, hanswers⟩ := DmService.conversation_of_converses hconverses
  obtain ⟨t₁, _, h₁, hanswers₁, rfl⟩ := List.forall₂_cons_right_iff.mp hanswers
  obtain ⟨t₂, _, h₂, hanswers₂, rfl⟩ := List.forall₂_cons_right_iff.mp hanswers₁
  obtain ⟨t₃, _, h₃, hanswers₃, rfl⟩ := List.forall₂_cons_right_iff.mp hanswers₂
  obtain ⟨t₄, _, -, hanswers₄, rfl⟩ := List.forall₂_cons_right_iff.mp hanswers₃
  obtain rfl := List.forall₂_nil_right_iff.mp hanswers₄
  have hopen : ∀ t ∈ [t₁, t₂, t₃], ¬ Closes Lab.key t := by
    have hnot : ∀ {t : Turn} {metric : String}, (t.response.metric = metric : Bool) = true →
        metric ∉ ["DmSessionComplete", "DmSessionCompleteWithErrors"] → ¬ Closes Lab.key t :=
      fun h hmetric hcloses => hmetric (of_decide_eq_true h ▸ hcloses.metric)
    simp only [List.forall_mem_cons]
    exact ⟨hnot h₁ (by decide), hnot h₂ (by decide), hnot h₃ (by decide), fun _ h => (by cases h)⟩
  exact ⟨[t₁, t₂, t₃], t₄, hconversation, ⟨t₃, by simp, of_decide_eq_true h₃⟩, hopen,
    DmService.session_bounded (.start rfl rfl) rfl (fun p hp => (by cases hp)) hconversation hopen⟩

end Acs.Omadm
