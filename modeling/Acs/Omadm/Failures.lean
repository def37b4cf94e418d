import Acs.Omadm.Attempts

/-! The failures that decide how a session was completed: those of the messages since its
configuration was pushed, each counted once however often it had to be sent. -/

namespace Acs.Omadm
open Interleave

/-! ### Messages that are sent again -/

/-- A message of the client: attempts that were not answered 200, and the one that was. -/
structure Delivery where
  failed : List Attempt
  last : Attempt
  response : DmResponse

namespace Delivery

def attempts (d : Delivery) : List Attempt := d.failed ++ [d.last]

structure Resent (d : Delivery) : Prop where
  same : ∀ a ∈ d.failed, a.payload = d.last.payload ∧ a.contentType = d.last.contentType
  unanswered : ∀ a ∈ d.failed, ∀ response, ¬ a.Answered response
  answered : d.last.Answered d.response

def Pushes (d : Delivery) : Prop := d.response.metric = "DmConfigPushed"

def Completes (d : Delivery) : Prop :=
  d.response.metric ∈ ["DmSessionComplete", "DmSessionCompleteWithErrors"]

/-- The failing `Status` commands of the message. One that was refused authentication is not of the
session. -/
def failures (d : Delivery) : Nat :=
  if d.response.metric = "DmAuthRejected" then 0 else (DmService.failures d.last.message).length

end Delivery

structure Deliveries (service : DmService) (key : String) (w : World) (ds : List Delivery) :
    Prop where
  own : Own key w
  fresh : w.store.dmSessions key = none
  run : Attempts service key w (ds.flatMap Delivery.attempts)
  resent : ∀ d ∈ ds, d.Resent

structure Reports (response : DmResponse) (failures : Nat) : Prop where
  metric : response.metric =
    if failures = 0 then "DmSessionComplete" else "DmSessionCompleteWithErrors"
  detail : response.detail = "failures:" ++ toString (failures : Int)

/-- The configuration was pushed before the session was completed, and the failures reported are
those of the messages since then. -/
def CountedOnce (ds : List Delivery) (closing : Delivery) : Prop :=
  ∃ before pushed since, ds = before ++ pushed :: since ∧ pushed.Pushes ∧
    (∀ d ∈ since, ¬ d.Pushes) ∧
    Reports closing.response ((since ++ [closing]).map Delivery.failures).sum

/-- The session was stored with the failures of the message, and then a write raised: the message
will be sent again. -/
def Attempt.Miscounts (a : Attempt) : Prop :=
  (∃ s, ⟨.write (.putDmSession s), .ok ()⟩ ∈ a.trace ∧ s.phase ∈ ["configure", "done"]) ∧
    DmService.failures a.message ≠ [] ∧ ∃ e, a.result = .error e

/-! ### The count of a session -/

/-- A session has counted so many failures, and none before its configuration was pushed. -/
def Tallied (tally : Option Nat) (s : DmSession) : Prop :=
  s.phase ∈ ["configure", "done"] ∧ tally.map Int.ofNat = some s.reportedFailures ∨
    s.phase ∈ ["init", "devinfo"] ∧ s.reportedFailures = 0

def tallyAfter (tally : Option Nat) (message : SyncMlMessage) (response : DmResponse) :
    Option Nat :=
  if response.metric = "DmConfigPushed" then some 0
  else if response.metric = "DmAuthRejected" then tally
  else tally.map (· + (DmService.failures message).length)

section Tallied
variable {tally : Option Nat} {s s' : DmSession}

theorem Tallied.not_pushed (h : Tallied tally s) (hphase : s.phase ∈ ["init", "devinfo"]) :
    s.reportedFailures = 0 := by
  rcases h with ⟨hcounting, -⟩ | ⟨-, hzero⟩
  · simp only [List.mem_cons, List.not_mem_nil, or_false] at hphase hcounting
    rcases hphase with h | h <;> rw [h] at hcounting <;> exact absurd hcounting (by decide)
  · exact hzero

theorem Tallied.pushed (h : Tallied tally s) (hphase : s.phase ∉ ["init", "devinfo"]) :
    ∃ n : Nat, tally = some n ∧ s.reportedFailures = n := by
  rcases h with ⟨-, htally⟩ | ⟨hnot, -⟩
  · obtain ⟨n, rfl, hn⟩ := Option.map_eq_some_iff.mp htally
    exact ⟨n, rfl, hn.symm⟩
  · exact absurd hnot hphase

theorem Tallied.of_same (h : Tallied tally s) (hphase : s'.phase = s.phase)
    (hcount : s'.reportedFailures = s.reportedFailures) : Tallied tally s' := by
  unfold Tallied
  rw [hphase, hcount]
  exact h

theorem tallied_pushed {n : Nat} (htally : tally = some n) (hcount : s.reportedFailures = n)
    (hphase : s.phase ∈ ["configure", "done"]) : Tallied tally s := by
  refine Or.inl ⟨hphase, ?_⟩
  rw [htally, hcount]
  rfl

end Tallied

namespace DmService
variable {service : DmService} {key : String} {a : Attempt} {message : SyncMlMessage}
  {session : DmSession} {encode : Encoder} {stored : Option DmPendingPackage}
  {subscribers : String → Option Subscriber} {device : Device} {outcome response : DmResponse}
  {changes : DmChanges} {tally : Option Nat}

theorem Opens.tallied {found : Option DmSession}
    (h : service.Opens message subscribers found session) (htally : ∀ s ∈ found, Tallied tally s) :
    Tallied tally session := by
  have hphase := h.phase
  have hcount := h.reportedFailures
  cases found with
  | none => exact Or.inr ⟨hphase ▸ List.mem_cons_self, hcount⟩
  | some s => exact (htally s rfl).of_same hphase hcount

theorem reports_close (body : Bytes) (changes : DmChanges) {n : Nat}
    (hcount : session.reportedFailures = n) :
    Reports (close body session changes).1 n := by
  constructor
  · show (if session.reportedFailures = 0 then _ else _) = _
    rw [hcount]
    exact if_congr Int.natCast_eq_zero rfl rfl
  · show "failures:" ++ toString session.reportedFailures = _
    rw [hcount]

theorem tallied_answers {base : DmChanges} {pending : Option DmPendingPackage}
    (hbase : base.session = none)
    (h : Answers service message session encode pending base subscribers device outcome changes)
    (h200 : outcome.statusCode = 200) (htally : Tallied tally session) :
    (changes.deleteSessionId = "" → ∀ s ∈ changes.session,
        Tallied (tallyAfter tally message outcome) s) ∧
      (outcome.metric ∈ ["DmSessionComplete", "DmSessionCompleteWithErrors"] →
        ∃ n, tally = some n ∧ Reports outcome (n + (failures message).length)) := by
  have hnone : ∀ s, base.session ≠ some s := fun s hs => by rw [hbase] at hs; cases hs
  cases h with
  | ended metric detail body _ _ hmetric =>
    refine ⟨fun _ s hs => absurd hs (hnone s), fun hcompletes => ?_⟩
    simp only [List.mem_cons, List.not_mem_nil, or_false] at hmetric hcompletes
    rcases hmetric with rfl | rfl <;> exact absurd hcompletes (by decide)
  | tooManyMessages => exact absurd h200 (by decide)
  | noAlert => exact absurd h200 (by decide)
  | inventory _ _ _ _ hphase hrequest =>
    obtain ⟨rest, body, pending, -, rfl, rfl⟩ := requestInventory_ok hrequest
    refine ⟨fun _ s hs => ?_, fun hcompletes =>
      absurd (show "DmInventoryRequested" ∈ _ from hcompletes) (by decide)⟩
    obtain rfl := Option.some.inj hs
    exact Or.inr ⟨List.mem_cons_of_mem _ (List.mem_singleton_self _),
      htally.not_pushed (by simp [hphase])⟩
  | configuration _ _ _ _ hphase hpush =>
    obtain ⟨values, rest, body, pending, -, -, rfl, rfl⟩ := pushConfiguration_ok hpush
    refine ⟨fun _ s hs => ?_, fun hcompletes =>
      absurd (show "DmConfigPushed" ∈ _ from hcompletes) (by decide)⟩
    obtain rfl := Option.some.inj hs
    exact tallied_pushed (if_pos rfl) (htally.not_pushed (by simp [hphase])) List.mem_cons_self
  | finish _ _ _ _ hinit hdevinfo hfinish =>
    -- the configuration has been pushed, so that there is a count
    obtain ⟨n, hn, hcount⟩ := htally.pushed (by simp [hinit, hdevinfo])
    have hcounted : (recordFailures message session).reportedFailures =
        ((n + (failures message).length : Nat) : Int) := by
      rw [Int.natCast_add, ← hcount]
      rfl
    obtain ⟨rest, body, pending, -, ⟨-, rfl, rfl⟩ | ⟨-, heq⟩⟩ := handleFinish_ok hfinish
    · refine ⟨fun _ s hs => ?_, fun hcompletes =>
        absurd (show "DmPackageContinued" ∈ _ from hcompletes) (by decide)⟩
      obtain rfl := Option.some.inj hs
      exact tallied_pushed (congrArg (Option.map _) hn) hcounted
        (List.mem_cons_of_mem _ (List.mem_singleton_self _))
    · obtain ⟨rfl, rfl⟩ := Prod.mk.inj heq
      exact ⟨fun _ s hs => absurd hs (hnone s), fun _ =>
        ⟨n, hn, reports_close body { base with pending } hcounted⟩⟩
  | continued p _ _ _ _ _ hsend =>
    have hcontinued : ∀ (body : Bytes) (remaining : Nat), Tallied
        (tallyAfter tally message (continued body remaining)) (counted message session) := by
      intro body remaining
      have hafter : tallyAfter tally message (continued body remaining) =
          tally.map (· + (failures message).length) := rfl
      rw [hafter, counted]
      rcases htally with ⟨hphase, htally⟩ | ⟨hphase, hzero⟩
      · rw [if_pos hphase]
        obtain ⟨n, rfl, hn⟩ := Option.map_eq_some_iff.mp htally
        refine tallied_pushed rfl ?_ hphase
        rw [Int.natCast_add, show (n : Int) = _ from hn]
        rfl
      · have hnot : session.phase ∉ ["configure", "done"] := by
          simp only [List.mem_cons, List.not_mem_nil, or_false] at hphase
          rcases hphase with h | h <;> rw [h] <;> decide
        rw [if_neg hnot]
        exact Or.inr ⟨hphase, hzero⟩
    have hnot : ∀ (body : Bytes) (remaining : Nat), (continued body remaining).metric ∉
        ["DmSessionComplete", "DmSessionCompleteWithErrors"] := by
      intro body remaining
      show "DmPackageContinued" ∉ _
      decide
    -- a continuation closes the session, sends the last of its package, or leaves more
    obtain ⟨unsent, body, rest, -, -, hcases⟩ := sendNext_ok hsend
    rcases hcases with ⟨-, hdone, heq⟩ | ⟨-, -, rfl, rfl⟩ | ⟨-, rfl, entries, -, rfl⟩
    · obtain ⟨rfl, rfl⟩ := Prod.mk.inj heq
      refine ⟨fun _ s hs => absurd hs (hnone s), fun _ => ?_⟩
      obtain ⟨n, hn, hcount⟩ := htally.pushed (by rw [hdone]; decide)
      refine ⟨n, hn, reports_close body base ?_⟩
      rw [counted, if_pos (by rw [hdone]; decide), Int.natCast_add, ← hcount]
      rfl
    · exact ⟨fun _ s hs => Option.some.inj hs ▸ hcontinued body 0,
        fun hcompletes => absurd hcompletes (hnot body 0)⟩
    · exact ⟨fun _ s hs => Option.some.inj hs ▸ hcontinued body rest.length,
        fun hcompletes => absurd hcompletes (hnot body rest.length)⟩

theorem tallied_counted (htally : Tallied tally session)
    (hcounts : session.phase ∈ ["configure", "done"] → failures message = []) :
    Tallied tally (counted message session) := by
  refine htally.of_same counted_phase ?_
  unfold counted
  split_ifs with hphase
  · rw [recordFailures, hcounts hphase]
    exact Int.add_zero _
  · rfl

/-! ### Runs -/

theorem tallied_reads {w w' : World} (h : Reads w w')
    (htally : ∀ s ∈ w.store.dmSessions key, Tallied tally s) :
    ∀ s ∈ w'.store.dmSessions key, Tallied tally s := by
  intro s hs
  rcases h.sessions key with hsame | ⟨hnone, -⟩
  · exact htally s (hsame ▸ hs)
  · rw [hnone] at hs
    cases hs

theorem tallied_sessionFrom {found : Option DmSession} {clock : Clock} {nonce : String}
    (htally : ∀ s ∈ found, Tallied tally s) :
    Tallied tally
      { service.sessionFrom message found clock with nonce, authenticated := false } := by
  cases found with
  | none => exact Or.inr ⟨List.mem_cons_self, rfl⟩
  | some s => exact (htally s rfl).of_same rfl rfl

theorem tallied_unanswered (h : Attempted service key a) (hown : Own key a.before)
    (hcounts : ¬ a.Miscounts) (hanswer : ∀ response, ¬ a.Answered response)
    (htally : ∀ s ∈ a.before.store.dmSessions key, Tallied tally s) :
    ∀ s ∈ a.after.store.dmSessions key, Tallied tally s := by
  cases attempted_course h hown with
  | idle _ hreads => exact tallied_reads hreads htally
  | rejected w clock _ nonce _ outcome done rest _ _ hcommits =>
    have htally' := tallied_reads hcommits.reads htally
    intro s hs
    rcases session_of_commits hcommits s hs with hs | ⟨-, hput⟩
    · exact htally' s hs
    · obtain rfl := Option.some.inj hput
      exact tallied_sessionFrom htally'
  | accepted w session device outcome changes done rest _ hopens _ hanswers habout hcommits =>
    have htally' := tallied_reads hcommits.reads htally
    intro s hs
    rcases session_of_commits hcommits s hs with hs | ⟨hmem, hput⟩
    · exact htally' s hs
    · have h200 := answers_status rfl (currentRemainder_changes session _ ▸ hanswers) hput
      obtain ⟨hrest, e, hfailed⟩ := commits_unanswered hcommits h200 hanswer
      obtain rfl := unfinished_session hanswers hcommits.writes hrest hmem
      refine tallied_counted (hopens.tallied htally') fun hphase => ?_
      by_contra hfailures
      exact hcounts ⟨⟨_, hcommits.done _ hmem, counted_phase.symm ▸ hphase⟩, hfailures, _, hfailed⟩

theorem tallied_answered (h : Attempted service key a) (hown : Own key a.before)
    (hanswer : a.Answered response) (htally : ∀ s ∈ a.before.store.dmSessions key, Tallied tally s) :
    (∀ s ∈ a.after.store.dmSessions key, Tallied (tallyAfter tally a.message response) s) ∧
      (response.metric ∈ ["DmSessionComplete", "DmSessionCompleteWithErrors"] →
        ∃ n, tally = some n ∧ Reports response (n + (failures a.message).length)) := by
  cases attempted_course h hown with
  | idle _ _ hnot => exact absurd hanswer (hnot response)
  | rejected w clock _ nonce _ outcome done rest _ hmetric hcommits =>
    have htally' := tallied_reads hcommits.reads htally
    have hmetric' : response.metric = "DmAuthRejected" := by
      rcases hcommits.result with ⟨-, hr⟩ | ⟨-, e, hr⟩
      · obtain rfl := Except.ok.inj (hr.symm.trans hanswer.1)
        exact (sent_metric ..).trans hmetric
      · cases hr.symm.trans hanswer.1
    have hafter : tallyAfter tally a.message response = tally := by
      rw [tallyAfter, hmetric', if_neg (by decide), if_pos rfl]
    refine ⟨fun s hs => ?_, fun hcompletes => ?_⟩
    · rw [hafter]
      rcases session_of_commits hcommits s hs with hs | ⟨-, hput⟩
      · exact htally' s hs
      · obtain rfl := Option.some.inj hput
        exact tallied_sessionFrom htally'
    · rw [hmetric'] at hcompletes
      exact absurd hcompletes (by decide)
  | accepted w session device outcome changes done rest _ hopens hid hanswers habout hcommits =>
    have htally' := tallied_reads hcommits.reads htally
    obtain ⟨rfl, rfl, h200, hsessions, -⟩ := commits_answered hcommits habout hanswer
    rw [currentRemainder_changes] at hanswers
    obtain ⟨hstored, hcompletes⟩ := tallied_answers rfl hanswers h200 (hopens.tallied htally')
    have hafter : tallyAfter tally a.message (sent a.binary outcome) =
        tallyAfter tally a.message outcome := by
      unfold tallyAfter
      rw [sent_metric]
    refine ⟨fun s hs => ?_, fun hmetric => ?_⟩
    · rw [hafter]
      rw [hsessions, DmChanges.sessionAfter] at hs
      split_ifs at hs with hdelete
      · cases hs
      · rw [not_not] at hdelete
        rcases answers_session hanswers h200 with hends | ⟨s', hsome⟩
        · rw [hdelete, hid, ← h.keyed] at hends
          exact absurd hends.symm (sessionKey_ne_empty _ _)
        · rw [hsome, Option.some_or] at hs
          exact hstored hdelete s (hsome.trans hs)
    · rw [sent_metric] at hmetric
      obtain ⟨n, hn, hreports⟩ := hcompletes hmetric
      exact ⟨n, hn, (sent_metric ..).trans hreports.metric, (sent_detail ..).trans hreports.detail⟩

def tallyOf (ds : List Delivery) : Option Nat :=
  ds.foldl (fun tally d => tallyAfter tally d.last.message d.response) none

theorem tallyOf_concat (ds : List Delivery) (d : Delivery) :
    tallyOf (ds ++ [d]) = tallyAfter (tallyOf ds) d.last.message d.response := by
  rw [tallyOf, List.foldl_append]
  rfl

theorem tallyAfter_of_not_pushes {d : Delivery} (h : ¬ d.Pushes) :
    tallyAfter tally d.last.message d.response = tally.map (· + d.failures) := by
  rw [tallyAfter, if_neg (show ¬ d.response.metric = _ from h), Delivery.failures]
  split_ifs
  · cases tally <;> rfl
  · rfl

theorem pushed_of_tallyOf {ds : List Delivery} {n : Nat} (h : tallyOf ds = some n) :
    ∃ before pushed since, ds = before ++ pushed :: since ∧ pushed.Pushes ∧
      (∀ d ∈ since, ¬ d.Pushes) ∧ (since.map Delivery.failures).sum = n := by
  induction ds using List.reverseRecOn generalizing n with
  | nil => cases h
  | append_singleton ds d ih =>
    rw [tallyOf_concat] at h
    by_cases hpushes : d.Pushes
    · rw [tallyAfter, if_pos (show d.response.metric = _ from hpushes)] at h
      exact ⟨ds, d, [], rfl, hpushes, fun _ h => (by cases h), Option.some.inj h⟩
    · rw [tallyAfter_of_not_pushes hpushes] at h
      obtain ⟨m, hm, rfl⟩ := Option.map_eq_some_iff.mp h
      obtain ⟨before, pushed, since, rfl, hpushed, hsince, hsum⟩ := ih hm
      refine ⟨before, pushed, since ++ [d], by simp, hpushed, ?_, ?_⟩
      · exact List.forall_mem_append.mpr ⟨hsince, List.forall_mem_singleton.mpr hpushes⟩
      · rw [List.map_append, List.sum_append, hsum]
        rfl

/-- What is known between the attempts of a run. -/
structure Standing (key : String) (w : World) (tally : Option Nat) : Prop where
  own : Own key w
  tallied : ∀ s ∈ w.store.dmSessions key, Tallied tally s

theorem Standing.undisturbed {w w' : World} (h : Standing key w tally)
    (hsame : Undisturbed key w w') : Standing key w' tally := by
  refine ⟨h.own.of_undisturbed hsame, ?_⟩
  rw [hsame.1]
  exact h.tallied

theorem standing_unanswered {w : World} {as rest : List Attempt} {last : Attempt}
    (hstanding : Standing key w tally) (h : Attempts service key w (as ++ last :: rest))
    (hanswer : ∀ a ∈ as, ∀ response, ¬ a.Answered response)
    (hcounts : ∀ a ∈ as, ¬ a.Miscounts) :
    Standing key last.before tally ∧ Attempted service key last ∧
      Attempts service key last.after rest := by
  induction as generalizing w with
  | nil =>
    obtain ⟨hsame, hlast, hrest⟩ := h
    exact ⟨hstanding.undisturbed hsame, hlast, hrest⟩
  | cons a as ih =>
    obtain ⟨hsame, ha, h⟩ := h
    obtain ⟨hanswer, hanswers⟩ := List.forall_mem_cons.mp hanswer
    obtain ⟨hcount, hcounts⟩ := List.forall_mem_cons.mp hcounts
    have hbefore := hstanding.undisturbed hsame
    exact ih ⟨own_attempted ha hbefore.own,
      tallied_unanswered ha hbefore.own hcount hanswer hbefore.tallied⟩ h hanswers hcounts

theorem standing_delivery {w : World} {d : Delivery} {rest : List Attempt}
    (hstanding : Standing key w tally) (h : Attempts service key w (d.attempts ++ rest))
    (hd : d.Resent) (hcounts : ∀ a ∈ d.attempts, ¬ a.Miscounts) :
    Standing key d.last.after (tallyAfter tally d.last.message d.response) ∧
      (d.Completes → ∃ n, tally = some n ∧
        Reports d.response (n + (failures d.last.message).length)) ∧
      Attempts service key d.last.after rest := by
  rw [Delivery.attempts, List.append_assoc] at h
  obtain ⟨hbefore, hlast, hrest⟩ := standing_unanswered hstanding h hd.unanswered
    fun a ha => hcounts a (List.mem_append_left _ ha)
  obtain ⟨htally, hcompletes⟩ := tallied_answered hlast hbefore.own hd.answered hbefore.tallied
  exact ⟨⟨own_attempted hlast hbefore.own, htally⟩, hcompletes, hrest⟩

theorem reports_deliveries {w : World} {ds : List Delivery} {closing : Delivery}
    (hstanding : Standing key w tally)
    (h : Attempts service key w ((ds ++ [closing]).flatMap Delivery.attempts))
    (hresent : ∀ d ∈ ds ++ [closing], d.Resent)
    (hcounts : ∀ d ∈ ds ++ [closing], ∀ a ∈ d.attempts, ¬ a.Miscounts)
    (hcompletes : closing.Completes) :
    ∃ n, ds.foldl (fun tally d => tallyAfter tally d.last.message d.response) tally = some n ∧
      Reports closing.response (n + (failures closing.last.message).length) := by
  induction ds generalizing w tally with
  | nil =>
    obtain ⟨-, hreports, -⟩ := standing_delivery hstanding h (hresent _ List.mem_cons_self)
      (hcounts _ List.mem_cons_self)
    exact hreports hcompletes
  | cons d ds ih =>
    obtain ⟨hd, hresent⟩ := List.forall_mem_cons.mp hresent
    obtain ⟨hcount, hcounts⟩ := List.forall_mem_cons.mp hcounts
    obtain ⟨hstanding', -, hrest⟩ := standing_delivery hstanding h hd hcount
    exact ih hstanding' hrest hresent hcounts

/-- The failures that decide how a session was completed are those of the messages since its
configuration was pushed, each counted once, in every run in which no write raises after a session
was stored with the failures of a message. -/
theorem failures_counted {w : World} {ds : List Delivery} {closing : Delivery}
    (h : Deliveries service key w (ds ++ [closing]))
    (hcounts : ∀ d ∈ ds ++ [closing], ∀ a ∈ d.attempts, ¬ a.Miscounts)
    (hcompletes : closing.Completes) : CountedOnce ds closing := by
  have hstanding : Standing key w none := by
    refine ⟨h.own, fun s hs => ?_⟩
    rw [h.fresh] at hs
    cases hs
  obtain ⟨n, hn, hreports⟩ :=
    reports_deliveries hstanding h.run h.resent hcounts hcompletes
  obtain ⟨before, pushed, since, rfl, hpushed, hsince, rfl⟩ := pushed_of_tallyOf hn
  refine ⟨before, pushed, since, rfl, hpushed, hsince, ?_⟩
  have hfailures : closing.failures = (failures closing.last.message).length := by
    refine if_neg fun hrejected => ?_
    rw [Delivery.Completes, hrejected] at hcompletes
    exact absurd hcompletes (by decide)
  rw [List.map_append, List.sum_append, List.map_singleton, List.sum_singleton, hfailures]
  exact hreports

end DmService

/-! ### Messages against a forecast -/

structure Resend where
  payload : Bytes
  faults : List (List Moment) := []
  metric : String
  detail : String

def Resend.trials (r : Resend) : List DmService.Trial :=
  r.faults.map (fun ahead => { payload := r.payload, ahead, expected := DmService.raises }) ++
    [{ payload := r.payload, expected := DmService.answers200 r.metric r.detail }]

structure Delivery.Meets (d : Delivery) (r : Resend) : Prop where
  resent : d.Resent
  payload : ∀ a ∈ d.attempts, a.payload = r.payload ∧ a.contentType = contentTypeXml
  metric : d.response.metric = r.metric
  detail : d.response.detail = r.detail
  failed_nil : r.faults = [] → d.failed = []

theorem split_of_forall₂ {α β : Type} {R : α → β → Prop} {as : List α} {bs bs' : List β}
    (h : List.Forall₂ R as (bs ++ bs')) :
    ∃ front back, as = front ++ back ∧ List.Forall₂ R front bs ∧ List.Forall₂ R back bs' :=
  ⟨_, _, (List.take_append_drop bs.length as).symm, List.forall₂_take_append _ _ _ h,
    List.forall₂_drop_append _ _ _ h⟩

theorem raised_of_faults {as : List Attempt} {payload : Bytes} {faults : List (List Moment)}
    (h : List.Forall₂ DmService.Meets as (faults.map fun ahead =>
      { payload, ahead, expected := DmService.raises })) :
    ∀ a ∈ as, (∃ e, a.result = .error e) ∧ a.payload = payload ∧ a.contentType = contentTypeXml := by
  induction faults generalizing as with
  | nil =>
    obtain rfl := List.forall₂_nil_right_iff.mp h
    exact fun _ h => (by cases h)
  | cons ahead faults ih =>
    obtain ⟨a, as, ha, hrest, rfl⟩ := List.forall₂_cons_right_iff.mp h
    exact List.forall_mem_cons.mpr
      ⟨⟨DmService.raised_of_raises ha.expected, ha.payload, ha.contentType⟩, ih hrest⟩

theorem delivery_of_trials {as : List Attempt} {r : Resend}
    (h : List.Forall₂ DmService.Meets as r.trials) :
    ∃ d : Delivery, as = d.attempts ∧ d.Meets r := by
  obtain ⟨failed, last, rfl, hfailed, hlast⟩ := split_of_forall₂ h
  obtain ⟨a, _, ha, hnil, rfl⟩ := List.forall₂_cons_right_iff.mp hlast
  obtain rfl := List.forall₂_nil_right_iff.mp hnil
  obtain ⟨response, hanswered, hmetric, hdetail⟩ :=
    DmService.answered_of_answers200 ha.expected
  have hraised := raised_of_faults hfailed
  have hpayload : ∀ b ∈ failed ++ [a], b.payload = r.payload ∧ b.contentType = contentTypeXml :=
    List.forall_mem_append.mpr ⟨fun b hb => (hraised b hb).2,
      List.forall_mem_singleton.mpr ⟨ha.payload, ha.contentType⟩⟩
  refine ⟨⟨failed, a, response⟩, rfl, ⟨fun b hb => ?_, fun b hb response hr => ?_, hanswered⟩,
    hpayload, hmetric, hdetail, fun hnil => ?_⟩
  · exact ⟨(hraised b hb).2.1.trans ha.payload.symm, (hraised b hb).2.2.trans ha.contentType.symm⟩
  · obtain ⟨⟨e, he⟩, -⟩ := hraised b hb
    cases he.symm.trans hr.1
  · rw [hnil] at hfailed
    exact List.forall₂_nil_right_iff.mp hfailed

theorem deliveries_of_tries {service : DmService} {key : String} {rs : List Resend} {w : World}
    (hown : Own key w) (hfresh : w.store.dmSessions key = none)
    (h : service.tries key w (rs.flatMap Resend.trials) = true) :
    ∃ ds, Deliveries service key w ds ∧ List.Forall₂ Delivery.Meets ds rs := by
  have hgroups : ∀ {as : List Attempt} {rs : List Resend},
      List.Forall₂ DmService.Meets as (rs.flatMap Resend.trials) →
      ∃ ds : List Delivery, as = ds.flatMap Delivery.attempts ∧
        List.Forall₂ Delivery.Meets ds rs := by
    intro as rs
    induction rs generalizing as with
    | nil => exact fun h => ⟨[], List.forall₂_nil_right_iff.mp h, .nil⟩
    | cons r rs ih =>
      intro h
      obtain ⟨front, back, rfl, hfront, hback⟩ := split_of_forall₂ h
      obtain ⟨d, rfl, hd⟩ := delivery_of_trials hfront
      obtain ⟨ds, rfl, hds⟩ := ih hback
      exact ⟨d :: ds, rfl, .cons hd hds⟩
  obtain ⟨as, hattempts, hmeets⟩ := DmService.attempts_of_tries h
  obtain ⟨ds, rfl, hds⟩ := hgroups hmeets
  have hresent : ∀ {ds : List Delivery} {rs : List Resend}, List.Forall₂ Delivery.Meets ds rs →
      ∀ d ∈ ds, d.Resent := by
    intro ds rs h
    induction h with
    | nil => exact fun _ h => (by cases h)
    | cons hd _ ih => exact List.forall_mem_cons.mpr ⟨hd.resent, ih⟩
  exact ⟨ds, ⟨hown, hfresh, hattempts, hresent hds⟩, hds⟩

namespace Lab
open Xml Xml.Element

def fails : Element := brief "3" [statusOf "404"]

def ends : Element := brief "4" []

def failing : DmService := server [asks, takes, fails, ends]

/-- The store call after the first `calm` operations raises. -/
def faultAfter (calm : Nat) : List Moment :=
  List.replicate calm ({} : Moment) ++ [{ fault := some .clientError }]

/-- The configuration is taken in two messages; the one that fails meets a fault first. -/
def splitRun : List Resend :=
  [{ payload := sent asks, metric := "DmInventoryRequested", detail := "get:1" },
   { payload := sent takes, metric := "DmConfigPushed", detail := "add:1 replace:1" },
   { payload := sent fails, faults := [faultAfter 6], metric := "DmPackageContinued"
     detail := "pending:0" },
   { payload := sent ends, metric := "DmSessionCompleteWithErrors", detail := "failures:2" }]

def wholeRun : List Resend :=
  [{ payload := sent asks, metric := "DmInventoryRequested", detail := "get:1" },
   { payload := sent ends, faults := [faultAfter 5], metric := "DmConfigPushed"
     detail := "add:1 replace:1" },
   { payload := sent fails, metric := "DmSessionCompleteWithErrors", detail := "failures:1" }]

def failureCount (payload : Bytes) : Option Nat :=
  ((failing.read payload contentTypeXml).toOption).map fun m => (DmService.failures m.1).length

end Lab

theorem failureCount_eq {d : Delivery} {r : Resend} {n : Nat} {a : Attempt} (hd : d.Meets r)
    (ha : a ∈ d.attempts) (hattempted : Attempted Lab.failing Lab.key a)
    (hn : Lab.failureCount r.payload = some n) : (DmService.failures a.message).length = n := by
  obtain ⟨hpayload, htype⟩ := hd.payload a ha
  rw [Lab.failureCount, ← hpayload, ← htype, hattempted.read] at hn
  exact Option.some.inj hn

theorem own_world : Own Lab.key Lab.world :=
  ⟨fun _ h => (by cases h), fun _ h => (by cases h)⟩

theorem not_miscounts_of_answered {a : Attempt} {response : DmResponse} (h : a.Answered response) :
    ¬ a.Miscounts := by
  rintro ⟨-, -, e, he⟩
  cases he.symm.trans h.1

/-- The message that takes the configuration has to be sent again, and the failure of the one after
it is counted once. -/
theorem failures_counted_once : ∃ w ds closing,
    Deliveries Lab.failing Lab.key w (ds ++ [closing]) ∧ closing.response.detail = "failures:1" ∧
      CountedOnce ds closing := by
  have htries : Lab.failing.tries Lab.key Lab.world
      (Lab.wholeRun.flatMap Resend.trials) = true := by
    decide +kernel
  obtain ⟨_, hrun, hmeets⟩ := deliveries_of_tries own_world rfl htries
  obtain ⟨d₁, _, h₁, hmeets₁, rfl⟩ := List.forall₂_cons_right_iff.mp hmeets
  obtain ⟨d₂, _, h₂, hmeets₂, rfl⟩ := List.forall₂_cons_right_iff.mp hmeets₁
  obtain ⟨d₃, _, h₃, hmeets₃, rfl⟩ := List.forall₂_cons_right_iff.mp hmeets₂
  obtain rfl := List.forall₂_nil_right_iff.mp hmeets₃
  have hcompletes : d₃.Completes := by
    rw [Delivery.Completes, h₃.metric]
    decide
  have hattempted := hrun.run.attempted
  have hfirst : ∀ {d : Delivery} {r : Resend}, d.Meets r → r.faults = [] →
      ∀ a ∈ d.attempts, ¬ a.Miscounts := by
    intro d r hd hfaults a ha
    rw [Delivery.attempts, hd.failed_nil hfaults, List.nil_append, List.mem_singleton] at ha
    exact ha ▸ not_miscounts_of_answered hd.resent.answered
  have hagain : ∀ a ∈ d₂.attempts, ¬ a.Miscounts := by
    rintro a ha ⟨-, hfailures, -⟩
    refine hfailures (List.eq_nil_of_length_eq_zero ?_)
    exact failureCount_eq h₂ ha (hattempted a (by simp [ha])) (by decide +kernel)
  refine ⟨_, [d₁, d₂], d₃, hrun, h₃.detail, DmService.failures_counted hrun ?_ hcompletes⟩
  simp only [List.cons_append, List.nil_append, List.forall_mem_cons]
  exact ⟨hfirst h₁ rfl, hagain, hfirst h₃ rfl, fun _ h => (by cases h)⟩

/-- A write that raises after the session was stored makes the next attempt count its failure
again. -/
theorem failures_counted_twice : ∃ w ds closing,
    Deliveries Lab.failing Lab.key w (ds ++ [closing]) ∧ closing.Completes ∧
      ¬ CountedOnce ds closing := by
  have htries : Lab.failing.tries Lab.key Lab.world
      (Lab.splitRun.flatMap Resend.trials) = true := by
    decide +kernel
  obtain ⟨_, hrun, hmeets⟩ := deliveries_of_tries own_world rfl htries
  obtain ⟨d₁, _, h₁, hmeets₁, rfl⟩ := List.forall₂_cons_right_iff.mp hmeets
  obtain ⟨d₂, _, h₂, hmeets₂, rfl⟩ := List.forall₂_cons_right_iff.mp hmeets₁
  obtain ⟨d₃, _, h₃, hmeets₃, rfl⟩ := List.forall₂_cons_right_iff.mp hmeets₂
  obtain ⟨d₄, _, h₄, hmeets₄, rfl⟩ := List.forall₂_cons_right_iff.mp hmeets₃
  obtain rfl := List.forall₂_nil_right_iff.mp hmeets₄
  have hcompletes : d₄.Completes := by
    rw [Delivery.Completes, h₄.metric]
    decide
  refine ⟨_, [d₁, d₂, d₃], d₄, hrun, hcompletes, ?_⟩
  rintro ⟨before, pushed, since, hds, hpushed, -, hreports⟩
  have hattempted := hrun.run.attempted
  -- only the second message was answered with a push
  have hsince : since = [d₃] := by
    have hnot : ∀ d : Delivery, d.response.metric ≠ "DmConfigPushed" → d ≠ pushed := by
      rintro d hd rfl
      exact hd hpushed
    rcases before with _ | ⟨b₁, _ | ⟨b₂, before⟩⟩
    · exact absurd (List.cons.inj hds).1 (hnot d₁ (by rw [h₁.metric]; decide))
    · exact (List.cons.inj (List.cons.inj hds).2).2.symm
    · have hlast := (List.cons.inj (List.cons.inj hds).2).2
      cases before with
      | nil => exact absurd (List.cons.inj hlast).1 (hnot d₃ (by rw [h₃.metric]; decide))
      | cons b₃ before => simp at hlast
  subst hsince
  have hcount : ∀ {d : Delivery} {r : Resend} {n : Nat}, d.Meets r →
      (∀ a ∈ d.attempts, Attempted Lab.failing Lab.key a) → r.metric ≠ "DmAuthRejected" →
      Lab.failureCount r.payload = some n → d.failures = n := by
    intro d r n hd hattempted hmetric hn
    rw [Delivery.failures, if_neg (by rw [hd.metric]; exact hmetric)]
    have hlast : d.last ∈ d.attempts := List.mem_append_right _ (List.mem_singleton_self _)
    exact failureCount_eq hd hlast (hattempted _ hlast) hn
  have h₃' : d₃.failures = 1 :=
    hcount h₃ (fun a ha => hattempted a (by simp [ha])) (by decide) (by decide +kernel)
  have h₄' : d₄.failures = 0 :=
    hcount h₄ (fun a ha => hattempted a (by simp [ha])) (by decide) (by decide +kernel)
  have hdetail := h₄.detail.symm.trans hreports.detail
  rw [List.singleton_append, List.map_cons, List.map_singleton, List.sum_cons, List.sum_singleton,
    h₃', h₄'] at hdetail
  exact absurd hdetail (by decide)

end Acs.Omadm
