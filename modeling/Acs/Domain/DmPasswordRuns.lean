import Acs.Domain.OnDynamo

/-! The DM password among configuration requests and admin PUTs of one subscriber: whether the
accounts they deliver agree with the record they leave. -/

namespace Acs.DmPasswordRuns
open Interleave OnDynamo

inductive Request
  | configuration (request : Configuration.Request)
  | put (payload : Admin.SubscriberIn) (clock : Clock)

inductive Finished
  | answered (answer : Except ServiceError ProvisioningOutcome)
  | written (response : Admin.Response Subscriber)

section Run
variable {κ : Type} [DecidableEq κ] (service : ProvisioningService) (gsi : Gsi)
  (faults : Nat → Option ClientError) (imsi : String) (requests : κ → Request) (t₀ : DynamoTable)

def program : Request → ItemProgram Finished
  | .configuration request => do
    let answer ← (service.handle request.query request.evidence request.draws).interpret
      (DynamoDb.impl faults)
    return .answered answer
  | .put payload clock => do
    let response ← (Admin.putSubscriber service.env.py imsi payload clock).interpret
      (DynamoDb.impl faults)
    return .written response

def threads (k : κ) : ItemProgram Finished := program service faults imsi (requests k)

abbrev Trace (κ : Type) := List (κ × Event ItemOp.Answer)

/-- A put of the record that loses no DM password: the stored one is still the one of the copy
that the thread works on. -/
def Current (pre : Trace κ) (k : κ) : ItemOp → Prop
  | .putSubscriber x => x.imsi = imsi →
    ((replay (DynamoTable.exec gsi) t₀ pre).subscribers imsi).map Subscriber.dmPassword =
      (identityRead (ofThread k pre)).map Subscriber.dmPassword
  | _ => True

abbrev AllCurrent : Trace κ → Prop := AllSteps (Current gsi imsi t₀)

def guard : Request → ItemEvents → ItemOp → Prop
  | .configuration request => Configuration.Allowed request.draws
  | .put _ _ => Put.Allowed imsi

def post : ItemEvents → Finished → Prop
  | h, .answered answer => Configuration.Delivers service.settings h answer
  | _, .written _ => True

variable {service gsi faults imsi requests t₀}

omit [DecidableEq κ] in
theorem threads_obey (k : κ) :
    (threads service faults imsi requests k).Obeys (guard imsi (requests k)) (post service) [] := by
  unfold threads
  cases requests k with
  | configuration request =>
    apply Program.Obeys.bind
    exact (Configuration.handle_obeys service faults _ _ _).mono (fun _ _ hg => hg) fun _ _ hd => hd
  | put payload clock =>
    apply Program.Obeys.bind
    exact (Put.putSubscriber_obeys service.env.py faults imsi payload clock).mono
      (fun _ _ hg => hg) fun _ _ _ => trivial

def Known (stored p : String) : Prop := p = "" ∨ p = stored

/-- The record stands, and every password of it that was read or written is the stored one. -/
structure Single (imsi : String) (tr : Trace κ) (x : Subscriber) : Prop where
  reads : ∀ k found, (k, ⟨.getSubscriber imsi, found⟩) ∈ tr →
    ∃ s, found = some s ∧ Known x.dmPassword s.dmPassword
  puts : ∀ k y, (k, ⟨.putSubscriber y, ()⟩) ∈ tr → y.imsi = imsi →
    Known x.dmPassword y.dmPassword

variable {tr : Trace κ} {t : DynamoTable} {x y : Subscriber}

omit [DecidableEq κ] in
theorem Single.snoc (h : Single imsi tr x) {k : κ} {e : Event ItemOp.Answer}
    (hread : ∀ found, e = ⟨.getSubscriber imsi, found⟩ →
      ∃ s, found = some s ∧ Known x.dmPassword s.dmPassword)
    (hput : ∀ y, e = ⟨.putSubscriber y, ()⟩ → y.imsi = imsi → Known x.dmPassword y.dmPassword) :
    Single imsi (tr ++ [(k, e)]) x := by
  constructor
  · intro j found hmem
    rcases List.mem_append.mp hmem with hmem | hmem
    · exact h.reads j found hmem
    · exact hread found (Prod.mk.inj (List.mem_singleton.mp hmem)).2.symm
  · intro j y hmem himsi
    rcases List.mem_append.mp hmem with hmem | hmem
    · exact h.puts j y hmem himsi
    · exact hput y (Prod.mk.inj (List.mem_singleton.mp hmem)).2.symm himsi

omit [DecidableEq κ] in
theorem Single.replace (h : Single imsi tr x)
    (hkeeps : x.dmPassword ≠ "" → y.dmPassword = x.dmPassword) : Single imsi tr y := by
  have hknown : ∀ p, Known x.dmPassword p → Known y.dmPassword p := by
    rintro p (rfl | rfl)
    · exact Or.inl rfl
    · by_cases hne : x.dmPassword = ""
      · exact Or.inl hne
      · exact Or.inr (hkeeps hne).symm
  constructor
  · intro k found hmem
    obtain ⟨s, rfl, hs⟩ := h.reads k found hmem
    exact ⟨s, rfl, hknown _ hs⟩
  · exact fun k z hmem himsi => hknown _ (h.puts k z hmem himsi)

theorem copy_of_put (h₀ : Keyed t₀)
    (h : History (DynamoTable.exec gsi) (fun k => guard imsi (requests k)) t₀ tr t)
    (hsingle : Single imsi tr x) {k : κ}
    (hg : guard imsi (requests k) (ofThread k tr) (.putSubscriber y)) (himsi : y.imsi = imsi) :
    ∃ s, identityRead (ofThread k tr) = some s ∧ s.imsi = imsi ∧
      (s.dmPassword ≠ "" → y.dmPassword = s.dmPassword) := by
  cases hrequest : requests k with
  | configuration request =>
    rw [hrequest] at hg
    obtain ⟨s, hs, -, hderived⟩ := hg
    refine ⟨s, hs, hderived.imsi.symm.trans himsi, fun hne => ?_⟩
    exact hderived.dmPassword.resolve_right fun hdrawn => hne hdrawn.1
  | put payload clock =>
    rw [hrequest] at hg
    obtain ⟨-, existing, hhead, hpassword⟩ := hg
    obtain ⟨rest, hevents⟩ := List.head?_eq_some_iff.mp hhead
    have hmem : (k, ⟨.getSubscriber imsi, existing⟩) ∈ tr :=
      mem_ofThread.mp (hevents ▸ List.mem_cons_self)
    obtain ⟨s, rfl, -⟩ := hsingle.reads k existing hmem
    refine ⟨s, ?_, imsi_of_read h₀ h hmem, fun _ => hpassword⟩
    rw [hevents]
    rfl

theorem single_step (h₀ : Keyed t₀)
    (h : History (DynamoTable.exec gsi) (fun k => guard imsi (requests k)) t₀ tr t)
    (hx : t.subscribers imsi = some x) (hsingle : Single imsi tr x) {k : κ} {op : ItemOp}
    (hg : guard imsi (requests k) (ofThread k tr) op) (hcurrent : Current gsi imsi t₀ tr k op) :
    ∃ x', (DynamoTable.exec gsi op t).2.subscribers imsi = some x' ∧
      Single imsi (tr ++ [(k, ⟨op, (DynamoTable.exec gsi op t).1⟩)]) x' := by
  -- only what is put under the IMSI can change the password
  by_cases hop : Quiet op
  · refine ⟨x, by rwa [(exec_quiet hop).1], hsingle.snoc ?_ ?_⟩
    · exact fun found heq => absurd hop ((Sigma.mk.inj heq).1 ▸ id)
    · exact fun y heq => absurd hop ((Sigma.mk.inj heq).1 ▸ id)
  · cases op with
    | putSubscriber y =>
      by_cases himsi : y.imsi = imsi
      · -- the copy still has the stored password, so what is written keeps it
        obtain ⟨s, hs, -, hkeeps⟩ := copy_of_put h₀ h hsingle hg himsi
        have hsame : x.dmPassword = s.dmPassword := by
          have hmap := hcurrent himsi
          rw [← h.eq_replay, hx, hs] at hmap
          exact Option.some.inj hmap
        refine ⟨y, himsi ▸ Function.update_self .., ?_⟩
        apply (hsingle.replace fun hne => ?_).snoc
        · exact fun found heq => nomatch heq
        · rintro z heq -
          cases heq
          exact Or.inr rfl
        · rw [hkeeps (hsame ▸ hne), hsame]
      · have hkept : (DynamoTable.exec gsi (.putSubscriber y) t).2.subscribers imsi = some x :=
          (Function.update_of_ne (Ne.symm himsi) ..).trans hx
        refine ⟨x, hkept, hsingle.snoc (fun found heq => nomatch heq) ?_⟩
        rintro z heq hz
        cases heq
        exact absurd hz himsi
    | getSubscriber key =>
      refine ⟨x, hx, hsingle.snoc ?_ fun z heq => nomatch heq⟩
      intro found heq
      obtain ⟨hkey, hans⟩ := Sigma.mk.inj heq
      obtain rfl := ItemOp.getSubscriber.inj hkey
      exact ⟨x, (eq_of_heq hans).symm.trans hx, Or.inr rfl⟩
    | deleteSubscriber key =>
      cases hrequest : requests k with
      | configuration request =>
        rw [hrequest] at hg
        exact hg.elim
      | put payload clock =>
        rw [hrequest] at hg
        exact hg.elim
    | putToken r => exact ⟨x, hx, hsingle.snoc (fun _ heq => nomatch heq) fun _ heq => nomatch heq⟩
    | queryTokens _ _ =>
      exact ⟨x, hx, hsingle.snoc (fun _ heq => nomatch heq) fun _ heq => nomatch heq⟩
    | updateRevoked _ =>
      exact ⟨x, hx, hsingle.snoc (fun _ heq => nomatch heq) fun _ heq => nomatch heq⟩
    | _ => exact absurd trivial hop

theorem single_of_history (h₀ : Keyed t₀) (hstored : ∃ x, t₀.subscribers imsi = some x)
    (h : History (DynamoTable.exec gsi) (fun k => guard imsi (requests k)) t₀ tr t)
    (hcurrent : AllCurrent gsi imsi t₀ tr) :
    ∃ x, t.subscribers imsi = some x ∧ Single imsi tr x := by
  have hnil : History (DynamoTable.exec gsi) (fun k => guard imsi (requests k)) t₀ ([] ++ tr) t := h
  apply hnil.along (P := fun tr t => ∃ x, t.subscribers imsi = some x ∧ Single imsi tr x)
  · obtain ⟨x, hx⟩ := hstored
    exact ⟨x, hx, ⟨fun _ _ hmem => (List.not_mem_nil hmem).elim,
      fun _ _ hmem => (List.not_mem_nil hmem).elim⟩⟩
  · rintro tr' t' k op - ⟨rest, hrest⟩ htr hg ⟨x, hx, hsingle⟩
    apply single_step h₀ htr hx hsingle hg
    apply hcurrent tr' k ⟨op, _⟩ rest
    rw [← List.nil_append tr, ← hrest, List.append_assoc, List.singleton_append]

theorem secret_of_delivers (h₀ : Keyed t₀)
    (h : History (DynamoTable.exec gsi) (fun k => guard imsi (requests k)) t₀ tr t)
    (hsingle : Single imsi tr x) {k : κ} {outcome : ProvisioningOutcome} {doc : ProvisioningDoc}
    {account : Characteristic}
    (hdelivers : Configuration.Delivers service.settings (ofThread k tr) (.ok outcome))
    (hdoc : outcome.body = some doc) (hmem : account ∈ doc.characteristics)
    (haccount : account.isApplication appIdDmAccount = true)
    (hname : (account.findParm "AAUTHNAME").map Parm.value = some imsi) :
    (account.findParm "AAUTHSECRET").map Parm.value = some x.dmPassword := by
  obtain ⟨s, secret, hread, ⟨values, rfl⟩, hne, hstored⟩ := hdelivers doc hdoc account hmem haccount
  have himsi : s.imsi = imsi := Option.some.inj hname
  have hknown : Known x.dmPassword secret := by
    rcases hstored with rfl | ⟨y, hput, hyimsi, rfl⟩
    · obtain ⟨key, hget⟩ := mem_of_identityRead hread
      have hget := mem_ofThread.mp hget
      have hkey : key = imsi := (imsi_of_read h₀ h hget).symm.trans himsi
      obtain ⟨s', hs', hs⟩ := hsingle.reads k _ (hkey ▸ hget)
      exact Option.some.inj hs' ▸ hs
    · exact hsingle.puts k y (mem_ofThread.mp hput) (hyimsi.trans himsi)
  have hsecret : secret = x.dmPassword := hknown.resolve_left hne
  exact congrArg some hsecret

/-- Every DM account delivered for the IMSI carries the password of the stored record. -/
def Agreed (imsi : String) (c : Config κ ItemOp ItemOp.Answer DynamoTable Finished) : Prop :=
  ∃ x, c.shared.subscribers imsi = some x ∧
    ∀ k outcome doc, c.threads k = .result (.answered (.ok outcome)) → outcome.body = some doc →
      ∀ account ∈ doc.characteristics, account.isApplication appIdDmAccount = true →
        (account.findParm "AAUTHNAME").map Parm.value = some imsi →
        (account.findParm "AAUTHSECRET").map Parm.value = some x.dmPassword

/-- The accounts agree with the record in every run each of whose puts is current. -/
theorem dmPassword_agreed (service : ProvisioningService) (gsi : Gsi)
    (faults : Nat → Option ClientError) (imsi : String) (requests : κ → Request) (t₀ : DynamoTable)
    (h₀ : Keyed t₀) (hstored : ∃ x, t₀.subscribers imsi = some x) (schedule : List κ) :
    let c := (start t₀ (threads service faults imsi requests)).run (DynamoTable.exec gsi) schedule
    AllCurrent gsi imsi t₀ c.trace → Agreed imsi c := by
  intro c hcurrent
  have hthreads : ∀ k, (threads service faults imsi requests k).Obeys (guard imsi (requests k))
      (post service) [] := threads_obey
  obtain ⟨hrun, hobeys⟩ := run_history (DynamoTable.exec gsi) t₀ hthreads schedule
  obtain ⟨x, hx, hsingle⟩ := single_of_history h₀ hstored hrun hcurrent
  refine ⟨x, hx, fun k outcome doc hfinished hdoc account hmem haccount hname => ?_⟩
  have hdelivers : Configuration.Delivers service.settings (ofThread k c.trace) (.ok outcome) := by
    have hobeyed := hobeys k
    change (c.threads k).Obeys _ _ _ at hobeyed
    rwa [hfinished] at hobeyed
  exact secret_of_delivers h₀ hrun hsingle hdelivers hdoc hmem haccount hname

end Run

def lab (schedule : List Bool) : Config Bool ItemOp ItemOp.Answer DynamoTable Finished :=
  (start labTable (threads labService (fun _ => none) labSubscriber.imsi fun second =>
    .configuration (if second then labRequest "s2cond" (by decide) else labRequest "f1rst" (by decide)))
    ).run labExec schedule

def labPut (schedule : List (Option Bool)) :
    Config (Option Bool) ItemOp ItemOp.Answer DynamoTable Finished :=
  (start labTable (threads labService (fun _ => none) labSubscriber.imsi fun
    | some second => .configuration
        (if second then labRequest "s2cond" (by decide) else labRequest "f1rst" (by decide))
    | none => .put { msisdn := labSubscriber.msisdn } ⟨1700000000, Clock.pos_start⟩)).run
    labExec schedule

/-- The PUT and the second request, which has started before, find the password the first one drew,
and all three run among each other. -/
theorem dmPassword_agreed_among :
    let c := labPut ([some true] ++ List.replicate 5 (some false) ++ [none, some false] ++
      [none, none, some true, none, some true] ++ List.replicate 2 (some false) ++
      List.replicate 2 (some true))
    (∀ second, ∃ outcome, c.threads (some second) = .result (.answered (.ok outcome))) ∧
      (∃ x, c.threads none = .result (.written (.ok x))) ∧ Agreed labSubscriber.imsi c := by
  refine ⟨?_, ⟨_, rfl⟩, ?_⟩
  · rintro (_ | _) <;> exact ⟨_, rfl⟩
  apply dmPassword_agreed labService labGsi (fun _ => none) labSubscriber.imsi _ labTable
    keyed_labTable ⟨_, rfl⟩
  have hnil : AllCurrent labGsi labSubscriber.imsi labTable (labPut []).trace := by
    rintro pre k e post htr
    exact absurd htr (by simp [labPut, start, Config.run])
  have hread := (((hnil.step labExec (some true) (.getMsisdn _) rfl trivial).step labExec
    (some false) (.getMsisdn _) rfl trivial).step labExec (some false) (.getSubscriber _) rfl
    trivial).step labExec (some false) (.putToken _) rfl trivial
  -- the first request stores the password it drew
  have hdrawn := (hread.step labExec (some false) (.getSubscriber _) rfl trivial).step labExec
    (some false) (.putSubscriber _) rfl fun _ => rfl
  have hload := ((hdrawn.step labExec none (.getSubscriber _) rfl trivial).step labExec (some false)
    (.putMsisdn _ _) rfl trivial).step labExec none (.getSubscriber _) rfl trivial
  -- the operator's record carries it on
  have hput := hload.step labExec none (.putSubscriber _) rfl fun _ => rfl
  have hsecond := ((hput.step labExec (some true) (.getSubscriber _) rfl trivial).step labExec none
    (.putMsisdn _ _) rfl trivial).step labExec (some true) (.putToken _) rfl trivial
  have hfirst := (hsecond.step labExec (some false) (.getDevice _) rfl trivial).step labExec
    (some false) (.putDevice _) rfl trivial
  exact (hfirst.step labExec (some true) (.getDevice _) rfl trivial).step labExec (some true)
    (.putDevice _) rfl trivial

/-- Two requests that both read the record before either writes it draw a password each, and the
last one to write leaves the other with an account that cannot authenticate. -/
theorem dmPassword_not_agreed :
    let c := lab (List.replicate 2 false ++ List.replicate 8 true ++ List.replicate 6 false)
    (∀ k, ∃ outcome, c.threads k = .result (.answered (.ok outcome))) ∧
      ¬ Agreed labSubscriber.imsi c := by
  constructor
  · rintro (_ | _) <;> exact ⟨_, rfl⟩
  · rintro ⟨x, hx, hagreed⟩
    obtain rfl := Option.some.inj hx
    have hsecret := hagreed true _ _ rfl rfl _ (List.mem_of_getElem? (i := 2) rfl) rfl rfl
    revert hsecret
    decide

end Acs.DmPasswordRuns
