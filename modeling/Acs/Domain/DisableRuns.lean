import Acs.Auth.Revocation
import Acs.Domain.OnDynamo

/-! A disable among configuration requests: what is left of it when they interleave on the table. -/

namespace Acs.DisableRuns
open Interleave OnDynamo

inductive Finished
  | disabled (response : Admin.Response Subscriber)
  | answered (answer : Except ServiceError ProvisioningOutcome)

section Run
variable {κ : Type} [DecidableEq κ] (service : ProvisioningService) (gsi : Gsi)
  (faults : Nat → Option ClientError) (imsi : String) (vers : Int) (clock : Clock)
  (requests : κ → Configuration.Request) (t₀ : DynamoTable)

/-- The disable is thread `none`, the configuration requests are the others. -/
def threads : Option κ → ItemProgram Finished
  | none => do
    let response ← (Admin.disableSubscriber imsi vers clock).interpret (DynamoDb.impl faults)
    return .disabled response
  | some k => do
    let request := requests k
    let answer ← (service.handle request.query request.evidence request.draws).interpret
      (DynamoDb.impl faults)
    return .answered answer

abbrev Trace (κ : Type) := List (Option κ × Event ItemOp.Answer)

def Early (imsi : String) (k : κ) (tr : Trace κ) : Prop :=
  ∃ pre x post, tr = pre ++ (none, ⟨.putSubscriber x, ()⟩) :: post ∧
    ∃ s, identityRead (ofThread (some k) pre) = some s ∧ s.imsi = imsi

/-- A step that does not race the disable: a request that had read the subscriber before it does
not write the record after its put, nor store a token after its query, and the query finds the
tokens of such requests on the first page of the index. -/
def Unraced (pre : Trace κ) : Option κ → ItemOp → Prop
  | some k, .putSubscriber x => Early imsi k pre → x.imsi ≠ imsi
  | some k, .putToken r =>
    Early imsi k pre → (∃ page, (none, ⟨.queryTokens imsi 100, page⟩) ∈ pre) → r.imsi ≠ imsi
  | none, .queryTokens _ _ => ∀ k r, Early imsi k pre → (some k, ⟨.putToken r, ()⟩) ∈ pre →
    r.imsi = imsi → r ∈ (replay (DynamoTable.exec gsi) t₀ pre).tokens →
      r ∈ Token.firstPage gsi (replay (DynamoTable.exec gsi) t₀ pre).tokens imsi
  | _, _ => True

abbrev AllUnraced : Trace κ → Prop := AllSteps (Unraced gsi imsi t₀)

def guard : Option κ → ItemEvents → ItemOp → Prop
  | none => Disable.Allowed imsi vers
  | some k => Configuration.Allowed (requests k).draws

def post : Option κ → ItemEvents → Finished → Prop
  | none, h, .disabled response => Disable.Done imsi h response
  | _, _, _ => True

variable {service gsi faults imsi vers clock requests t₀}

omit [DecidableEq κ] in
theorem threads_obey (i : Option κ) :
    (threads service faults imsi vers clock requests i).Obeys (guard imsi vers requests i)
      (post imsi i) [] := by
  cases i with
  | none =>
    apply Program.Obeys.bind
    exact (Disable.disableSubscriber_obeys faults clock).mono (fun _ _ hg => hg) fun _ _ hd => hd
  | some k =>
    apply Program.Obeys.bind
    exact (Configuration.handle_obeys service faults _ _ _).mono (fun _ _ hg => hg)
      fun _ _ _ => trivial

/-- From the put of the disable on, the record stays forced, and so is every copy of it read. -/
structure Forced (imsi : String) (vers : Int) (start tr : Trace κ) (t : DynamoTable) : Prop where
  stored : ∃ x, t.subscribers imsi = some x ∧ x.forcedVers = some vers
  reads : ∀ mid, tr = start ++ mid → ∀ k x, (some k, ⟨.getSubscriber imsi, some x⟩) ∈ mid →
    x.forcedVers = some vers

variable {pre post' : Trace κ} {x : Subscriber} {t : DynamoTable}

theorem early_of_read (h₀ : Keyed t₀)
    (h : History (DynamoTable.exec gsi) (guard imsi vers requests) t₀
      (pre ++ [(none, ⟨.putSubscriber x, ()⟩)] ++ post') t)
    (hf : Forced imsi vers (pre ++ [(none, ⟨.putSubscriber x, ()⟩)])
      (pre ++ [(none, ⟨.putSubscriber x, ()⟩)] ++ post') t) {k : κ} {s : Subscriber}
    (hs : identityRead (ofThread (some k) (pre ++ [(none, ⟨.putSubscriber x, ()⟩)] ++ post')) = some s)
    (hunforced : s.forcedVers = none) (himsi : s.imsi = imsi) :
    Early imsi k (pre ++ [(none, ⟨.putSubscriber x, ()⟩)] ++ post') := by
  rw [ofThread_append, ofThread_snoc_ne (by simp), identityRead_append] at hs
  cases hpre : identityRead (ofThread (some k) pre) with
  | some s' =>
    rw [hpre, Option.some_or] at hs
    obtain rfl := Option.some.inj hs
    exact ⟨pre, x, post', by simp, s', hpre, himsi⟩
  | none =>
    rw [hpre, Option.none_or] at hs
    obtain ⟨key, hread⟩ := mem_of_identityRead hs
    have hmem := mem_ofThread.mp hread
    have hkey : s.imsi = key := imsi_of_read h₀ h (List.mem_append_right _ hmem)
    have hforced := hf.reads post' rfl k s (by rwa [← himsi, hkey])
    rw [hunforced] at hforced
    cases hforced

theorem stored_step (h₀ : Keyed t₀)
    (h : History (DynamoTable.exec gsi) (guard imsi vers requests) t₀
      (pre ++ [(none, ⟨.putSubscriber x, ()⟩)] ++ post') t)
    (hf : Forced imsi vers (pre ++ [(none, ⟨.putSubscriber x, ()⟩)])
      (pre ++ [(none, ⟨.putSubscriber x, ()⟩)] ++ post') t) {i : Option κ} {op : ItemOp}
    (hg : guard imsi vers requests i
      (ofThread i (pre ++ [(none, ⟨.putSubscriber x, ()⟩)] ++ post')) op)
    (hu : Unraced gsi imsi t₀ (pre ++ [(none, ⟨.putSubscriber x, ()⟩)] ++ post') i op) :
    ∃ y, (DynamoTable.exec gsi op t).2.subscribers imsi = some y ∧ y.forcedVers = some vers := by
  by_cases hop : Quiet op
  · rw [(exec_quiet hop).1]
    exact hf.stored
  · cases op with
    | putSubscriber y =>
      by_cases himsi : y.imsi = imsi
      · cases i with
        | none => exact ⟨y, himsi ▸ Function.update_self .., hg.1⟩
        | some k =>
          obtain ⟨s, hs, hunforced, hderived⟩ := hg
          have hearly := early_of_read h₀ h hf hs hunforced (hderived.imsi.symm.trans himsi)
          exact absurd himsi (hu hearly)
      · have hkept : (DynamoTable.exec gsi (.putSubscriber y) t).2.subscribers imsi =
            t.subscribers imsi := Function.update_of_ne (Ne.symm himsi) ..
        rw [hkept]
        exact hf.stored
    | deleteSubscriber key => cases i <;> exact hg.elim
    | getSubscriber _ => exact hf.stored
    | putToken _ => exact hf.stored
    | queryTokens _ _ => exact hf.stored
    | updateRevoked _ => exact hf.stored
    | _ => exact absurd trivial hop

theorem forced_of_put (h₀ : Keyed t₀)
    (h : History (DynamoTable.exec gsi) (guard imsi vers requests) t₀
      (pre ++ [(none, ⟨.putSubscriber x, ()⟩)] ++ post') t)
    (hunraced : AllUnraced gsi imsi t₀ (pre ++ [(none, ⟨.putSubscriber x, ()⟩)] ++ post')) :
    Forced imsi vers (pre ++ [(none, ⟨.putSubscriber x, ()⟩)])
      (pre ++ [(none, ⟨.putSubscriber x, ()⟩)] ++ post') t := by
  apply h.along
  · -- the put itself: the disable read the record under the IMSI and forces its version
    obtain ⟨hpre, ⟨hforced, s, hread, hximsi⟩, -⟩ := h.of_append.snoc_inv
    have himsi : x.imsi = imsi := hximsi.trans (imsi_of_read h₀ hpre (mem_ofThread.mp hread))
    constructor
    · refine ⟨x, ?_, hforced⟩
      rw [replay_snoc, ← himsi]
      exact Function.update_self ..
    · intro mid hmid
      rw [List.self_eq_append_right.mp hmid]
      exact fun _ _ hmem => nomatch hmem
  · rintro tr t i op ⟨mid, rfl⟩ ⟨rest, hrest⟩ htr hg ih
    have hu := hunraced _ i ⟨op, _⟩ rest (by rw [← hrest, List.append_assoc, List.singleton_append])
    refine ⟨stored_step h₀ htr ih hg hu, fun mid' hmid' k y hmem => ?_⟩
    rw [List.append_assoc, List.append_cancel_left_eq] at hmid'
    rw [← hmid'] at hmem
    rcases List.mem_append.mp hmem with hmem | hmem
    · exact ih.reads mid rfl k y hmem
    · obtain ⟨-, hevent⟩ := Prod.mk.inj (List.mem_singleton.mp hmem)
      obtain ⟨rfl, hans⟩ := Sigma.mk.inj hevent
      obtain ⟨z, hz, hforced⟩ := ih.stored
      have hyz : y = z := Option.some.inj ((eq_of_heq hans).trans hz)
      exact hyz ▸ hforced

theorem early_of_putToken (h₀ : Keyed t₀) {tr : Trace κ}
    (h : History (DynamoTable.exec gsi) (guard imsi vers requests) t₀ tr t)
    (hunraced : AllUnraced gsi imsi t₀ tr) (hstart : pre ++ [(none, ⟨.putSubscriber x, ()⟩)] <+: tr)
    {k : κ} {r : TokenRecord} {h' : ItemEvents} (hpre : h' <+: ofThread (some k) tr)
    (hg : Configuration.Allowed (requests k).draws h' (.putToken r)) (himsi : r.imsi = imsi) :
    Early imsi k tr := by
  obtain ⟨post', rfl⟩ := hstart
  obtain ⟨s, hs, hunforced, hrimsi, -⟩ := hg
  obtain ⟨es, hes⟩ := hpre
  have hs' : identityRead (ofThread (some k) (pre ++ [(none, ⟨.putSubscriber x, ()⟩)] ++ post')) =
      some s := by rw [← hes, identityRead_append, hs, Option.some_or]
  exact early_of_read h₀ h (forced_of_put h₀ h hunraced) hs' hunforced (hrimsi.symm.trans himsi)

theorem live_of_exec {op : ItemOp} {r : TokenRecord}
    (hr : r ∈ (DynamoTable.exec gsi op t).2.tokens) (hlive : r.revoked = false) :
    (r ∈ t.tokens ∧ op ≠ .updateRevoked r.tokenHash) ∨ op = .putToken r := by
  by_cases hop : Quiet op
  · rw [(exec_quiet hop).2] at hr
    exact Or.inl ⟨hr, fun heq => (heq ▸ hop : Quiet (.updateRevoked r.tokenHash))⟩
  · cases op with
    | putToken r' =>
      rcases TokenTable.mem_put hr with rfl | hr
      · exact Or.inr rfl
      · exact Or.inl ⟨hr, fun heq => nomatch heq⟩
    | updateRevoked tokenHash =>
      obtain ⟨r', hr', heq⟩ := List.mem_map.mp hr
      split_ifs at heq with hhash
      · rw [← heq] at hlive
        cases hlive
      · subst heq
        refine Or.inl ⟨hr', fun heq => hhash ?_⟩
        obtain rfl := ItemOp.updateRevoked.inj heq
        exact decide_eq_true rfl
    | getSubscriber _ => exact Or.inl ⟨hr, fun heq => nomatch heq⟩
    | putSubscriber _ => exact Or.inl ⟨hr, fun heq => nomatch heq⟩
    | deleteSubscriber _ => exact Or.inl ⟨hr, fun heq => nomatch heq⟩
    | queryTokens _ _ => exact Or.inl ⟨hr, fun heq => nomatch heq⟩
    | _ => exact absurd trivial hop

/-- From the query of the disable on, a token of the IMSI that is live was in the table then, and
the disable has not come to it yet. -/
structure Outlived (imsi : String) (t₁ : DynamoTable) (start tr : Trace κ) (r : TokenRecord) :
    Prop where
  stored : r ∈ t₁.tokens
  waits : ∀ rest, tr = start ++ rest → (none, ⟨.updateRevoked r.tokenHash, ()⟩) ∉ rest

theorem outlived_of_query (h₀ : Keyed t₀) {mid rest : Trace κ} {page : List TokenRecord}
    (h : History (DynamoTable.exec gsi) (guard imsi vers requests) t₀
      (pre ++ [(none, ⟨.putSubscriber x, ()⟩)] ++ mid ++ [(none, ⟨.queryTokens imsi 100, page⟩)] ++
        rest) t)
    (hunraced : AllUnraced gsi imsi t₀ (pre ++ [(none, ⟨.putSubscriber x, ()⟩)] ++ mid ++
      [(none, ⟨.queryTokens imsi 100, page⟩)] ++ rest)) {r : TokenRecord}
    (hr : r ∈ t.tokens) (himsi : r.imsi = imsi) (hlive : r.revoked = false) :
    Outlived imsi (replay (DynamoTable.exec gsi) t₀ (pre ++ [(none, ⟨.putSubscriber x, ()⟩)] ++ mid))
      (pre ++ [(none, ⟨.putSubscriber x, ()⟩)] ++ mid ++ [(none, ⟨.queryTokens imsi 100, page⟩)])
      (pre ++ [(none, ⟨.putSubscriber x, ()⟩)] ++ mid ++ [(none, ⟨.queryTokens imsi 100, page⟩)] ++
        rest) r := by
  revert r
  apply h.along
    (P := fun tr t => ∀ {r : TokenRecord}, r ∈ t.tokens → r.imsi = imsi → r.revoked = false →
      Outlived imsi _ _ tr r)
  · intro r hr himsi hlive
    rw [replay_snoc] at hr
    refine ⟨hr, fun rest hrest => ?_⟩
    rw [List.self_eq_append_right.mp hrest]
    exact fun hmem => nomatch hmem
  · rintro tr t i op ⟨done, rfl⟩ ⟨rest', hrest⟩ htr hg ih r hr himsi hlive
    rcases live_of_exec hr hlive with ⟨hr, hne⟩ | rfl
    · obtain ⟨hstored, hwaits⟩ := ih hr himsi hlive
      refine ⟨hstored, fun done' hdone hmem => ?_⟩
      rw [List.append_assoc, List.append_cancel_left_eq] at hdone
      rw [← hdone] at hmem
      rcases List.mem_append.mp hmem with hmem | hmem
      · exact hwaits done rfl hmem
      · obtain ⟨-, hevent⟩ := Prod.mk.inj (List.mem_singleton.mp hmem)
        exact hne (Sigma.mk.inj hevent).1.symm
    · -- a token stored only now: the disable has queried, so no request that could store it races
      have hu := hunraced _ i ⟨.putToken r, ()⟩ rest'
        (by rw [← hrest, List.append_assoc, List.singleton_append])
      cases i with
      | none => exact hg.elim
      | some k =>
        have hearly := early_of_putToken h₀ htr (hunraced.of_prefix ((List.prefix_append _ _).trans
          ⟨rest', hrest⟩)) (((List.prefix_append _ _).trans (List.prefix_append _ _)).trans
            (List.prefix_append _ _)) List.prefix_rfl hg himsi
        exact absurd himsi (hu hearly ⟨page, by simp⟩)

theorem live_of_verifyToken {sha256 : String → String} {token : String} {imei : Option String}
    {bindImei : Bool} {now : Clock} {r : TokenRecord}
    (h : ((Token.verifyToken sha256 token imei bindImei now).eval (DynamoDb.run gsi faults) t).1 =
      .ok (some r)) : r ∈ t.tokens ∧ r.revoked = false := by
  by_cases htoken : token = ""
  · rw [Token.verifyToken, if_pos htoken] at h
    cases h
  · have hload := (Token.eval_verifyToken (S := Token.dynamoTokens gsi faults) token imei bindImei t
      htoken fun _ => Token.tokenHash_of_loadToken).symm.trans h
    simp only [Except.map_eq_ok, Option.filter_eq_some_iff] at hload
    obtain ⟨found, hfound, rfl, haccepts⟩ := hload
    refine ⟨Token.mem_of_loadToken hfound, ?_⟩
    simp only [Token.accepts, Bool.and_eq_true, Bool.not_eq_true'] at haccepts
    exact haccepts.1.1

theorem split_of_done {tr : Trace κ} {y : Subscriber}
    (h : Disable.Done imsi (ofThread none tr) (.ok y)) :
    ∃ pre x mid page rest, tr = pre ++ [(none, ⟨.putSubscriber x, ()⟩)] ++ mid ++
        [(none, ⟨.queryTokens imsi 100, page⟩)] ++ rest ∧
      ∀ r ∈ page, r.revoked = false → (none, ⟨.updateRevoked r.tokenHash, ()⟩) ∈ rest := by
  obtain ⟨a, x, b, page, c, hevents, hrevoked⟩ := h
  obtain ⟨pre, post, rfl, -, hpost⟩ := split_of_ofThread hevents
  obtain ⟨mid, rest, rfl, -, hrest⟩ := split_of_ofThread hpost
  refine ⟨pre, x, mid, page, rest, by simp, fun r hr hlive => ?_⟩
  exact mem_ofThread.mp (hrest ▸ hrevoked r hr hlive)

theorem revoked_of_issued (h₀ : Keyed t₀) {mid rest : Trace κ} {page : List TokenRecord}
    (h : History (DynamoTable.exec gsi) (guard imsi vers requests) t₀
      (pre ++ [(none, ⟨.putSubscriber x, ()⟩)] ++ mid ++ [(none, ⟨.queryTokens imsi 100, page⟩)] ++
        rest) t)
    (hunraced : AllUnraced gsi imsi t₀ (pre ++ [(none, ⟨.putSubscriber x, ()⟩)] ++ mid ++
      [(none, ⟨.queryTokens imsi 100, page⟩)] ++ rest))
    (hpage : ∀ r ∈ page, r.revoked = false → (none, ⟨.updateRevoked r.tokenHash, ()⟩) ∈ rest)
    {k : κ} {r : TokenRecord} (hissued : (some k, ⟨.putToken r, ()⟩) ∈
      pre ++ [(none, ⟨.putSubscriber x, ()⟩)] ++ mid ++ [(none, ⟨.queryTokens imsi 100, page⟩)] ++ rest)
    (himsi : r.imsi = imsi) : ¬ (r ∈ t.tokens ∧ r.revoked = false) := by
  rintro ⟨hr, hlive⟩
  obtain ⟨hstored, hwaits⟩ := outlived_of_query h₀ h hunraced hr himsi hlive
  have hquery := h.of_append
  obtain ⟨hbefore, -, hans⟩ := hquery.snoc_inv
  have hunracedQuery := hunraced.of_prefix (List.prefix_append _ rest)
  have hearlyQuery := hunraced _ none ⟨.queryTokens imsi 100, page⟩ rest
    (by rw [List.append_assoc _ [_], List.singleton_append])
  rcases List.mem_append.mp hissued with hbeforeRest | hrest
  · -- stored before the query: the page shows the token live, so the disable has revoked it
    have hmem := (List.mem_append.mp hbeforeRest).resolve_right (by simp)
    obtain ⟨p, q, hsplit⟩ := List.append_of_mem hmem
    have hg := (hsplit ▸ hbefore).at.2.1
    have hpk : ofThread (some k) p <+: ofThread (some k)
        (pre ++ [(none, ⟨.putSubscriber x, ()⟩)] ++ mid) := by
      rw [hsplit, ofThread_append]
      exact List.prefix_append _ _
    have hearly := early_of_putToken h₀ hbefore
      (hunracedQuery.of_prefix (List.prefix_append _ _)) (List.prefix_append _ _) hpk hg himsi
    have honpage : r ∈ page := by
      have hfirst := hearlyQuery k r hearly hmem himsi hstored
      have hread : page = Token.firstPage gsi _ imsi := hans
      rwa [hread]
    exact hwaits rest rfl (hpage r honpage hlive)
  · -- stored after it: such a request had read the subscriber before the disable, and races it
    obtain ⟨p, q, rfl⟩ := List.append_of_mem hrest
    rw [← List.append_assoc] at h hunraced
    have hg := h.at.2.1
    have hearly := early_of_putToken h₀ h.at.1 (hunraced.of_prefix (List.prefix_append _ _))
      (((List.prefix_append _ _).trans (List.prefix_append _ _)).trans (List.prefix_append _ _))
      List.prefix_rfl hg himsi
    exact hunraced _ (some k) ⟨.putToken r, ()⟩ q rfl hearly ⟨page, by simp⟩ himsi

/-- The stored record has the version the disable forced, and no token of the IMSI that a request
issued verifies. -/
def Kept (service : ProvisioningService) (gsi : Gsi) (faults : Nat → Option ClientError)
    (imsi : String) (vers : Int) (c : Config (Option κ) ItemOp ItemOp.Answer DynamoTable Finished) :
    Prop :=
  (∃ x, c.shared.subscribers imsi = some x ∧ x.forcedVers = some vers) ∧
    ∀ k r, (some k, ⟨.putToken r, ()⟩) ∈ c.trace → r.imsi = imsi → ∀ token imei bindImei now,
      ((Token.verifyToken service.sha256 token imei bindImei now).eval
        (DynamoDb.run gsi faults) c.shared).1 ≠ .ok (some r)

/-- From when a disable has returned, it is kept by every run none of whose steps races it. -/
theorem disable_kept (service : ProvisioningService) (gsi : Gsi)
    (faults : Nat → Option ClientError) (imsi : String) (vers : Int) (clock : Clock)
    (requests : κ → Configuration.Request) (t₀ : DynamoTable) (h₀ : Keyed t₀)
    (schedule : List (Option κ)) :
    let c := (start t₀ (threads service faults imsi vers clock requests)).run
      (DynamoTable.exec gsi) schedule
    AllUnraced gsi imsi t₀ c.trace → (∃ x, c.threads none = .result (.disabled (.ok x))) →
      Kept service gsi faults imsi vers c := by
  intro c hunraced hreturned
  obtain ⟨y, hreturned⟩ := hreturned
  have hthreads : ∀ i, (threads service faults imsi vers clock requests i).Obeys
      (guard imsi vers requests i) (post imsi i) [] := threads_obey
  obtain ⟨hrun, hobeys⟩ := run_history (DynamoTable.exec gsi) t₀ hthreads schedule
  have hdone : Disable.Done imsi (ofThread none c.trace) (.ok y) := by
    have hobeyed := hobeys none
    change (c.threads none).Obeys _ _ _ at hobeyed
    rwa [hreturned] at hobeyed
  obtain ⟨pre, x, mid, page, rest, htrace, hpage⟩ := split_of_done hdone
  change History _ _ _ c.trace c.shared at hrun
  unfold Kept
  rw [htrace] at hunraced hrun ⊢
  constructor
  · rw [List.append_assoc (pre ++ _ ++ mid), List.append_assoc (pre ++ _)] at hunraced hrun
    exact (forced_of_put h₀ hrun hunraced).stored
  · intro k r hissued himsi token imei bindImei now hvalid
    exact revoked_of_issued h₀ hrun hunraced hpage hissued himsi (live_of_verifyToken hvalid)

def putsRecord : Option κ × Event ItemOp.Answer → Bool
  | (none, ⟨.putSubscriber _, _⟩) => true
  | _ => false

theorem allUnraced_of_not_put {tr : Trace κ} (h : ∀ e ∈ tr, putsRecord e = false) :
    AllUnraced gsi imsi t₀ tr := by
  rintro pre i e post rfl
  have hnone : ∀ k, ¬ Early imsi k pre := by
    rintro k ⟨p, x, q, rfl, -⟩
    cases h (none, ⟨.putSubscriber x, ()⟩) (by simp)
  obtain ⟨op, ans⟩ := e
  cases i with
  | none =>
    cases op with
    | queryTokens => exact fun k _ hearly => absurd hearly (hnone k)
    | _ => trivial
  | some k =>
    cases op with
    | putSubscriber x => exact fun hearly => absurd hearly (hnone k)
    | putToken r => exact fun hearly => absurd hearly (hnone k)
    | _ => trivial

end Run

def lab (schedule : List (Option Unit)) :
    Config (Option Unit) ItemOp ItemOp.Answer DynamoTable Finished :=
  (start labTable (threads labService (fun _ => none) labSubscriber.imsi (-1) ⟨1700000200, by decide⟩
    fun _ => labRequest "s3cret" (by decide))).run labExec schedule

/-- A request that reads the record before the disable, and stores it and its token before the
disable puts it, runs among its steps: the version stays forced, and the token is revoked. -/
theorem disable_kept_among_request :
    let c := lab ([some (), some (), none, none] ++ List.replicate 3 (some ()) ++
      [none, some (), none, none, some (), none, some ()])
    (∃ outcome, c.threads (some ()) = .result (.answered (.ok outcome))) ∧
      (∃ r, (some (), ⟨.putToken r, ()⟩) ∈ c.trace ∧ r.imsi = labSubscriber.imsi) ∧
      Kept labService labGsi (fun _ => none) labSubscriber.imsi (-1) c := by
  refine ⟨⟨_, rfl⟩, ⟨_, List.mem_of_getElem? (i := 4) rfl, rfl⟩, ?_⟩
  apply disable_kept labService labGsi (fun _ => none) labSubscriber.imsi (-1) _ _ labTable
    keyed_labTable
  · have hstored : AllUnraced labGsi labSubscriber.imsi labTable
        (lab ([some (), some (), none, none] ++ List.replicate 3 (some ()))).trace :=
      allUnraced_of_not_put (by decide)
    have hput := ((hstored.step labExec none (.putSubscriber _) rfl trivial).step labExec (some ())
      (.putMsisdn _ _) rfl trivial).step labExec none (.putMsisdn _ _) rfl trivial
    -- the query finds the token of the request
    have hquery := hput.step labExec none (.queryTokens _ _) rfl
      fun _ r _ _ himsi hr => Token.mem_firstPage_of_length_le (by decide) hr himsi
    exact ((hquery.step labExec (some ()) (.getDevice _) rfl trivial).step labExec none
      (.updateRevoked _) rfl trivial).step labExec (some ()) (.putDevice _) rfl trivial
  · exact ⟨_, rfl⟩

/-- A disable that is carried out between the read and the writes of a request is lost: the record
is not forced any more, and the token issued after it is valid. -/
theorem disable_not_kept :
    let c := lab (List.replicate 2 (some ()) ++ List.replicate 5 none ++ List.replicate 6 (some ()))
    (∃ x, c.threads none = .result (.disabled (.ok x))) ∧
      (∃ outcome, c.threads (some ()) = .result (.answered (.ok outcome))) ∧
      (∃ x, c.shared.subscribers labSubscriber.imsi = some x ∧ x.forcedVers = none) ∧
      (∃ r, ((Token.verifyToken labService.sha256 "k1xDq0" (some "356938035643809") true
        ⟨1700000300, by decide⟩).eval (DynamoDb.run labGsi fun _ => none) c.shared).1 =
          .ok (some r) ∧ r.imsi = labSubscriber.imsi) ∧
      ¬ Kept labService labGsi (fun _ => none) labSubscriber.imsi (-1) c := by
  refine ⟨⟨_, rfl⟩, ⟨_, rfl⟩, ⟨_, rfl, rfl⟩, ⟨_, rfl, rfl⟩, ?_⟩
  rintro ⟨⟨x, hx, hforced⟩, -⟩
  obtain rfl := Option.some.inj hx
  cases hforced

end Acs.DisableRuns
