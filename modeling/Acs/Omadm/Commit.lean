import Acs.Omadm.Handlers

/-! Committing an answer: its writes are performed one after another until one raises. -/

namespace Acs.Omadm
open Interleave

def written (writes : List DmWrite) (m : MemoryStore) : MemoryStore :=
  writes.foldl (fun m w => w.apply m) m

@[simp] theorem written_nil (m : MemoryStore) : written [] m = m := rfl

@[simp] theorem written_cons (w : DmWrite) (ws : List DmWrite) (m : MemoryStore) :
    written (w :: ws) m = written ws (w.apply m) := rfl

theorem written_append (ws ws' : List DmWrite) (m : MemoryStore) :
    written (ws ++ ws') m = written ws' (written ws m) := List.foldl_append

section Commit
variable (R : Effect DmOp DmOp.Answer World)

/-- The writes `done` were performed; those of `rest` were not, since the first of them raised. -/
structure Committed (done rest : List DmWrite) (w w' : World) (tr : List (Event DmOp.Answer))
    (r : Except DmError Unit) : Prop where
  time : w.clock.now ≤ w'.clock.now
  store : w'.store = written done w.store
  trace : tr.map Sigma.fst = (done ++ rest.take 1).map DmOp.write
  result : rest = [] ∧ r = .ok () ∨ rest ≠ [] ∧ Raised R r

variable {R}

theorem Committed.trace_writes {writes : List DmWrite} {w w' : World}
    {tr : List (Event DmOp.Answer)} {r : Except DmError Unit}
    (h : Committed R writes [] w w' tr r) : tr.map Sigma.fst = writes.map DmOp.write := by
  simpa using h.trace

/-- The writes that were begun are among those of the answer. -/
theorem Committed.forall_trace {done rest : List DmWrite} {w w' : World}
    {tr : List (Event DmOp.Answer)} {r : Except DmError Unit} {P : DmOp → Prop}
    (h : Committed R done rest w w' tr r) (hall : ∀ write ∈ done ++ rest, P (.write write)) :
    ∀ e ∈ tr, P e.1 := by
  intro e he
  have hmem : e.1 ∈ (done ++ rest.take 1).map DmOp.write := h.trace ▸ List.mem_map.mpr ⟨e, he, rfl⟩
  obtain ⟨write, hwrite, hop⟩ := List.mem_map.mp hmem
  rw [← hop]
  apply hall
  rcases List.mem_append.mp hwrite with hwrite | hwrite
  · exact List.mem_append_left _ hwrite
  · exact List.mem_append_right _ (List.mem_of_mem_take hwrite)

variable (hR : ∀ op w ans w', R op w ans w' → Weather op w ans w')
include hR

theorem exec_write {write : DmWrite} {w w' : World} {tr : List (Event DmOp.Answer)}
    {r : Except DmError Unit} (h : Exec R (Dm.write write).run w tr r w') :
    w.clock.now ≤ w'.clock.now ∧ tr.map Sigma.fst = [.write write] ∧
      (r = .ok () ∧ w'.store = write.apply w.store ∨ Raised R r ∧ w'.store = w.store) := by
  obtain ⟨ans, w₁, tr₁, tr₂, hp, hr, rfl⟩ := Exec.bind_iff.mp h
  obtain ⟨rfl, rfl, rfl⟩ := Exec.result_iff.mp hr
  obtain ⟨hop, rfl⟩ := Exec.perform_iff.mp hp
  obtain ⟨htime, ⟨⟨e, rfl⟩, hstore⟩ | ⟨nonce, hexec⟩⟩ := hR _ _ _ _ hop
  · exact ⟨htime, rfl, Or.inr ⟨⟨e, rfl, _, _, _, _, hop, e, rfl⟩, hstore⟩⟩
  · obtain ⟨rfl, hstore⟩ := Prod.mk.inj hexec
    exact ⟨htime, rfl, Or.inl ⟨rfl, hstore.symm⟩⟩

theorem exec_writeAll {writes : List DmWrite} {w w' : World} {tr : List (Event DmOp.Answer)}
    {r : Except DmError Unit} (h : Exec R (writeAll writes).run w tr r w') :
    ∃ done rest, writes = done ++ rest ∧ Committed R done rest w w' tr r := by
  induction writes generalizing w tr with
  | nil =>
    obtain ⟨rfl, rfl, rfl⟩ := Exec.pure_iff.mp h
    exact ⟨[], [], rfl, Int.le_refl _, rfl, rfl, Or.inl ⟨rfl, rfl⟩⟩
  | cons write writes ih =>
    rcases Exec.bind_cases h with ⟨e, hwrite, rfl⟩ | ⟨_, w₁, tr₁, tr₂, hwrite, hrest, rfl⟩
    · obtain ⟨htime, htrace, ⟨hok, -⟩ | ⟨⟨e', he, hfaults⟩, hstore⟩⟩ := exec_write hR hwrite
      · cases hok
      · cases he
        refine ⟨[], write :: writes, rfl, htime, hstore, htrace, Or.inr ⟨?_, e', rfl, hfaults⟩⟩
        exact List.cons_ne_nil _ _
    · obtain ⟨htime, htrace, ⟨-, hstore⟩ | ⟨⟨e', he, -⟩, -⟩⟩ := exec_write hR hwrite
      · obtain ⟨done, rest, rfl, hcommitted⟩ := ih hrest
        refine ⟨write :: done, rest, rfl, Int.le_trans htime hcommitted.time, ?_, ?_,
          hcommitted.result⟩
        · rw [hcommitted.store, hstore, written_cons]
        · rw [List.map_append, htrace, hcommitted.trace]
          rfl
      · cases he

end Commit

section Respond
variable (R : Effect DmOp DmOp.Answer World) (service : DmService) (message : SyncMlMessage)

def sent (binary : Bool) (outcome : DmResponse) : DmResponse :=
  if binary && !outcome.body.isEmpty then { outcome with contentType := contentTypeWbxml }
  else outcome

section Sent
variable (binary : Bool) (outcome : DmResponse)

@[simp] theorem sent_statusCode : (sent binary outcome).statusCode = outcome.statusCode := by
  unfold sent
  split_ifs
  · rfl
  · rfl

@[simp] theorem sent_body : (sent binary outcome).body = outcome.body := by
  unfold sent
  split_ifs
  · rfl
  · rfl

@[simp] theorem sent_detail : (sent binary outcome).detail = outcome.detail := by
  unfold sent
  split_ifs
  · rfl
  · rfl

@[simp] theorem sent_metric : (sent binary outcome).metric = outcome.metric := by
  unfold sent
  split_ifs
  · rfl
  · rfl

end Sent

/-- What responding to a message comes to, with the operations it asks for: nothing is written
until the answer is there. -/
inductive Responded (binary : Bool) (encode : Encoder) (w w' : World) :
    List (Event DmOp.Answer) → Except DmError DmResponse → Prop
  | raised (tr : List (Event DmOp.Answer)) (r : Except DmError DmResponse) :
    (∀ e ∈ tr, e.1.Open ∨ e.1.IsRead ∧ service.Authenticates message w) → Reads w w' →
    Raised R r → Responded binary encode w w' tr r
  | refused (tr : List (Event DmOp.Answer)) (e : DmError) (r : Except DmError DmResponse) :
    (∀ e ∈ tr, e.1.Open ∨ e.1.IsRead ∧ service.Authenticates message w) → Reads w w' →
    service.Handled message encode w w' (.error e) →
    (∀ response, DmService.refusal e = some response → r = .ok response) →
    (DmService.refusal e = none → r = .error e) →
    Responded binary encode w w' tr r
  | answered (w₁ : World) (tr tr' : List (Event DmOp.Answer)) (outcome : DmResponse)
      (changes : DmChanges) (done rest : List DmWrite) (r : Except DmError Unit) :
    (∀ e ∈ tr, e.1.Open ∨ e.1.IsRead ∧ service.Authenticates message w) → Reads w w₁ →
    service.Handled message encode w w₁ (.ok (outcome, changes)) →
    changes.writes = done ++ rest → Committed R done rest w₁ w' tr' r →
    Responded binary encode w w' (tr ++ tr') (r.map fun _ => sent binary outcome)

variable {R} {service message} {binary : Bool} {encode : Encoder} {w w' : World}
  {tr : List (Event DmOp.Answer)} {r : Except DmError DmResponse}

theorem exec_handle {payload : Bytes} {contentType : String}
    (h : Exec R (service.handle payload contentType).run w tr r w') :
    (∃ response, service.read payload contentType = .error response ∧ tr = [] ∧
        r = .ok response ∧ w' = w) ∨
      ∃ message binary encode, service.read payload contentType = .ok (message, binary, encode) ∧
        Exec R (service.respond message binary encode).run w tr r w' := by
  unfold DmService.handle at h
  cases hread : service.read payload contentType with
  | error response =>
    rw [hread] at h
    obtain ⟨htr, hr, hw⟩ := Exec.pure_iff.mp h
    exact Or.inl ⟨response, rfl, htr, hr, hw⟩
  | ok request =>
    obtain ⟨message, binary, encode⟩ := request
    rw [hread] at h
    exact Or.inr ⟨message, binary, encode, rfl, h⟩

theorem refusal_of_ok {e : DmError} {response : DmResponse}
    (hsome : ∀ response, DmService.refusal e = some response → r = .ok response)
    (hnone : DmService.refusal e = none → r = .error e) (hr : r = .ok response) :
    DmService.refusal e = some response := by
  cases hrefusal : DmService.refusal e with
  | none =>
    rw [hnone hrefusal] at hr
    cases hr
  | some refused =>
    rw [hsome refused hrefusal] at hr
    exact congrArg some (Except.ok.inj hr)

variable (hR : ∀ op w ans w', R op w ans w' → Weather op w ans w')
include hR

theorem exec_respond (h : Exec R (service.respond message binary encode).run w tr r w') :
    Responded R service message binary encode w w' tr r := by
  unfold DmService.respond at h
  obtain ⟨handled, w₁, tr₁, tr₂, hhandle, hrest, rfl⟩ := Exec.bind_iff.mp h
  obtain ⟨hops, hreads, hresult⟩ := reading_handleMessage hR service message encode _ _ _ hhandle
  cases handled with
  | error e =>
    obtain ⟨rfl, hsome, hnone, rfl⟩ : tr₂ = [] ∧
        (∀ response, DmService.refusal e = some response → r = .ok response) ∧
        (DmService.refusal e = none → r = .error e) ∧ w₁ = w' := by
      cases hrefusal : DmService.refusal e with
      | some response =>
        simp only [hrefusal] at hrest
        obtain ⟨htr, hr, hw⟩ := Exec.result_iff.mp hrest
        exact ⟨htr, fun _ h => Option.some.inj h ▸ hr, fun h => (by cases h), hw.symm⟩
      | none =>
        simp only [hrefusal] at hrest
        obtain ⟨htr, hr, hw⟩ := Exec.result_iff.mp hrest
        exact ⟨htr, fun _ h => (by cases h), fun _ => hr, hw.symm⟩
    rw [List.append_nil]
    rcases hresult with ⟨e', he, hfaults⟩ | hhandled
    · cases he
      exact .raised _ _ hops hreads ⟨e', hnone rfl, hfaults⟩
    · exact .refused _ e _ hops hreads hhandled hsome hnone
  | ok answer =>
    obtain ⟨outcome, changes⟩ := answer
    rcases hresult with ⟨e', he, -⟩ | hhandled
    · cases he
    · rcases Exec.bind_cases hrest with ⟨e, hcommit, rfl⟩ | ⟨_, w₂, tr₃, tr₄, hcommit, hend, rfl⟩
      · obtain ⟨done, rest, hwrites, hcommitted⟩ := exec_writeAll hR hcommit
        exact .answered w₁ tr₁ tr₂ outcome changes done rest _ hops hreads hhandled hwrites
          hcommitted
      · obtain ⟨rfl, rfl, rfl⟩ := Exec.pure_iff.mp hend
        obtain ⟨done, rest, hwrites, hcommitted⟩ := exec_writeAll hR hcommit
        rw [List.append_nil]
        exact .answered w₁ tr₁ tr₃ outcome changes done rest _ hops hreads hhandled hwrites
          hcommitted

/-- A message that is answered 200 was handled, and all of its writes were performed. -/
theorem exec_respond_answered {response : DmResponse}
    (h : Exec R (service.respond message binary encode).run w tr (.ok response) w')
    (h200 : response.statusCode = 200) :
    ∃ w₁ tr₁ tr₂ outcome changes, tr = tr₁ ++ tr₂ ∧
      Exec R (service.handleMessage message encode).run w tr₁ (.ok (outcome, changes)) w₁ ∧
      Committed R changes.writes [] w₁ w' tr₂ (.ok ()) ∧ response = sent binary outcome := by
  unfold DmService.respond at h
  obtain ⟨handled, w₁, tr₁, tr₂, hhandle, hrest, rfl⟩ := Exec.bind_iff.mp h
  cases handled with
  | error e =>
    dsimp only at hrest
    cases hrefusal : DmService.refusal e with
    | some refused =>
      rw [hrefusal] at hrest
      obtain ⟨-, hresponse, -⟩ := Exec.result_iff.mp hrest
      obtain rfl := Except.ok.inj hresponse
      exact absurd h200 (DmService.refusal_status hrefusal)
    | none =>
      rw [hrefusal] at hrest
      obtain ⟨-, hresponse, -⟩ := Exec.result_iff.mp hrest
      cases hresponse
  | ok answer =>
    obtain ⟨outcome, changes⟩ := answer
    rcases Exec.bind_cases hrest with ⟨e, -, hr⟩ | ⟨_, w₂, tr₃, tr₄, hcommit, hend, rfl⟩
    · cases hr
    · obtain ⟨rfl, hresponse, rfl⟩ := Exec.pure_iff.mp hend
      obtain ⟨done, rest, hwrites, hcommitted⟩ := exec_writeAll hR hcommit
      -- as the message was answered, no write raised
      obtain rfl : rest = [] := by
        rcases hcommitted.result with ⟨hnil, -⟩ | ⟨-, e, he, -⟩
        · exact hnil
        · cases he
      rw [List.append_nil] at hwrites
      subst hwrites
      rw [List.append_nil]
      exact ⟨w₁, tr₁, tr₃, outcome, changes, rfl, hhandle, hcommitted, Except.ok.inj hresponse⟩

theorem handled_of_exec {answer : DmResponse × DmChanges}
    (h : Exec R (service.handleMessage message encode).run w tr (.ok answer) w') :
    (∀ e ∈ tr, e.1.Open ∨ e.1.IsRead ∧ service.Authenticates message w) ∧ Reads w w' ∧
      service.Handled message encode w w' (.ok answer) := by
  obtain ⟨hops, hreads, ⟨e, he, -⟩ | hhandled⟩ :=
    reading_handleMessage hR service message encode _ _ _ h
  · cases he
  · exact ⟨hops, hreads, hhandled⟩

end Respond
end Acs.Omadm
