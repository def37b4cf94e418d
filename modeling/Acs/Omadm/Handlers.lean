import Acs.Omadm.SessionSteps

/-! What each handler builds, answers and leaves to be written. -/

namespace Acs.Omadm.DmService
variable {service : DmService} {message : SyncMlMessage} {session : DmSession} {encode : Encoder}
  {changes changes' : DmChanges} {outcome : DmResponse} {device : Device} {body : Bytes}
  {queue : List Entry}

def counted (message : SyncMlMessage) (session : DmSession) : DmSession :=
  if session.phase ∈ ["configure", "done"] then recordFailures message session else session

@[simp] theorem counted_phase : (counted message session).phase = session.phase := by
  unfold counted
  split_ifs
  · rfl
  · rfl

@[simp] theorem counted_sessionId :
    (counted message session).sessionId = session.sessionId := by
  unfold counted
  split_ifs
  · rfl
  · rfl

/-- A message of the queue was built within the limit, and this is what is left of the queue. -/
structure Sends (service : DmService) (message : SyncMlMessage) (session : DmSession)
    (encode : Encoder) (header : String × Option (String × String)) (queue : List Entry)
    (required : Nat) (body : Bytes) (rest : List Entry) : Prop where
  fits : (body.length : Int) ≤ service.maxMsgSize message
  split : ∃ n tree, required ≤ n ∧ (required ≤ queue.length → n ≤ queue.length) ∧
    rest = queue.drop n ∧
    service.messageTree message session header (queue.take n) (n = queue.length) = .ok tree ∧
    service.encodeTree encode tree = .ok body

theorem nextMessage_sends {required : Nat} {header : String × Option (String × String)}
    {rest : List Entry}
    (h : service.nextMessage message session queue encode required header = .ok (body, rest)) :
    Sends service message session encode header queue required body rest := by
  obtain ⟨⟨body', n⟩, hfill, h⟩ := Except.bind_eq_ok.mp h
  obtain ⟨rfl, rfl⟩ : body' = body ∧ queue.drop n = rest := by simpa using h
  obtain ⟨hfitting, hrequired, hn⟩ := Package.fill_fitting hfill
  obtain ⟨tree, htree, hbody⟩ := Except.bind_eq_ok.mp hfitting.built
  exact ⟨hfitting.fits, n, tree, hrequired, hn, rfl, htree, hbody⟩

/-- The first message of a package, and the remainder to keep of it. -/
structure Starts (service : DmService) (message : SyncMlMessage) (session : DmSession)
    (encode : Encoder) (queue rest : List Entry) (body : Bytes)
    (pending : Option DmPendingPackage) : Prop where
  next : service.nextMessage message session queue encode (min 1 queue.length)
    (service.headerStatus session) = .ok (body, rest)
  none_of_nil : rest = [] → pending = none
  some_of_cons : rest ≠ [] → ∃ entries, Package.toStored rest = .ok entries ∧
    pending = some { sessionId := session.sessionId, phase := session.phase, entries
                     expiresAt := session.expiresAt }

theorem startPackage_starts {pending : Option DmPendingPackage} {remaining : Nat}
    (h : service.startPackage message session queue encode = .ok (body, pending, remaining)) :
    ∃ rest, Starts service message session encode queue rest body pending ∧
      remaining = rest.length := by
  obtain ⟨⟨body', rest⟩, hnext, h⟩ := Except.bind_eq_ok.mp h
  cases rest with
  | nil =>
    obtain ⟨rfl, rfl, rfl⟩ : body' = body ∧ none = pending ∧ 0 = remaining := by
      simpa using Except.ok.inj h
    exact ⟨[], ⟨hnext, fun _ => rfl, fun hne => absurd rfl hne⟩, rfl⟩
  | cons entry rest =>
    obtain ⟨entries, hentries, h⟩ := Except.bind_eq_ok.mp h
    obtain ⟨hbody, hpending, hremaining⟩ : body' = body ∧ _ = pending ∧ _ = remaining := by
      simpa using Except.ok.inj h
    subst hbody
    exact ⟨entry :: rest, ⟨hnext, fun hnil => (List.cons_ne_nil _ _ hnil).elim,
      fun _ => ⟨entries, hentries, hpending.symm⟩⟩, hremaining.symm⟩

theorem requestInventory_ok
    (h : service.requestInventory message session changes encode device =
      .ok (outcome, changes')) :
    ∃ rest body pending, Starts service message { session with phase := "devinfo" } encode
        (service.inventoryQueue message) rest body pending ∧
      outcome = { statusCode := 200, body, metric := "DmInventoryRequested"
                  detail := "get:" ++ toString service.tree.deviceQueryUris.length } ∧
      changes' = { changes with device := some device, pending
                                session := some { session with phase := "devinfo" } } := by
  obtain ⟨⟨body, pending, remaining⟩, hstart, h⟩ := Except.bind_eq_ok.mp h
  obtain ⟨rest, hstarts, -⟩ := startPackage_starts hstart
  obtain ⟨houtcome, hchanges⟩ := Prod.mk.inj (Except.ok.inj h)
  exact ⟨rest, body, pending, hstarts, houtcome.symm, hchanges.symm⟩

theorem pushConfiguration_ok {subscriber : Option Subscriber}
    (h : service.pushConfiguration message session changes encode device subscriber =
      .ok (outcome, changes')) :
    ∃ values rest body pending, service.configurationValues session subscriber = .ok values ∧
      Starts service message { session with phase := "configure" } encode
        (service.configurationQueue message values) rest body pending ∧
      outcome = { statusCode := 200, body, metric := "DmConfigPushed"
                  detail := "add:" ++
                    toString (service.tree.interiorNodesFor (values.map Item.uri)).length ++
                    " replace:" ++ toString values.length } ∧
      changes' = { changes with device := some device, pending
                                session := some { session with phase := "configure" } } := by
  obtain ⟨values, hvalues, h⟩ := Except.bind_eq_ok.mp h
  obtain ⟨⟨body, pending, remaining⟩, hstart, h⟩ := Except.bind_eq_ok.mp h
  obtain ⟨rest, hstarts, -⟩ := startPackage_starts hstart
  obtain ⟨houtcome, hchanges⟩ := Prod.mk.inj (Except.ok.inj h)
  have hvalues' : service.configurationValues session subscriber = .ok values := by
    cases hrendered : service.configurationValues session subscriber with
    | error e => simp [hrendered, Except.mapError] at hvalues
    | ok rendered =>
      rw [hrendered] at hvalues
      exact congrArg _ (Except.ok.inj hvalues)
  exact ⟨values, rest, body, pending, hvalues', hstarts, houtcome.symm, hchanges.symm⟩

theorem metric_close (body : Bytes) (session : DmSession) (changes : DmChanges) :
    (close body session changes).1.metric ∈
      ["DmSessionComplete", "DmSessionCompleteWithErrors"] := by
  unfold close
  split_ifs <;> simp

/-- What the start of a final package comes to: the session is closed unless some of it is left. -/
def Finishes (message : SyncMlMessage) (session : DmSession) (changes : DmChanges)
    (pending : Option DmPendingPackage) (body : Bytes) (rest : List Entry) (outcome : DmResponse)
    (changes' : DmChanges) : Prop :=
  rest ≠ [] ∧ outcome = continued body rest.length ∧
      changes' = { changes with
        pending, session := some { recordFailures message session with phase := "done" } } ∨
    rest = [] ∧ (outcome, changes') = close body
      { recordFailures message session with phase := "done" } { changes with pending }

section Finishes
variable {pending : Option DmPendingPackage} {bytes : Bytes} {rest : List Entry}

theorem Finishes.body_eq (h : Finishes message session changes pending bytes rest outcome changes') :
    outcome.body = bytes := by
  rcases h with ⟨-, rfl, -⟩ | ⟨-, hclose⟩
  · rfl
  · exact congrArg (·.1.body) hclose

theorem Finishes.status (h : Finishes message session changes pending bytes rest outcome changes') :
    outcome.statusCode = 200 := by
  rcases h with ⟨-, rfl, -⟩ | ⟨-, hclose⟩
  · rfl
  · exact congrArg (·.1.statusCode) hclose

end Finishes

theorem handleFinish_ok
    (h : service.handleFinish message session changes encode = .ok (outcome, changes')) :
    ∃ rest body pending, Starts service message { recordFailures message session with phase := "done" }
        encode (service.acks message) rest body pending ∧
      Finishes message session changes pending body rest outcome changes' := by
  obtain ⟨⟨body, pending, remaining⟩, hstart, h⟩ := Except.bind_eq_ok.mp h
  obtain ⟨rest, hstarts, hremaining⟩ := startPackage_starts hstart
  refine ⟨rest, body, pending, hstarts, ?_⟩
  subst hremaining
  dsimp only at h
  split_ifs at h with hrest
  · obtain ⟨houtcome, hchanges⟩ := Prod.mk.inj (Except.ok.inj h)
    refine Or.inl ⟨?_, houtcome.symm, hchanges.symm⟩
    rintro rfl
    exact hrest rfl
  · refine Or.inr ⟨?_, (Except.ok.inj h).symm⟩
    simpa using hrest

/-- What a continuation comes to, by what its message leaves: the session is closed, or its package
is done with, or more of that is left. -/
def Continues (message : SyncMlMessage) (session : DmSession) (changes : DmChanges)
    (device : Device) (pending : DmPendingPackage) (body : Bytes) (rest : List Entry)
    (outcome : DmResponse) (changes' : DmChanges) : Prop :=
  rest = [] ∧ session.phase = "done" ∧
      (outcome, changes') = close body (counted message session)
        { changes with device := some device, progressInRemainder := true
                       deletePendingId := session.sessionId } ∨
    rest = [] ∧ session.phase ≠ "done" ∧ outcome = continued body 0 ∧
      changes' = { changes with
        device := some device, progressInRemainder := true
        deletePendingId := session.sessionId, session := some (counted message session) } ∨
    rest ≠ [] ∧ outcome = continued body rest.length ∧
      ∃ entries, Package.toStored rest = .ok entries ∧ changes' = { changes with
        device := some device, progressInRemainder := true
        pending := some { pending with entries, messages := pending.messages + 1 }
        session := some (counted message session) }

section Continues
variable {pending : DmPendingPackage} {bytes : Bytes} {rest : List Entry}

theorem Continues.body_eq (h : Continues message session changes device pending bytes rest outcome
    changes') : outcome.body = bytes := by
  rcases h with ⟨-, -, hclose⟩ | ⟨-, -, rfl, -⟩ | ⟨-, rfl, -⟩
  · exact congrArg (·.1.body) hclose
  · rfl
  · rfl

theorem Continues.status (h : Continues message session changes device pending bytes rest outcome
    changes') : outcome.statusCode = 200 := by
  rcases h with ⟨-, -, hclose⟩ | ⟨-, -, rfl, -⟩ | ⟨-, rfl, -⟩
  · exact congrArg (·.1.statusCode) hclose
  · rfl
  · rfl

theorem Continues.metric_ne (h : Continues message session changes device pending bytes rest outcome
    changes') : outcome.metric ≠ "DmConfigPushed" := by
  rcases h with ⟨-, -, hclose⟩ | ⟨-, -, rfl, -⟩ | ⟨-, rfl, -⟩
  · rw [(Prod.mk.inj hclose).1]
    show (if _ then _ else _) ≠ _
    split_ifs <;> decide
  · show "DmPackageContinued" ≠ _
    decide
  · show "DmPackageContinued" ≠ _
    decide

end Continues

theorem sendNext_ok {pending : DmPendingPackage}
    (h : service.sendNext message session pending changes encode device =
      .ok (outcome, changes')) :
    ∃ unsent body rest, Package.fromStored pending.entries = .ok unsent ∧
      service.nextMessage message (counted message session) (service.acks message ++ unsent) encode
        ((service.acks message).length + 1) (service.headerStatus (counted message session)) =
          .ok (body, rest) ∧
      Continues message session changes device pending body rest outcome changes' := by
  obtain ⟨unsent, hunsent, h⟩ := Except.bind_eq_ok.mp h
  obtain ⟨⟨body, rest⟩, hnext, h⟩ := Except.bind_eq_ok.mp h
  refine ⟨unsent, body, rest, hunsent, hnext, ?_⟩
  cases rest with
  | nil =>
    change (if (counted message session).phase = "done" then
        Except.ok (close body (counted message session)
          { changes with device := some device, progressInRemainder := true
                         deletePendingId := (counted message session).sessionId })
      else Except.ok (continued body 0, { changes with
          device := some device, progressInRemainder := true
          deletePendingId := (counted message session).sessionId
          session := some (counted message session) })) = Except.ok (outcome, changes') at h
    rw [counted_phase, counted_sessionId] at h
    split_ifs at h with hdone
    · exact Or.inl ⟨rfl, hdone, (Except.ok.inj h).symm⟩
    · obtain ⟨houtcome, hchanges⟩ := Prod.mk.inj (Except.ok.inj h)
      exact Or.inr (Or.inl ⟨rfl, hdone, houtcome.symm, hchanges.symm⟩)
  | cons entry rest =>
    obtain ⟨entries, hentries, h⟩ := Except.bind_eq_ok.mp h
    obtain ⟨houtcome, hchanges⟩ := Prod.mk.inj (Except.ok.inj h)
    exact Or.inr (Or.inr ⟨List.cons_ne_nil _ _, houtcome.symm, entries, hentries, hchanges.symm⟩)

theorem endSession_ok {metric detail : String}
    (h : service.endSession message session changes encode metric detail =
      .ok (outcome, changes')) :
    ∃ body, service.nextMessage message session (service.acks message) encode
        (service.acks message).length (service.headerStatus session) = .ok (body, []) ∧
      outcome = { statusCode := 200, body, metric, detail, sessionFinished := true } ∧
      changes' = { changes with deleteSessionId := session.sessionId } := by
  obtain ⟨body, hlast, h⟩ := Except.bind_eq_ok.mp h
  obtain ⟨⟨body', rest⟩, hnext, hbody⟩ := Except.bind_eq_ok.mp hlast
  obtain rfl := Except.ok.inj hbody
  obtain ⟨houtcome, hchanges⟩ := Prod.mk.inj (Except.ok.inj h)
  obtain ⟨n, -, hrequired, -, rfl, -, -⟩ := (nextMessage_sends hnext).split
  have hnil : (service.acks message).drop n = [] := List.drop_eq_nil_of_le hrequired
  rw [hnil] at hnext
  exact ⟨body', hnext, houtcome.symm, hchanges.symm⟩

theorem rejectMessage_ok {reason nonce : String}
    (h : service.rejectMessage message session reason nonce encode = .ok (outcome, changes')) :
    ∃ body rest, service.nextMessage message { session with nonce, authenticated := false } []
        encode 0 (if reason = "missing_credentials" then statusMissingCredentials
          else statusInvalidCredentials,
          some (if service.settings.dmAuthScheme = .md5 then authMd5 else authBasic, nonce)) =
        .ok (body, rest) ∧
      outcome = { statusCode := 200, body, metric := "DmAuthRejected", detail := reason } ∧
      changes' = { session := some { session with nonce, authenticated := false } } := by
  obtain ⟨response, hresponse, h⟩ := Except.bind_eq_ok.mp h
  obtain ⟨houtcome, hchanges⟩ := Prod.mk.inj (Except.ok.inj h)
  unfold unauthorised at hresponse
  dsimp only at hresponse
  split at hresponse
  · cases hresponse
  · cases hresponse
  · rename_i body rest hnext
    exact ⟨body, rest, hnext, houtcome.symm.trans (Except.ok.inj hresponse).symm, hchanges.symm⟩

theorem refusal_status {e : DmError} {response : DmResponse} (h : refusal e = some response) :
    response.statusCode ≠ 200 := by
  cases e <;> simp only [refusal, Option.some.injEq, reduceCtorEq] at h <;> subst h <;> decide

theorem refusal_contentType {e : DmError} {response : DmResponse}
    (h : refusal e = some response) : response.contentType = contentTypeXml := by
  cases e <;> simp only [refusal, Option.some.injEq, reduceCtorEq] at h <;> subst h <;> rfl

theorem refusal_body {e : DmError} {response : DmResponse} (h : refusal e = some response) :
    response.body = [] := by
  cases e <;> simp only [refusal, Option.some.injEq, reduceCtorEq] at h <;> subst h <;> rfl

def Ongoing (message : SyncMlMessage) : Prop :=
  message.hasAlert alertSessionAbort = false ∧ message.hasAlert alertEndOfSession = false

/-- What an accepted message is answered and what is then to be written, handler by handler. -/
inductive Answers (service : DmService) (message : SyncMlMessage) (session : DmSession)
    (encode : Encoder) (pending : Option DmPendingPackage) (changes : DmChanges)
    (subscribers : String → Option Subscriber) (device : Device) :
    DmResponse → DmChanges → Prop
  | ended (metric detail : String) (body : Bytes) : ¬ Ongoing message →
    service.nextMessage message session (service.acks message) encode
      (service.acks message).length (service.headerStatus session) = .ok (body, []) →
    metric ∈ ["DmSessionAborted", "DmSessionEnded"] →
    Answers service message session encode pending changes subscribers device
      { statusCode := 200, body, metric, detail, sessionFinished := true }
      { changes with deleteSessionId := session.sessionId }
  | tooManyMessages (p : DmPendingPackage) : Ongoing message → pending = some p →
    Package.maxMessagesPerPackage ≤ p.messages →
    Answers service message session encode pending changes subscribers device
      { statusCode := 413, metric := "DmTooLarge", detail := "too_many_messages"
        sessionFinished := true } { changes with deleteSessionId := session.sessionId }
  | continued (p : DmPendingPackage) (outcome : DmResponse) (changes' : DmChanges) :
    Ongoing message → pending = some p → p.messages < Package.maxMessagesPerPackage →
    service.sendNext message session p changes encode device = .ok (outcome, changes') →
    Answers service message session encode pending changes subscribers device outcome changes'
  | noAlert : Ongoing message → pending = none → session.phase = "init" →
    Answers service message session encode pending changes subscribers device
      { statusCode := 400, metric := "DmProtocolError"
        detail := "first package must carry Alert 1200 or 1201" } changes
  | inventory (outcome : DmResponse) (changes' : DmChanges) : Ongoing message → pending = none →
    session.phase = "init" →
    service.requestInventory message session changes encode device = .ok (outcome, changes') →
    Answers service message session encode pending changes subscribers device outcome changes'
  | configuration (outcome : DmResponse) (changes' : DmChanges) : Ongoing message →
    pending = none → session.phase = "devinfo" →
    service.pushConfiguration message session changes encode device
      (ownSubscriber session subscribers) = .ok (outcome, changes') →
    Answers service message session encode pending changes subscribers device outcome changes'
  | finish (outcome : DmResponse) (changes' : DmChanges) : Ongoing message → pending = none →
    session.phase ≠ "init" → session.phase ≠ "devinfo" →
    service.handleFinish message session changes encode = .ok (outcome, changes') →
    Answers service message session encode pending changes subscribers device outcome changes'

theorem answer_answers {pending : Option DmPendingPackage}
    {subscribers : String → Option Subscriber}
    (h : service.answer message session encode pending changes subscribers device =
      .ok (outcome, changes')) :
    Answers service message session encode pending changes subscribers device outcome changes' := by
  unfold answer at h
  by_cases habort : message.hasAlert alertSessionAbort = true
  · rw [if_pos habort] at h
    obtain ⟨body, hnext, rfl, rfl⟩ := endSession_ok h
    exact .ended _ _ body (fun hongoing => by simp [hongoing.1] at habort) hnext (by simp)
  · by_cases hend : message.hasAlert alertEndOfSession = true
    · rw [if_neg habort, if_pos hend] at h
      obtain ⟨body, hnext, rfl, rfl⟩ := endSession_ok h
      exact .ended _ _ body (fun hongoing => by simp [hongoing.2] at hend) hnext (by simp)
    · have hongoing : Ongoing message := ⟨by simpa using habort, by simpa using hend⟩
      rw [if_neg habort, if_neg hend] at h
      cases pending with
      | some p =>
        dsimp only at h
        split_ifs at h with hmany
        · obtain ⟨rfl, rfl⟩ := Prod.mk.inj (Except.ok.inj h)
          exact .tooManyMessages p hongoing rfl hmany
        · exact .continued p _ _ hongoing rfl (by omega) h
      | none =>
        dsimp only at h
        by_cases hinit : session.phase = "init"
        · rw [if_pos hinit] at h
          split_ifs at h
          · obtain ⟨rfl, rfl⟩ := Prod.mk.inj (Except.ok.inj h)
            exact .noAlert hongoing rfl hinit
          · exact .inventory _ _ hongoing rfl hinit h
        · by_cases hdevinfo : session.phase = "devinfo"
          · rw [if_neg hinit, if_pos hdevinfo] at h
            exact .configuration _ _ hongoing rfl hdevinfo h
          · rw [if_neg hinit, if_neg hdevinfo] at h
            exact .finish _ _ hongoing rfl hinit hdevinfo h

end Acs.Omadm.DmService
