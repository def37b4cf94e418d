import Acs.Omadm.Rejections

/-! What a message that fails authentication tells of whether the user it names exists. -/

namespace Acs.Omadm
open Interleave

/-- What the sender of a message sees of an answer. -/
def answerOf (r : Except DmError DmResponse) : Except DmError (Nat × Bytes × String) :=
  r.map fun response => (response.statusCode, response.body, response.contentType)

def seen (run : Except DmError DmResponse × Forecast) :
    Except DmError (Nat × Bytes × String) × (String → Option DmSession) :=
  (answerOf run.1, run.2.world.store.dmSessions)

/-- Two stores that a request does not tell apart, whatever is drawn and however long it takes. -/
def Indistinguishable (service : DmService) (payload : Bytes) (contentType : String)
    (w w' : World) : Prop :=
  ∀ ahead, seen (service.foresee payload contentType ⟨w, ahead⟩) =
    seen (service.foresee payload contentType ⟨w', ahead⟩)

def replyOf (r : Except DmError (DmResponse × DmChanges)) :
    Except DmError (Nat × Bytes × Option DmSession) :=
  match r with
  | .ok (outcome, changes) => .ok (outcome.statusCode, outcome.body, changes.session)
  | .error e =>
    match DmService.refusal e with
    | some response => .ok (response.statusCode, response.body, none)
    | none => .error e

namespace DmService
variable {service : DmService} {message : SyncMlMessage} {encode : Encoder}

def md5User (message : SyncMlMessage) (session : DmSession) : String :=
  orText message.header.sourceName session.imsi

/-- How a challenge comes out. -/
inductive Challenge
  | sent
  | tooLarge
  | unencoded
  | raised (e : PyError)

/-- The message that challenges with a nonce: it is sent if it can be encoded and fits. -/
def challenge (service : DmService) (message : SyncMlMessage) (session : DmSession)
    (encode : Encoder) (nonce : String) : Challenge :=
  let scheme := if service.settings.dmAuthScheme = .md5 then authMd5 else authBasic
  let header := (statusInvalidCredentials, some (scheme, nonce))
  match service.messageTree message session header [] true >>= service.encodeTree encode with
  | .ok body => if (body.length : Int) ≤ service.maxMsgSize message then .sent else .tooLarge
  | .error (.py e) => .raised e
  | .error _ => .unencoded

/-- An `auth-md5` credential for a session with a nonce, of a user with a password in one store and
none in the other: the challenge draws a fresh nonce in one and repeats the old one in the other,
which shows if it can be sent, or fails with one nonce otherwise than with the other. -/
def Tells (service : DmService) (message : SyncMlMessage) (encode : Encoder) (w w' : World) :
    Prop :=
  (message.header.sessionId ≠ "" ∧ message.header.msgId ≠ "") ∧
  ∃ session c nonce, service.Loads message w session ∧ message.header.credentials = some c ∧
    c.type = authMd5 ∧ c.data ≠ "" ∧ session.nonce ≠ "" ∧
    (passwordOf w.store.subscribers (md5User message session)).isSome ≠
      (passwordOf w'.store.subscribers (md5User message session)).isSome ∧
    (challenge service message session encode nonce = .sent ∨
      challenge service message session encode nonce ≠
        challenge service message session encode session.nonce)

/-! ### The reply to a challenge -/

theorem fill_zero (build : Nat → Except DmError Bytes) (limit : Int) :
    Package.fill build limit 0 0 = build 0 >>= fun body =>
      if (body.length : Int) ≤ limit then .ok (body, 0)
      else .error (.messageTooLarge body.length limit) := by
  unfold Package.fill Package.search
  rw [if_neg (Nat.lt_irrefl 0)]
  congr 1
  funext body
  by_cases hfits : (body.length : Int) ≤ limit
  · rw [if_neg (by simpa [Package.fits] using hfits), if_pos hfits]
    rfl
  · rw [if_pos (by simpa [Package.fits] using hfits), if_neg hfits]

section Reply
variable {session : DmSession}

def opening (service : DmService) (message : SyncMlMessage) (session : DmSession)
    (encode : Encoder) (header : String × Option (String × String)) : Except DmError Bytes :=
  service.messageTree message session header [] true >>= service.encodeTree encode

theorem nextMessage_nil (header : String × Option (String × String)) :
    service.nextMessage message session [] encode 0 header =
      opening service message session encode header >>= fun body =>
        if (body.length : Int) ≤ service.maxMsgSize message then .ok (body, [])
        else .error (.messageTooLarge body.length (service.maxMsgSize message)) := by
  unfold nextMessage
  dsimp only [List.length_nil]
  rw [fill_zero]
  change (opening service message session encode header >>= _) >>= _ = _
  rw [bind_assoc]
  congr 1
  funext body
  split_ifs
  · rfl
  · rfl

theorem encodeTree_error {tree : Xml.Element} {e : DmError}
    (h : service.encodeTree encode tree = .error e) :
    (∃ e', e = .py e') ∨ ∃ detail, e = .wbxml detail := by
  unfold encodeTree at h
  cases hxml : service.tostring tree with
  | error e' =>
    rw [hxml] at h
    exact Or.inl ⟨e', (Except.error.inj h).symm⟩
  | ok xml =>
    rw [hxml] at h
    change (encode xml).mapError DmError.wbxml = _ at h
    cases hbody : encode xml with
    | error detail =>
      rw [hbody] at h
      exact Or.inr ⟨detail, (Except.error.inj h).symm⟩
    | ok body =>
      rw [hbody] at h
      cases h

theorem opening_error {header : String × Option (String × String)} {e : DmError}
    (h : opening service message session encode header = .error e) :
    (∃ e', e = .py e') ∨ ∃ detail, e = .wbxml detail := by
  unfold opening messageTree newBuilder at h
  cases hnumber : service.msgNumber message.header.msgId 1 with
  | ok number =>
    rw [hnumber] at h
    exact encodeTree_error h
  | error e' =>
    rw [hnumber] at h
    obtain rfl := Except.error.inj h
    unfold msgNumber at hnumber
    split_ifs at hnumber
    split at hnumber
    · cases hnumber
    · exact Or.inl ⟨_, (Except.error.inj hnumber).symm⟩

def Replied (session : DmSession) (nonce : String)
    (reply : Except DmError (Nat × Bytes × Option DmSession)) : Challenge → Prop
  | .sent => ∃ body, reply = .ok (200, body, some { session with nonce, authenticated := false })
  | .tooLarge => reply = .ok (400, [], none)
  | .unencoded => reply = .ok (500, [], none)
  | .raised e => reply = .error (.py e)

theorem replied_challenge (session : DmSession) (nonce : String) :
    Replied session nonce (replyOf (service.rejectMessage message session "invalid" nonce encode))
      (challenge service message session encode nonce) := by
  unfold rejectMessage unauthorised challenge
  dsimp only
  rw [if_neg (show ¬ "invalid" = "missing_credentials" by decide)]
  generalize hheader : (statusInvalidCredentials,
    some (if service.settings.dmAuthScheme = .md5 then authMd5 else authBasic, nonce)) = header
  have hopening : opening service message { session with nonce, authenticated := false } encode
      header = service.messageTree message session header [] true >>= service.encodeTree encode := rfl
  rw [nextMessage_nil, hopening]
  cases hbuilt : service.messageTree message session header [] true >>=
      service.encodeTree encode with
  | error e =>
    rcases opening_error hbuilt with ⟨e', rfl⟩ | ⟨detail, rfl⟩
    · rfl
    · rfl
  | ok body =>
    rw [show ∀ f : Bytes → Except DmError (Bytes × List Entry), (Except.ok body >>= f) = f body
      from fun _ => rfl]
    by_cases hfits : (body.length : Int) ≤ service.maxMsgSize message
    · rw [if_pos hfits]
      dsimp only
      rw [if_pos hfits]
      exact ⟨body, rfl⟩
    · rw [if_neg hfits]
      dsimp only
      rw [if_neg hfits]
      rfl

def Challenge.code : Challenge → Except DmError Nat
  | .sent => .ok 200
  | .tooLarge => .ok 400
  | .unencoded => .ok 500
  | .raised e => .error (.py e)

theorem Challenge.code_injective : Function.Injective Challenge.code := by
  intro c c' h
  cases c <;> cases c' <;> simp_all [Challenge.code]

section Replies
variable {nonce nonce' : String} {c c' : Challenge}
  {reply reply' : Except DmError (Nat × Bytes × Option DmSession)}

theorem Replied.code (h : Replied session nonce reply c) : reply.map Prod.fst = c.code := by
  cases c with
  | sent =>
    obtain ⟨body, rfl⟩ := h
    rfl
  | tooLarge =>
    obtain rfl := h
    rfl
  | unencoded =>
    obtain rfl := h
    rfl
  | raised e =>
    obtain rfl := h
    rfl

theorem Replied.unique (h : Replied session nonce reply c)
    (h' : Replied session nonce' reply c') : c = c' := by
  apply Challenge.code_injective
  rw [← h.code, ← h'.code]

/-- Only a challenge that is sent carries the nonce. -/
theorem Replied.reply_eq (hc : c ≠ .sent) (h : Replied session nonce reply c)
    (h' : Replied session nonce' reply' c) : reply = reply' := by
  cases c with
  | sent => exact absurd rfl hc
  | tooLarge => exact h.trans h'.symm
  | unencoded => exact h.trans h'.symm
  | raised e => exact h.trans h'.symm

theorem Replied.nonce_eq (h : Replied session nonce reply .sent)
    (h' : Replied session nonce' reply .sent) : nonce = nonce' := by
  obtain ⟨body, h⟩ := h
  obtain ⟨body', h'⟩ := h'
  obtain ⟨-, hrest⟩ := Prod.mk.inj (Except.ok.inj (h.symm.trans h'))
  exact congrArg DmSession.nonce (Option.some.inj (Prod.mk.inj hrest).2)

end Replies

theorem replyOf_ne_iff (session : DmSession) :
    (∃ nonce, replyOf (service.rejectMessage message session "invalid" nonce encode) ≠
      replyOf (service.rejectMessage message session "invalid" session.nonce encode)) ↔
    ∃ nonce, challenge service message session encode nonce = .sent ∨
      challenge service message session encode nonce ≠
        challenge service message session encode session.nonce := by
  have hreplied : ∀ nonce, Replied session nonce
      (replyOf (service.rejectMessage message session "invalid" nonce encode))
      (challenge service message session encode nonce) := replied_challenge session
  constructor
  · rintro ⟨nonce, hne⟩
    refine ⟨nonce, ?_⟩
    by_contra hsame
    obtain ⟨hunsent, hsame⟩ := not_or.mp hsame
    have hnonce := hreplied nonce
    rw [not_not.mp hsame] at hunsent hnonce
    exact hne (hnonce.reply_eq hunsent (hreplied session.nonce))
  · rintro ⟨nonce, hshows⟩
    by_contra hnever
    have hall : ∀ nonce, replyOf (service.rejectMessage message session "invalid" nonce encode) =
        replyOf (service.rejectMessage message session "invalid" session.nonce encode) :=
      fun nonce => not_not.mp (not_exists.mp hnever nonce)
    have hnonce := hreplied nonce
    rw [hall nonce] at hnonce
    rcases hshows with hsent | hne
    · -- with another nonce it would be sent too, and leave that nonce in the session
      have hother := hreplied (nonce ++ "x")
      rw [hall (nonce ++ "x")] at hother
      rw [hnonce.unique hother] at hsent
      rw [hsent] at hother
      rw [hother.unique hnonce |>.symm] at hnonce
      have hlength := congrArg String.length (hnonce.nonce_eq hother)
      simp at hlength
    · exact hne (hnonce.unique (hreplied session.nonce))

end Reply

theorem passwordOf_ne {subscribers : String → Option Subscriber} {username p : String}
    (h : passwordOf subscribers username = some p) : p ≠ "" := by
  unfold passwordOf at h
  split_ifs at h
  obtain ⟨s, -, h⟩ := Option.bind_eq_some_iff.mp h
  split_ifs at h with hp
  obtain rfl := Option.some.inj h
  exact hp

theorem authenticate_rejected {crypto : DmCrypto} {credentials : Option Credentials}
    {expected expected' : Option String} {reason reason' : String}
    {k k' : Auth.ChallengeNonce}
    (h : Auth.authenticate crypto credentials expected = .rejected reason k)
    (h' : Auth.authenticate crypto credentials expected' = .rejected reason' k') :
    reason = reason' ∧ k = k' := by
  have hinvalid : ∀ {c : Credentials} {decoded : String × String} {expected : Option String}
      {reason : String} {k : Auth.ChallengeNonce}, c.data ≠ "" → c.type = authBasic →
      Auth.decodeBasic crypto c = some decoded →
      Auth.authenticate crypto (some c) expected = .rejected reason k →
      reason = "invalid" ∧ k = .keep := by
    intro c decoded expected reason k hdata htype hdecoded h
    simp only [Auth.authenticate, if_neg hdata, if_pos htype, hdecoded] at h
    cases expected with
    | none =>
      obtain ⟨rfl, rfl⟩ := Auth.Verdict.rejected.inj h
      exact ⟨rfl, rfl⟩
    | some p =>
      dsimp only at h
      split_ifs at h
      obtain ⟨rfl, rfl⟩ := Auth.Verdict.rejected.inj h
      exact ⟨rfl, rfl⟩
  have horiginal := h
  have horiginal' := h'
  unfold Auth.authenticate at h h'
  cases credentials with
  | none => exact Auth.Verdict.rejected.inj (h.symm.trans h')
  | some c =>
    dsimp only at h h'
    split_ifs at h h' with hdata htype
    · exact Auth.Verdict.rejected.inj (h.symm.trans h')
    · cases hdecoded : Auth.decodeBasic crypto c with
      | none =>
        rw [hdecoded] at h h'
        exact Auth.Verdict.rejected.inj (h.symm.trans h')
      | some decoded =>
        obtain ⟨rfl, rfl⟩ := hinvalid hdata htype hdecoded horiginal
        obtain ⟨rfl, rfl⟩ := hinvalid hdata htype hdecoded horiginal'
        exact ⟨rfl, rfl⟩
    · exact Auth.Verdict.rejected.inj (h.symm.trans h')
    · exact Auth.Verdict.rejected.inj (h.symm.trans h')

theorem authenticateMd5_rejected {py : PyText} {crypto : DmCrypto} {c : Credentials}
    {username nonce reason : String} {expected : Option String} {k : Auth.ChallengeNonce}
    (htype : c.type = authMd5) (hne : ∀ p, expected = some p → p ≠ "")
    (h : Auth.authenticateMd5 py crypto c username expected nonce = .rejected reason k) :
    c.data = "" ∧ reason = "missing_credentials" ∧ k = .keep ∨
      c.data ≠ "" ∧ reason = "invalid" ∧
        (k = .fresh ∧ expected.isSome = true ∧ nonce ≠ "" ∨
          k = .keep ∧ (expected.isSome = false ∨ nonce = "")) := by
  unfold Auth.authenticateMd5 at h
  by_cases hdata : c.data = ""
  · rw [if_pos (Or.inl hdata)] at h
    obtain ⟨rfl, rfl⟩ := Auth.Verdict.rejected.inj h
    exact Or.inl ⟨hdata, rfl, rfl⟩
  · rw [if_neg (by simp [hdata, htype])] at h
    right
    refine ⟨hdata, ?_⟩
    cases expected with
    | none =>
      obtain ⟨rfl, rfl⟩ := Auth.Verdict.rejected.inj h
      exact ⟨rfl, Or.inr ⟨rfl, Or.inl rfl⟩⟩
    | some p =>
      dsimp only at h
      split_ifs at h with hempty hdigest
      · obtain ⟨rfl, rfl⟩ := Auth.Verdict.rejected.inj h
        exact ⟨rfl, Or.inr ⟨rfl, Or.inr (hempty.resolve_left (hne p rfl))⟩⟩
      · obtain ⟨rfl, rfl⟩ := Auth.Verdict.rejected.inj h
        exact ⟨rfl, Or.inl ⟨rfl, rfl, fun hnonce => hempty (Or.inr hnonce)⟩⟩

/-- Two rejections of one message have one reason, and differ in the nonce only as `Tells` says. -/
theorem verdict_rejected {session : DmSession} {subs subs' : String → Option Subscriber}
    {reason reason' : String} {k k' : Auth.ChallengeNonce}
    (h : service.verdict message session subs = .rejected reason k)
    (h' : service.verdict message session subs' = .rejected reason' k') :
    reason = reason' ∧ (k = k' ∨
      ∃ c, message.header.credentials = some c ∧ c.type = authMd5 ∧ c.data ≠ "" ∧
        session.nonce ≠ "" ∧ reason = "invalid" ∧ (k = .keep ↔ k' = .fresh) ∧
        (passwordOf subs (md5User message session)).isSome ≠
          (passwordOf subs' (md5User message session)).isSome) := by
  unfold verdict at h h'
  dsimp only at h h'
  split_ifs at h h'
  · cases h
  · cases hmd5 : message.header.credentials.filter (·.type = authMd5) with
    | none =>
      rw [hmd5] at h h'
      obtain ⟨rfl, rfl⟩ := authenticate_rejected h h'
      exact ⟨rfl, Or.inl rfl⟩
    | some c =>
      obtain ⟨hc, htype⟩ := Option.filter_eq_some_iff.mp hmd5
      rw [hmd5] at h h'
      have htype' : c.type = authMd5 := by simpa using htype
      rcases authenticateMd5_rejected htype' (fun p => passwordOf_ne) h with
        ⟨hdata, rfl, rfl⟩ | ⟨hdata, rfl, hk⟩
      · rcases authenticateMd5_rejected htype' (fun p => passwordOf_ne) h' with
          ⟨-, rfl, rfl⟩ | ⟨hdata', -⟩
        · exact ⟨rfl, Or.inl rfl⟩
        · exact absurd hdata hdata'
      · rcases authenticateMd5_rejected htype' (fun p => passwordOf_ne) h' with
          ⟨hdata', -⟩ | ⟨-, rfl, hk'⟩
        · exact absurd hdata' hdata
        · refine ⟨rfl, ?_⟩
          -- they differ where the user has a password in one store and none in the other
          rcases hk with ⟨rfl, hsome, hnonce⟩ | ⟨rfl, hnone⟩
          · rcases hk' with ⟨rfl, -, -⟩ | ⟨rfl, hnone'⟩
            · exact Or.inl rfl
            · refine Or.inr ⟨c, hc, htype', hdata, hnonce, rfl, by simp, ?_⟩
              rw [md5User, hsome, hnone'.resolve_right hnonce]
              decide
          · rcases hk' with ⟨rfl, hsome', hnonce⟩ | ⟨rfl, -⟩
            · refine Or.inr ⟨c, hc, htype', hdata, hnonce, rfl, by simp, ?_⟩
              rw [md5User, hsome', hnone.resolve_right hnonce]
              decide
            · exact Or.inl rfl

/-! ### What is not told -/

theorem kinship_eq : Kinship service (fun s t => s = t) where
  refl _ := rfl
  face s t h := by rw [h]
  opened s t header h := by rw [h]
  rejected s t nonce h := by rw [h]

section Stores
variable {subs subs' : String → Option Subscriber} {f f' : Forecast}

abbrev Twins (subs subs' : String → Option Subscriber) : Forecast → Forecast → Prop :=
  Alike (fun s t => s = t) subs subs'

theorem twins_of_sessions {w w' : World} (hclock : w.clock = w'.clock)
    (hsessions : w.store.dmSessions = w'.store.dmSessions) (ahead : List Moment) :
    Twins w.store.subscribers w'.store.subscribers ⟨w, ahead⟩ ⟨w', ahead⟩ where
  clock := hclock
  ahead := rfl
  subscribers := rfl
  subscribers' := rfl
  sessions id := by
    rw [hsessions]
    cases w'.store.dmSessions id with
    | none => exact .none
    | some s => exact .some rfl

theorem Twins.sessions_eq (h : Twins subs subs' f f') :
    f.world.store.dmSessions = f'.world.store.dmSessions := by
  funext id
  have hid := h.sessions id
  generalize f.world.store.dmSessions id = found at hid ⊢
  generalize f'.world.store.dmSessions id = found' at hid ⊢
  cases hid with
  | none => rfl
  | some h => rw [h]

/-- Handling a message comes to the same reply, or to exceptions that are answered alike. -/
def Unmoved (subs subs' : String → Option Subscriber)
    (run run' : Except DmError (DmResponse × DmChanges) × Forecast) : Prop :=
  Agreed (SameReply fun s t => s = t) run.1 run'.1 ∧ Twins subs subs' run.2 run'.2 ∨
    ∃ e e', run.1 = .error e ∧ run'.1 = .error e' ∧
      replyOf (.error e) = replyOf (.error e') ∧
      run.2.world.store.dmSessions = run'.2.world.store.dmSessions

def refused (e : DmError) : Except DmError DmResponse :=
  match refusal e with
  | some response => .ok response
  | none => .error e

theorem answerOf_refused (e : DmError) : answerOf (refused e) =
    (replyOf (.error e)).map fun reply => (reply.1, reply.2.1, contentTypeXml) := by
  unfold answerOf refused replyOf
  dsimp only
  cases he : refusal e with
  | none => rfl
  | some response => simp only [Except.map, refusal_contentType he]

theorem replyOf_error (e : DmError) : replyOf (.error e) =
    (answerOf (refused e)).map fun answer => (answer.1, answer.2.1, none) := by
  unfold answerOf refused replyOf
  dsimp only
  cases refusal e with
  | none => rfl
  | some response => rfl

theorem answerOf_refused_iff {e e' : DmError} :
    answerOf (refused e) = answerOf (refused e') ↔ replyOf (.error e) = replyOf (.error e') := by
  constructor
  · intro h
    rw [replyOf_error, h, replyOf_error]
  · intro h
    rw [answerOf_refused, h, answerOf_refused]

theorem answerOf_sent_ne {outcome : DmResponse} (h : outcome.statusCode = 200) (binary : Bool)
    (e : DmError) : answerOf (.ok (sent binary outcome)) ≠ answerOf (refused e) := by
  intro heq
  unfold refused answerOf at heq
  cases he : refusal e with
  | none =>
    rw [he] at heq
    cases heq
  | some response =>
    rw [he] at heq
    obtain ⟨hcode, -⟩ := Prod.mk.inj (Except.ok.inj heq)
    rw [sent_statusCode, h] at hcode
    exact refusal_status he hcode.symm

theorem eval_respond_error {binary : Bool} {e : DmError}
    (h : ((service.handleMessage message encode).run.eval DmOp.foresee f).1 = .error e) :
    (service.respond message binary encode).run.eval DmOp.foresee f =
      (refused e, ((service.handleMessage message encode).run.eval DmOp.foresee f).2) := by
  unfold respond refused
  change (_ >>= _ : Program DmOp DmOp.Answer _).eval DmOp.foresee f = _
  rw [Program.eval_bind, h]
  dsimp only
  cases refusal e with
  | none => rfl
  | some response => rfl

theorem seen_of_unmoved {binary : Bool}
    (h : Unmoved subs subs' ((service.handleMessage message encode).run.eval DmOp.foresee f)
      ((service.handleMessage message encode).run.eval DmOp.foresee f')) :
    seen ((service.respond message binary encode).run.eval DmOp.foresee f) =
      seen ((service.respond message binary encode).run.eval DmOp.foresee f') := by
  rcases h with h | ⟨e, e', he, he', hreply, hsessions⟩
  · have hK : Kinship service (fun s t => s = t) := kinship_eq
    obtain ⟨hanswer, htwins⟩ := coupled_respond hK binary h
    unfold seen
    rw [hanswer, Twins.sessions_eq htwins]
  · rw [eval_respond_error he, eval_respond_error he']
    unfold seen
    rw [answerOf_refused_iff.mpr hreply, hsessions]

theorem rejectMessage_error {session : DmSession} {reason : String}
    (h : ∀ nonce, replyOf (service.rejectMessage message session reason nonce encode) =
      replyOf (service.rejectMessage message session reason session.nonce encode))
    (nonce : String) : ∃ e, service.rejectMessage message session reason nonce encode = .error e := by
  have hstored : ∀ nonce outcome changes,
      service.rejectMessage message session reason nonce encode = .ok (outcome, changes) →
      changes.session = some { session with nonce, authenticated := false } := by
    intro nonce outcome changes hok
    obtain ⟨_, _, -, -, rfl⟩ := rejectMessage_ok hok
    rfl
  cases hreply : service.rejectMessage message session reason nonce encode with
  | error e => exact ⟨e, rfl⟩
  | ok answer =>
    obtain ⟨outcome, changes⟩ := answer
    have hother := (h (nonce ++ "x")).trans (h nonce).symm
    rw [hreply] at hother
    have hchanges := hstored _ _ _ hreply
    cases hreply' : service.rejectMessage message session reason (nonce ++ "x") encode with
    | error e =>
      rw [hreply'] at hother
      unfold replyOf at hother
      dsimp only at hother
      rw [hchanges] at hother
      cases he : refusal e with
      | none =>
        rw [he] at hother
        cases hother
      | some response =>
        rw [he] at hother
        simp at hother
    | ok answer' =>
      obtain ⟨outcome', changes'⟩ := answer'
      have hchanges' := hstored _ _ _ hreply'
      rw [hreply'] at hother
      unfold replyOf at hother
      simp only [hchanges, hchanges', Except.ok.injEq, Prod.mk.injEq, Option.some.injEq,
        DmSession.mk.injEq] at hother
      have hlength := congrArg String.length hother.2.2.2.2.2.2.2.2.2.2.1
      simp at hlength

theorem eval_keep {session : DmSession} {reason : String} (hnonce : session.nonce ≠ "") :
    (service.afterVerdict message encode session (.rejected reason .keep)).run.eval DmOp.foresee f =
      (service.rejectMessage message session reason session.nonce encode, f) := by
  unfold afterVerdict
  dsimp only
  rw [if_pos ⟨rfl, hnonce⟩]
  rfl

variable (service message encode) in
theorem eval_fresh (session : DmSession) (reason : String) (f : Forecast) :
    ∃ nonce g, (service.afterVerdict message encode session (.rejected reason .fresh)).run.eval
        DmOp.foresee f = (service.rejectMessage message session reason nonce encode, g) ∧
      nonce = (f.ahead.headD {}).nonce ∧ g.ahead = f.ahead.tail ∧
      g.world.store = f.world.store := by
  unfold afterVerdict
  dsimp only
  rw [if_neg (by simp)]
  refine ⟨(DmOp.foresee .makeNonce f).1, (DmOp.foresee .makeNonce f).2, rfl, ?_, ?_, ?_⟩
  · rw [foresee_sure fun _ => rfl]
    rfl
  · rw [foresee_sure fun _ => rfl]
  · rw [foresee_sure fun _ => rfl]
    rfl

/-- The two runs part only where one repeats the nonce and the other draws one. -/
theorem unmoved_of_not_tells {w w' : World} (ahead : List Moment) (hclock : w.clock = w'.clock)
    (hsessions : w.store.dmSessions = w'.store.dmSessions)
    (hfails : ¬ service.Authenticates message w) (hfails' : ¬ service.Authenticates message w')
    (htells : ¬ Tells service message encode w w') :
    Unmoved w.store.subscribers w'.store.subscribers
      ((service.handleMessage message encode).run.eval DmOp.foresee ⟨w, ahead⟩)
      ((service.handleMessage message encode).run.eval DmOp.foresee ⟨w', ahead⟩) := by
  have htwins := twins_of_sessions hclock hsessions ahead
  have hK : Kinship service (fun s t => s = t) := kinship_eq
  cases hnumbered : (message.header.sessionId = "" || message.header.msgId = "" : Bool) with
  | true =>
    unfold handleMessage
    -- without both ids the two runs are the same
    dsimp only
    rw [if_pos hnumbered]
    exact Or.inl ⟨.ok ⟨rfl, Or.inl ⟨rfl, rfl⟩⟩, htwins⟩
  | false =>
    rw [handleMessage_eq service message encode hnumbered]
    apply Coupled.bind_to (coupled_loadSession hK htwins message)
    · exact fun e g g' hg => Or.inl ⟨.error e, hg⟩
    · rintro session _ g g' ⟨rfl, hloads, hloads'⟩ hg
      apply Coupled.bind_to (coupled_authenticate hK hg message rfl)
      · exact fun e g g' hg => Or.inl ⟨.error e, hg⟩
      · rintro _ _ g₂ g₂' ⟨rfl, rfl⟩ hg₂
        cases hv : service.verdict message session w.store.subscribers with
        | accepted username => exact absurd ⟨session, username, hloads, hv⟩ hfails
        | rejected reason k =>
          cases hv' : service.verdict message session w'.store.subscribers with
          | accepted username => exact absurd ⟨session, username, hloads', hv'⟩ hfails'
          | rejected reason' k' =>
            obtain ⟨rfl, rfl | ⟨c, hc, htype, hdata, hnonce, rfl, hkk, hsome⟩⟩ :=
              verdict_rejected hv hv'
            · exact Or.inl (coupled_rejected hK hg₂ rfl reason k)
            -- the verdicts differ, so that what is seen does not depend on the nonce
            · have hall : ∀ nonce,
                  replyOf (service.rejectMessage message session "invalid" nonce encode) =
                    replyOf (service.rejectMessage message session "invalid" session.nonce
                      encode) := by
                intro nonce
                by_contra hne
                obtain ⟨nonce, hshows⟩ := (replyOf_ne_iff session).mp ⟨nonce, hne⟩
                exact htells ⟨by simpa using hnumbered, session, c, nonce, hloads, hc, htype,
                  hdata, hnonce, hsome, hshows⟩
              obtain ⟨e, he⟩ := rejectMessage_error hall session.nonce
              cases k with
              | keep =>
                obtain rfl := hkk.mp rfl
                obtain ⟨nonce, g₃, heval, -, -, hstore⟩ := eval_fresh service message encode
                  session "invalid" g₂'
                obtain ⟨e', he'⟩ := rejectMessage_error hall nonce
                rw [eval_keep hnonce, heval]
                refine Or.inr ⟨e, e', he, he', ?_, ?_⟩
                · rw [← he, ← he', hall nonce]
                · rw [hstore]
                  exact Twins.sessions_eq hg₂
              | fresh =>
                have hk' : k' = .keep := by
                  cases k' with
                  | keep => rfl
                  | fresh => exact absurd (hkk.mpr rfl) (by decide)
                subst hk'
                obtain ⟨nonce, g₃, heval, -, -, hstore⟩ := eval_fresh service message encode
                  session "invalid" g₂
                obtain ⟨e', he'⟩ := rejectMessage_error hall nonce
                rw [eval_keep hnonce, heval]
                refine Or.inr ⟨e', e, he', he, ?_, ?_⟩
                · rw [← he, ← he', hall nonce]
                · rw [hstore]
                  exact Twins.sessions_eq hg₂

end Stores

section Told
variable {w : World} {m : Moment} {rest : List Moment} (hm : m.fault = none)
include hm

theorem eval_loadSession {s : DmSession}
    (hfound : w.store.getDmSession (service.keyOf message.header)
      (Clock.after w.clock m.elapsed) = (some s, w.store)) :
    (service.loadSession message.header).run.eval DmOp.foresee ⟨w, m :: rest⟩ =
      (.ok (service.openSession message.header s),
        ⟨⟨w.store, Clock.after w.clock m.elapsed⟩, rest⟩) := by
  have hop : DmOp.foresee (.getDmSession (service.keyOf message.header)) ⟨w, m :: rest⟩ =
      (.ok (some s), ⟨⟨w.store, Clock.after w.clock m.elapsed⟩, rest⟩) := by
    rw [foresee_calm (f := ⟨w, m :: rest⟩) hm]
    simp only [List.headD_cons, List.tail_cons, DmOp.exec, hfound]
  unfold loadSession
  change (Program.call (DmOp.getDmSession (service.keyOf message.header)) _).eval DmOp.foresee _ = _
  rw [Program.eval_call, hop]
  rfl

theorem eval_lookupPassword {username : String} (hname : username ≠ "") :
    (lookupPassword username).run.eval DmOp.foresee ⟨w, m :: rest⟩ =
      (.ok (passwordOf w.store.subscribers username),
        ⟨⟨w.store, Clock.after w.clock m.elapsed⟩, rest⟩) := by
  have hop : DmOp.foresee (.getSubscriber username) ⟨w, m :: rest⟩ =
      (.ok (w.store.subscribers username),
        ⟨⟨w.store, Clock.after w.clock m.elapsed⟩, rest⟩) := by
    rw [foresee_calm (f := ⟨w, m :: rest⟩) hm]
    rfl
  unfold lookupPassword passwordOf
  rw [if_neg hname, if_neg hname]
  change (Program.call (DmOp.getSubscriber username) _).eval DmOp.foresee _ = _
  rw [Program.eval_call, hop]
  cases w.store.subscribers username with
  | none => rfl
  | some s =>
    change (if s.dmPassword = "" then pure none else pure (some s.dmPassword) :
      DmProgram (Option String)).run.eval DmOp.foresee _ = _
    simp only [Option.bind_some]
    split_ifs
    · rfl
    · rfl

theorem eval_authenticate {session : DmSession} {c : Credentials}
    (hscheme : service.settings.dmAuthScheme ≠ .none)
    (hc : message.header.credentials.filter (·.type = authMd5) = some c)
    (hname : md5User message session ≠ "") :
    (service.authenticate message session).run.eval DmOp.foresee ⟨w, m :: rest⟩ =
      (.ok (service.verdict message session w.store.subscribers),
        ⟨⟨w.store, Clock.after w.clock m.elapsed⟩, rest⟩) := by
  unfold authenticate verdict
  dsimp only
  rw [if_neg hscheme, if_neg hscheme, hc]
  change (lookupPassword (md5User message session) >>= _ : DmProgram _).run.eval _ _ = _
  rw [ExceptT.run_bind, Program.eval_bind, eval_lookupPassword hm hname]
  rfl

theorem eval_respond_session {f : Forecast} {outcome : DmResponse} {s : DmSession} {binary : Bool}
    (h : (service.handleMessage message encode).run.eval DmOp.foresee f =
      (.ok (outcome, { session := some s }), ⟨w, m :: rest⟩)) :
    (service.respond message binary encode).run.eval DmOp.foresee f =
      (.ok (sent binary outcome),
        ⟨⟨w.store.putDmSession s, Clock.after w.clock m.elapsed⟩, rest⟩) := by
  have hop : DmOp.foresee (.write (.putDmSession s)) ⟨w, m :: rest⟩ =
      (.ok (), ⟨⟨w.store.putDmSession s, Clock.after w.clock m.elapsed⟩, rest⟩) := by
    rw [foresee_calm (f := ⟨w, m :: rest⟩) hm]
    rfl
  unfold respond
  change (_ >>= _ : Program DmOp DmOp.Answer _).eval DmOp.foresee f = _
  rw [Program.eval_bind, h]
  change (Program.call (DmOp.write (.putDmSession s)) _).eval DmOp.foresee _ = _
  rw [Program.eval_call, hop]
  rfl

end Told

theorem seen_ne {w v : World} {m : Moment} {rest rest' : List Moment} (hm : m.fault = none)
    {f f' : Forecast} {session : DmSession} {reason nonce nonce' : String} {binary : Bool}
    (h : (service.handleMessage message encode).run.eval DmOp.foresee f =
      (service.rejectMessage message session reason nonce encode, ⟨w, m :: rest⟩))
    (h' : (service.handleMessage message encode).run.eval DmOp.foresee f' =
      (service.rejectMessage message session reason nonce' encode, ⟨v, m :: rest'⟩))
    (hreply : replyOf (service.rejectMessage message session reason nonce encode) ≠
      replyOf (service.rejectMessage message session reason nonce' encode)) :
    seen ((service.respond message binary encode).run.eval DmOp.foresee f) ≠
      seen ((service.respond message binary encode).run.eval DmOp.foresee f') := by
  intro hseen
  cases hr : service.rejectMessage message session reason nonce encode with
  | error e =>
    rw [hr] at h hreply
    rw [eval_respond_error (congrArg Prod.fst h)] at hseen
    cases hr' : service.rejectMessage message session reason nonce' encode with
    | error e' =>
      rw [hr'] at h' hreply
      rw [eval_respond_error (congrArg Prod.fst h')] at hseen
      -- both raise: what is seen is what the exceptions are answered with
      exact hreply (answerOf_refused_iff.mp (congrArg Prod.fst hseen))
    | ok answer' =>
      obtain ⟨outcome', changes'⟩ := answer'
      obtain ⟨body, _, -, rfl, rfl⟩ := rejectMessage_ok hr'
      rw [hr'] at h'
      rw [eval_respond_session hm h'] at hseen
      exact answerOf_sent_ne rfl binary e (congrArg Prod.fst hseen).symm
  | ok answer =>
    obtain ⟨outcome, changes⟩ := answer
    obtain ⟨body, _, -, rfl, rfl⟩ := rejectMessage_ok hr
    rw [hr] at h hreply
    rw [eval_respond_session hm h] at hseen
    cases hr' : service.rejectMessage message session reason nonce' encode with
    | error e' =>
      rw [hr'] at h'
      rw [eval_respond_error (congrArg Prod.fst h')] at hseen
      exact answerOf_sent_ne rfl binary e' (congrArg Prod.fst hseen)
    | ok answer' =>
      obtain ⟨outcome', changes'⟩ := answer'
      obtain ⟨body', _, -, rfl, rfl⟩ := rejectMessage_ok hr'
      rw [hr'] at h' hreply
      rw [eval_respond_session hm h'] at hseen
      apply hreply
      -- both are sent: the body is seen, and the nonce in the session that is stored
      obtain ⟨hanswer, hsessions⟩ := Prod.mk.inj hseen
      have hbody : body = body' := by
        obtain ⟨-, hrest⟩ := Prod.mk.inj (Except.ok.inj hanswer)
        have hbody := (Prod.mk.inj hrest).1
        rwa [sent_body, sent_body] at hbody
      have hstored := congrFun hsessions session.sessionId
      change Function.update w.store.dmSessions session.sessionId _ session.sessionId =
        Function.update v.store.dmSessions session.sessionId _ session.sessionId at hstored
      rw [Function.update_self, Function.update_self] at hstored
      unfold replyOf
      dsimp only
      rw [hbody, hstored]

section Message
variable {w w' : World}

theorem found_of_loads {session : DmSession} (h : service.Loads message w session)
    (hnonce : session.nonce ≠ "") :
    ∃ s, session = service.openSession message.header s ∧
      w.store.dmSessions (service.keyOf message.header) = some s ∧
      MemoryStore.lapsed s.expiresAt w.clock = false := by
  obtain ⟨clock, clock', hclock, rfl⟩ := h
  rcases getDmSession_cases w.store (service.keyOf message.header) clock with
    ⟨hfound, hsame⟩ | ⟨hfound, -⟩
  · cases hs : w.store.dmSessions (service.keyOf message.header) with
    | none =>
      rw [hfound, hs] at hnonce
      exact absurd rfl hnonce
    | some s =>
      refine ⟨s, by rw [hfound, hs]; rfl, rfl, ?_⟩
      cases hlapsed : MemoryStore.lapsed s.expiresAt w.clock with
      | false => rfl
      | true =>
        unfold MemoryStore.getDmSession at hfound
        rw [hs] at hfound
        dsimp only at hfound
        rw [if_pos (lapsed_mono hclock hlapsed)] at hfound
        cases hfound
  · rw [hfound] at hnonce
    exact absurd rfl hnonce

theorem getDmSession_found {m : MemoryStore} {id : String} {s : DmSession} {clock : Clock}
    (hs : m.dmSessions id = some s) (hlapsed : MemoryStore.lapsed s.expiresAt clock = false) :
    m.getDmSession id clock = (some s, m) := by
  unfold MemoryStore.getDmSession
  rw [hs]
  dsimp only
  rw [if_neg (by simp [hlapsed])]

theorem eval_to_verdict (encode : Encoder) (m : Moment) (rest : List Moment) {s : DmSession}
    {c : Credentials}
    (hm : m.fault = none) (hnow : m.elapsed = 0)
    (hnumbered : message.header.sessionId ≠ "" ∧ message.header.msgId ≠ "")
    (hs : w.store.dmSessions (service.keyOf message.header) = some s)
    (hlapsed : MemoryStore.lapsed s.expiresAt w.clock = false)
    (hscheme : service.settings.dmAuthScheme ≠ .none)
    (hc : message.header.credentials.filter (·.type = authMd5) = some c)
    (hname : md5User message (service.openSession message.header s) ≠ "") :
    (service.handleMessage message encode).run.eval DmOp.foresee ⟨w, m :: m :: rest⟩ =
      (service.afterVerdict message encode (service.openSession message.header s)
        (service.verdict message (service.openSession message.header s)
          w.store.subscribers)).run.eval DmOp.foresee ⟨w, rest⟩ := by
  have hclock : Clock.after w.clock m.elapsed = w.clock := by
    rw [hnow]
    unfold Clock.after
    simp
  have hfound : w.store.getDmSession (service.keyOf message.header)
      (Clock.after w.clock m.elapsed) = (some s, w.store) := by
    rw [hclock]
    exact getDmSession_found hs hlapsed
  rw [handleMessage_eq service message encode (by simp [hnumbered])]
  rw [ExceptT.run_bind, Program.eval_bind, eval_loadSession hm hfound, hclock]
  dsimp only
  rw [ExceptT.run_bind, Program.eval_bind, eval_authenticate hm hscheme hc hname, hclock]

theorem seen_ne_of_password {s : DmSession} {c : Credentials} {nonce : String} {binary : Bool}
    (hnumbered : message.header.sessionId ≠ "" ∧ message.header.msgId ≠ "")
    (hs : w.store.dmSessions (service.keyOf message.header) = some s)
    (hs' : w'.store.dmSessions (service.keyOf message.header) = some s)
    (hlapsed : MemoryStore.lapsed s.expiresAt w.clock = false)
    (hlapsed' : MemoryStore.lapsed s.expiresAt w'.clock = false)
    (hscheme : service.settings.dmAuthScheme ≠ .none)
    (hc : message.header.credentials.filter (·.type = authMd5) = some c)
    (hname : md5User message (service.openSession message.header s) ≠ "")
    (hnonce : (service.openSession message.header s).nonce ≠ "")
    (hkeep : service.verdict message (service.openSession message.header s) w.store.subscribers =
      .rejected "invalid" .keep)
    (hfresh : service.verdict message (service.openSession message.header s)
      w'.store.subscribers = .rejected "invalid" .fresh)
    (hreply : replyOf (service.rejectMessage message (service.openSession message.header s)
        "invalid" nonce encode) ≠
      replyOf (service.rejectMessage message (service.openSession message.header s) "invalid"
        (service.openSession message.header s).nonce encode)) :
    let ahead : List Moment := [{ nonce }, { nonce }, { nonce }, { nonce }]
    seen ((service.respond message binary encode).run.eval DmOp.foresee ⟨w, ahead⟩) ≠
      seen ((service.respond message binary encode).run.eval DmOp.foresee ⟨w', ahead⟩) := by
  intro ahead
  have heval := eval_to_verdict encode { nonce } [{ nonce }, { nonce }] rfl rfl hnumbered hs
    hlapsed hscheme hc hname
  have heval' := eval_to_verdict encode { nonce } [{ nonce }, { nonce }] rfl rfl hnumbered hs'
    hlapsed' hscheme hc hname
  rw [hkeep, eval_keep hnonce] at heval
  obtain ⟨drawn, g, hdrawn, hdraw, hahead, -⟩ := eval_fresh service message encode
    (service.openSession message.header s) "invalid" ⟨w', [{ nonce }, { nonce }]⟩
  rw [hfresh, hdrawn, hdraw] at heval'
  obtain ⟨v, rest⟩ := g
  obtain rfl : rest = [{ nonce }] := hahead
  exact (seen_ne (m := { nonce }) rfl heval' heval hreply).symm

end Message

/-! ### Any sequence of messages -/

structure Arrival where
  payload : Bytes
  contentType : String
  clock : Clock
  ahead : List Moment

def answerArrival (service : DmService) (a : Arrival) (m : MemoryStore) :
    Except DmError DmResponse × Forecast :=
  service.foresee a.payload a.contentType ⟨⟨m, a.clock⟩, a.ahead⟩

def answerAll (service : DmService) :
    List Arrival → MemoryStore → List (Except DmError (Nat × Bytes × String)) × MemoryStore
  | [], m => ([], m)
  | a :: arrivals, m =>
    let run := answerArrival service a m
    let rest := answerAll service arrivals run.2.world.store
    (answerOf run.1 :: rest.1, rest.2)

/-- The request fails authentication in both stores, and does not tell them apart. -/
def Discreet (service : DmService) (a : Arrival) (m m' : MemoryStore) : Prop :=
  ∀ message binary encode, service.read a.payload a.contentType = .ok (message, binary, encode) →
    ¬ service.Authenticates message ⟨m, a.clock⟩ ∧ ¬ service.Authenticates message ⟨m', a.clock⟩ ∧
      ¬ Tells service message encode ⟨m, a.clock⟩ ⟨m', a.clock⟩

def AllDiscreet (service : DmService) : List Arrival → MemoryStore → MemoryStore → Prop
  | [], _, _ => True
  | a :: arrivals, m, m' => Discreet service a m m' ∧
    AllDiscreet service arrivals (answerArrival service a m).2.world.store
      (answerArrival service a m').2.world.store

theorem indistinguishable_of_not_tells (w w' : World) {payload : Bytes} {contentType : String}
    {binary : Bool} (hread : service.read payload contentType = .ok (message, binary, encode))
    (hclock : w.clock = w'.clock) (hsessions : w.store.dmSessions = w'.store.dmSessions)
    (hfails : ¬ service.Authenticates message w) (hfails' : ¬ service.Authenticates message w')
    (htells : ¬ Tells service message encode w w') :
    Indistinguishable service payload contentType w w' := by
  intro ahead
  unfold foresee handle
  rw [hread]
  exact seen_of_unmoved
    (unmoved_of_not_tells ahead hclock hsessions hfails hfails' htells)

theorem not_indistinguishable_of_tells (w w' : World) {payload : Bytes} {contentType : String}
    {binary : Bool} (hread : service.read payload contentType = .ok (message, binary, encode))
    (hclock : w.clock = w'.clock) (hsessions : w.store.dmSessions = w'.store.dmSessions)
    (hfails : ¬ service.Authenticates message w) (hfails' : ¬ service.Authenticates message w')
    (htells : Tells service message encode w w') :
    ¬ Indistinguishable service payload contentType w w' := by
  obtain ⟨hnumbered, session, c, nonce, hloads, hc, htype, hdata, hnonce, hsome, hshows⟩ := htells
  obtain ⟨nonce, hreply⟩ := (replyOf_ne_iff session).mpr ⟨nonce, hshows⟩
  obtain ⟨s, rfl, hs, hlapsed⟩ := found_of_loads hloads hnonce
  have hs' : w'.store.dmSessions (service.keyOf message.header) = some s := hsessions ▸ hs
  have hlapsed' : MemoryStore.lapsed s.expiresAt w'.clock = false := hclock ▸ hlapsed
  have hloads' : service.Loads message w' (service.openSession message.header s) := by
    refine ⟨w'.clock, w'.clock, Int.le_refl _, ?_⟩
    rw [getDmSession_found hs' hlapsed']
    rfl
  have hc' : message.header.credentials.filter (·.type = authMd5) = some c := by
    rw [hc]
    simp [Option.filter, htype]
  have hscheme : service.settings.dmAuthScheme ≠ .none := by
    intro hscheme
    have hv : service.verdict message (service.openSession message.header s)
        w.store.subscribers = Auth.authenticateNone service.crypto message.header.credentials := by
      unfold verdict
      dsimp only
      rw [if_pos hscheme]
    exact hfails ⟨_, _, hloads, hv⟩
  have hname : md5User message (service.openSession message.header s) ≠ "" := by
    intro hname
    rw [hname] at hsome
    exact hsome rfl
  -- the verdict of a store, by whether it has a password
  have hverdict : ∀ v : World, ¬ service.Authenticates message v →
      service.Loads message v (service.openSession message.header s) →
      service.verdict message (service.openSession message.header s) v.store.subscribers =
        .rejected "invalid" (if (passwordOf v.store.subscribers
          (md5User message (service.openSession message.header s))).isSome then .fresh
          else .keep) := by
    intro v hfails hloads
    cases hv : service.verdict message (service.openSession message.header s)
        v.store.subscribers with
    | accepted username => exact absurd ⟨_, username, hloads, hv⟩ hfails
    | rejected reason k =>
      unfold verdict at hv
      dsimp only at hv
      rw [if_neg hscheme, hc'] at hv
      rcases authenticateMd5_rejected htype (fun p => passwordOf_ne) hv with
        ⟨hempty, -⟩ | ⟨-, rfl, ⟨rfl, hpassword, -⟩ | ⟨rfl, hpassword⟩⟩
      · exact absurd hempty hdata
      · rw [md5User, hpassword]
        rfl
      · rw [md5User, hpassword.resolve_right hnonce]
        rfl
  have hv := hverdict w hfails hloads
  have hv' := hverdict w' hfails' hloads'
  intro hsame
  have hseen := hsame [{ nonce }, { nonce }, { nonce }, { nonce }]
  unfold foresee handle at hseen
  rw [hread] at hseen
  cases hpassword : (passwordOf w.store.subscribers
      (md5User message (service.openSession message.header s))).isSome with
  | false =>
    have hpassword' : (passwordOf w'.store.subscribers
        (md5User message (service.openSession message.header s))).isSome = true := by
      rw [hpassword] at hsome
      exact Bool.eq_true_of_not_eq_false hsome.symm
    rw [hpassword] at hv
    rw [hpassword'] at hv'
    exact seen_ne_of_password hnumbered hs hs' hlapsed hlapsed' hscheme hc' hname hnonce hv hv'
      hreply hseen
  | true =>
    have hpassword' : (passwordOf w'.store.subscribers
        (md5User message (service.openSession message.header s))).isSome = false := by
      rw [hpassword] at hsome
      exact Bool.eq_false_of_not_eq_true hsome.symm
    rw [hpassword] at hv
    rw [hpassword'] at hv'
    exact seen_ne_of_password hnumbered hs' hs hlapsed' hlapsed hscheme hc' hname hnonce hv' hv
      hreply hseen.symm

theorem seen_of_discreet {a : Arrival} {m m' : MemoryStore}
    (hsessions : m.dmSessions = m'.dmSessions) (h : Discreet service a m m') :
    seen (answerArrival service a m) = seen (answerArrival service a m') := by
  cases hread : service.read a.payload a.contentType with
  | error response =>
    unfold answerArrival foresee handle
    rw [hread]
    exact congrArg (Prod.mk (answerOf (.ok response))) hsessions
  | ok request =>
    obtain ⟨message, binary, encode⟩ := request
    obtain ⟨hfails, hfails', htells⟩ := h message binary encode hread
    exact indistinguishable_of_not_tells ⟨m, a.clock⟩ ⟨m', a.clock⟩ hread rfl hsessions hfails
      hfails' htells a.ahead

theorem answerAll_of_discreet {arrivals : List Arrival} {m m' : MemoryStore}
    (hsessions : m.dmSessions = m'.dmSessions) (h : AllDiscreet service arrivals m m') :
    (answerAll service arrivals m).1 = (answerAll service arrivals m').1 ∧
      (answerAll service arrivals m).2.dmSessions = (answerAll service arrivals m').2.dmSessions := by
  induction arrivals generalizing m m' with
  | nil => exact ⟨rfl, hsessions⟩
  | cons a arrivals ih =>
    obtain ⟨hanswer, hsessions'⟩ := Prod.mk.inj (seen_of_discreet hsessions h.1)
    obtain ⟨hanswers, hlast⟩ := ih hsessions' h.2
    refine ⟨?_, hlast⟩
    unfold answerAll
    dsimp only
    rw [hanswer, hanswers]

/-- A message that authenticates in neither of two stores that agree in their sessions tells nothing
of them exactly if it is not as `Tells` says, and sequences of messages that are not tell nothing. -/
theorem no_enumeration_iff (service : DmService) :
    (∀ payload contentType message binary encode w w',
      service.read payload contentType = .ok (message, binary, encode) →
      w.clock = w'.clock → w.store.dmSessions = w'.store.dmSessions →
      ¬ service.Authenticates message w → ¬ service.Authenticates message w' →
      (Indistinguishable service payload contentType w w' ↔
        ¬ Tells service message encode w w')) ∧
    ∀ arrivals m m', m.dmSessions = m'.dmSessions → AllDiscreet service arrivals m m' →
      (answerAll service arrivals m).1 = (answerAll service arrivals m').1 ∧
        (answerAll service arrivals m).2.dmSessions =
          (answerAll service arrivals m').2.dmSessions := by
  refine ⟨?_, fun arrivals m m' => answerAll_of_discreet⟩
  intro payload contentType message binary encode w w' hread hclock hsessions hfails hfails'
  constructor
  · intro hsame htells
    exact not_indistinguishable_of_tells w w' hread hclock hsessions hfails hfails' htells hsame
  · intro htells
    exact indistinguishable_of_not_tells w w' hread hclock hsessions hfails hfails' htells

theorem verdict_session {s t : DmSession} {subs : String → Option Subscriber} {c : Credentials}
    (hc : message.header.credentials = some c) (htype : c.type = authBasic) :
    service.verdict message s subs = service.verdict message t subs := by
  unfold verdict
  have hmd5 : (some c).filter (fun c => c.type = authMd5) = none := by
    simp [Option.filter, htype, authBasic, authMd5]
  dsimp only
  rw [hc, hmd5]

/-- A wrong password over `basic` does not tell whether there is such a subscriber. -/
theorem no_enumeration_of_basic_guess :
    let first := Lab.message Lab.guess "1" "4096" [Lab.alert alertClientInitiatedMgmt]
    Indistinguishable (Lab.service [first]) (printed "" first) contentTypeXml
      ⟨{}, Lab.world.clock⟩ Lab.world := by
  intro first
  have hverdict : ∀ w ∈ [(⟨{}, Lab.world.clock⟩ : World), Lab.world],
      ((Lab.service [first]).read (printed "" first) contentTypeXml).toOption.map (fun request =>
        (request.1.header.credentials.map Credentials.type,
          (Lab.service [first]).verdict request.1 { sessionId := "", deviceId := "" }
            w.store.subscribers)) =
        some (some authBasic, .rejected "invalid" .keep) := by
    simp only [List.mem_cons, List.not_mem_nil, or_false, forall_eq_or_imp, forall_eq]
    constructor
    · decide +kernel
    · decide +kernel
  cases hread : (Lab.service [first]).read (printed "" first) contentTypeXml with
  | error refused =>
    have hnone := hverdict _ List.mem_cons_self
    rw [hread] at hnone
    cases hnone
  | ok request =>
    obtain ⟨message, binary, encode⟩ := request
    rw [hread] at hverdict
    have hbasic : ∃ c, message.header.credentials = some c ∧ c.type = authBasic :=
      Option.map_eq_some_iff.mp (Prod.mk.inj (Option.some.inj (hverdict _ List.mem_cons_self))).1
    obtain ⟨c, hc, htype⟩ := hbasic
    have hfails : ∀ w ∈ [(⟨{}, Lab.world.clock⟩ : World), Lab.world],
        ¬ (Lab.service [first]).Authenticates message w := by
      rintro w hw ⟨session, username, -, hv⟩
      rw [verdict_session hc htype, (Prod.mk.inj (Option.some.inj (hverdict w hw))).2] at hv
      cases hv
    have hiff := (no_enumeration_iff (Lab.service [first])).1 _ _ message binary encode
      ⟨{}, Lab.world.clock⟩ Lab.world hread rfl rfl (hfails _ List.mem_cons_self)
      (hfails _ (List.mem_cons_of_mem _ List.mem_cons_self))
    refine hiff.mpr ?_
    rintro ⟨-, session, c', nonce, -, hc', hmd5, -⟩
    rw [hc] at hc'
    obtain rfl := Option.some.inj hc'
    rw [htype] at hmd5
    exact absurd hmd5 (by decide)

def Lab.challenged : DmSession where
  sessionId := "356938035643809:42"
  deviceId := "356938035643809"
  nonce := Lab.nonce

/-- Over `md5` the challenge to a wrong digest repeats the nonce if there is no such subscriber, and
draws another if there is. -/
theorem enumeration_by_md5_guess :
    let first := Lab.message Lab.guessDigest "1" "4096" [Lab.alert alertClientInitiatedMgmt] authMd5
    let service := Lab.service [first] .md5
    let sessions := Function.update (fun _ => none) Lab.challenged.sessionId (some Lab.challenged)
    let without : World := ⟨{ dmSessions := sessions }, Lab.world.clock⟩
    let within : World := ⟨{ Lab.world.store with dmSessions := sessions }, Lab.world.clock⟩
    (∀ message binary encode,
      service.read (printed "" first) contentTypeXml = .ok (message, binary, encode) →
      ¬ service.Authenticates message without ∧ ¬ service.Authenticates message within) ∧
    ¬ Indistinguishable service (printed "" first) contentTypeXml without within := by
  intro first service sessions without within
  -- the verdict on the guess, in either store
  have hverdict : ∀ subs ∈ [without.store.subscribers, within.store.subscribers],
      (service.read (printed "" first) contentTypeXml).toOption.map (fun request =>
        (service.verdict request.1 (service.openSession request.1.header Lab.challenged)
          subs).casesOn (motive := fun _ => String) (fun _ => "")
          fun _ _ => service.keyOf request.1.header) = some Lab.challenged.sessionId := by
    simp only [List.mem_cons, List.not_mem_nil, or_false, forall_eq_or_imp, forall_eq]
    constructor
    · decide +kernel
    · decide +kernel
  constructor
  · intro message binary encode hread
    rw [hread] at hverdict
    have hfails : ∀ w : World, w.store.dmSessions = sessions →
        w.store.subscribers ∈ [without.store.subscribers, within.store.subscribers] →
        ¬ service.Authenticates message w := by
      rintro w hsessions hsubs ⟨session, username, ⟨clock, clock', -, rfl⟩, hv⟩
      have hrejected := Option.some.inj (hverdict _ hsubs)
      dsimp only at hrejected
      have hkey : service.keyOf message.header = Lab.challenged.sessionId := by
        cases hcase : service.verdict message (service.openSession message.header Lab.challenged)
            w.store.subscribers with
        | rejected reason nonce =>
          rw [hcase] at hrejected
          exact hrejected
        | accepted username =>
          rw [hcase] at hrejected
          change "" = Lab.challenged.sessionId at hrejected
          exact absurd hrejected (by decide)
      have hfound : w.store.getDmSession (service.keyOf message.header) clock =
          (some Lab.challenged, w.store) := by
        apply getDmSession_found _ rfl
        rw [hsessions, hkey]
        exact Function.update_self ..
      rw [hfound] at hv
      change service.verdict message (service.openSession message.header Lab.challenged) _ = _ at hv
      rw [hv] at hrejected
      change "" = Lab.challenged.sessionId at hrejected
      exact absurd hrejected (by decide)
    exact ⟨hfails without rfl List.mem_cons_self, hfails within rfl (by simp)⟩
  · intro hsame
    -- without the subscriber the nonce is kept; with it a fresh one is drawn
    have hnonce := congrArg (fun run => (run.2 Lab.challenged.sessionId).map DmSession.nonce)
      (hsame (List.replicate 4 { nonce := "bm9uY2UtMDAwMDAwMDAwMg==" }))
    have hkept : ((service.foresee (printed "" first) contentTypeXml
        ⟨without, List.replicate 4 { nonce := "bm9uY2UtMDAwMDAwMDAwMg==" }⟩).2.world.store.dmSessions
          Lab.challenged.sessionId).map DmSession.nonce = some Lab.nonce := by decide +kernel
    have hdrawn : ((service.foresee (printed "" first) contentTypeXml
        ⟨within, List.replicate 4 { nonce := "bm9uY2UtMDAwMDAwMDAwMg==" }⟩).2.world.store.dmSessions
          Lab.challenged.sessionId).map DmSession.nonce = some "bm9uY2UtMDAwMDAwMDAwMg==" := by
      decide +kernel
    unfold seen at hnonce
    dsimp only at hnonce
    rw [hkept, hdrawn] at hnonce
    exact absurd hnonce (by decide)

end DmService
end Acs.Omadm
