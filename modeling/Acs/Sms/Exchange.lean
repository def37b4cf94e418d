import Acs.Sms.Session

/-! One request of a session over the PDUs that the SMSC sends: what it returns, what it has
answered, and what it has read. -/

namespace Acs.Smpp
open Net

def Pdu.IsRequest (pdu : Pdu) : Prop := pdu.commandId &&& responseBit = 0

def Pdu.Plain (pdu : Pdu) : Prop := pdu.IsRequest ∧ pdu.commandId ≠ unbind

def Pdu.reply (pdu : Pdu) : Pdu :=
  if pdu.commandId = enquireLink then
    { commandId := enquireLinkResp, commandStatus := esmeRok, sequenceNumber := pdu.sequenceNumber }
  else if pdu.commandId = unbind then
    { commandId := unbindResp, commandStatus := esmeRok, sequenceNumber := pdu.sequenceNumber }
  else if pdu.commandId = deliverSm then
    { commandId := deliverSmResp, commandStatus := esmeRxTAppn,
      sequenceNumber := pdu.sequenceNumber, body := [0] }
  else
    { commandId := genericNack, commandStatus := esmeRinvcmdid,
      sequenceNumber := pdu.sequenceNumber }

theorem answer_eq (pdu : Pdu) :
    answer pdu = write pdu.reply >>= fun _ =>
      if pdu.commandId = unbind then fail "SMSC unbound the session before responding"
      else pure () := by
  have hpure : ∀ reply : Pdu, (write reply >>= fun _ => pure ()) = write reply := by
    intro reply
    funext s
    show EStateM.bind (write reply) (fun _ => EStateM.pure ()) s = _
    unfold EStateM.bind
    cases write reply s <;> rfl
  unfold answer Pdu.reply
  by_cases henquire : pdu.commandId = enquireLink
  · have hunbind : pdu.commandId ≠ unbind := by rw [henquire]; decide
    rw [if_pos henquire, if_pos henquire]
    simp only [if_neg hunbind, hpure]
  rw [if_neg henquire, if_neg henquire]
  by_cases hunbind : pdu.commandId = unbind
  · simp only [if_pos hunbind]
  · rw [if_neg hunbind, if_neg hunbind]
    simp only [if_neg hunbind, hpure]
    by_cases hdeliver : pdu.commandId = deliverSm
    · rw [if_pos hdeliver, if_pos hdeliver]
    · rw [if_neg hdeliver, if_neg hdeliver]

theorem answer_cases (pdu : Pdu) (s : Session) :
    (pdu.commandId ≠ unbind ∧ ∃ s', answer pdu s = .ok () s' ∧ Writes s s' [pdu.reply.encode]) ∨
    (pdu.commandId = unbind ∧ ∃ s', answer pdu s =
      .error (.smpp ⟨"SMSC unbound the session before responding"⟩) s' ∧
        Writes s s' [pdu.reply.encode]) ∨
    ∃ fault s', answer pdu s = .error (.fault fault) s' ∧ some fault ∈ s.socket.sends ∧
      Writes s s' [] := by
  rw [answer_eq]
  rcases write_cases pdu.reply s with ⟨s', hwrite, hwrites⟩ | ⟨fault, s', hwrite, hfault, hwrites⟩
  · rw [bind_of_ok hwrite]
    by_cases hunbind : pdu.commandId = unbind
    · rw [if_pos hunbind]
      exact .inr (.inl ⟨hunbind, s', rfl, hwrites⟩)
    · rw [if_neg hunbind]
      exact .inl ⟨hunbind, s', rfl, hwrites⟩
  · exact .inr (.inr ⟨fault, s', bind_of_error hwrite, hfault, hwrites⟩)

/-- The PDUs the SMSC sends are some requests, all answered, `last`, and what has not been read;
of this `part` is lost, and the session ends where `rest` goes on. -/
structure Exchanged (s' : Session) (before : List (List UInt8)) (pdus : List Pdu)
    (later : List UInt8) (requests last rest answered : List Pdu) (part : List UInt8) : Prop where
  pdus : pdus = requests ++ (last ++ rest)
  plain : ∀ r ∈ requests, r.Plain
  left : part ++ (s'.socket.stream ++ later) = rest.flatMap Pdu.encode
  written : s'.socket.written =
    before ++ (requests.map Pdu.reply ++ answered).map Pdu.encode

/-- How the wait for a response ends. -/
inductive Ended (expected sequence : UInt32) (sends : List (Option Fault))
    (before : List (List UInt8)) (pdus : List Pdu) (later : List UInt8) :
    EStateM.Result Raised Session Pdu → Prop
  /-- The first PDU that is no request is the response; nothing behind it has been read. -/
  | returned {s' requests rest pdu}
      (exchanged : Exchanged s' before pdus later requests [pdu] rest [] [])
      (response : ¬pdu.IsRequest) (command : pdu.commandId = expected)
      (number : pdu.sequenceNumber = sequence) :
      Ended expected sequence sends before pdus later (.ok pdu s')
  /-- The SMSC unbinds the session. -/
  | unbound {s' requests rest pdu}
      (exchanged : Exchanged s' before pdus later requests [pdu] rest [pdu.reply] [])
      (command : pdu.commandId = unbind) :
      Ended expected sequence sends before pdus later
        (.error (.smpp ⟨"SMSC unbound the session before responding"⟩) s')
  /-- The first PDU that is no request is not the response. -/
  | refused {s' requests rest pdu e}
      (exchanged : Exchanged s' before pdus later requests [pdu] rest [] [])
      (response : ¬pdu.IsRequest)
      (wrong : pdu.commandId = genericNack ∨ pdu.commandId ≠ expected ∨
        pdu.sequenceNumber ≠ sequence) :
      Ended expected sequence sends before pdus later (.error (.smpp e) s')
  /-- The connection or the time ends, perhaps in the middle of a PDU. -/
  | interrupted {s' requests rest part e}
      (exchanged : Exchanged s' before pdus later requests [] rest [] part)
      (cut : ∀ next ∈ rest.head?, part.length < next.encode.length) :
      Ended expected sequence sends before pdus later (.error e s')
  /-- The answer to a request could not be written. -/
  | unanswered {s' requests rest pdu fault}
      (exchanged : Exchanged s' before pdus later requests [pdu] rest [] [])
      (request : pdu.IsRequest) (failed : some fault ∈ sends) :
      Ended expected sequence sends before pdus later (.error (.fault fault) s')

section Steps
variable {expected sequence : UInt32} {sends : List (Option Fault)} {before : List (List UInt8)}
  {pdus : List Pdu} {later : List UInt8}

theorem Exchanged.cons {s' : Session} {requests last rest answered : List Pdu} {part : List UInt8}
    {pdu : Pdu} (hplain : pdu.Plain)
    (h : Exchanged s' (before ++ [pdu.reply.encode]) pdus later requests last rest answered part) :
    Exchanged s' before (pdu :: pdus) later (pdu :: requests) last rest answered part where
  pdus := congrArg (pdu :: ·) h.pdus
  plain := fun r hr => (List.mem_cons.mp hr).elim (fun heq => heq ▸ hplain) (h.plain r)
  left := h.left
  written := by
    rw [h.written, List.append_assoc]
    rfl

theorem Ended.cons {pdu : Pdu} {result : EStateM.Result Raised Session Pdu} (hplain : pdu.Plain)
    (h : Ended expected sequence sends (before ++ [pdu.reply.encode]) pdus later result) :
    Ended expected sequence sends before (pdu :: pdus) later result := by
  cases h with
  | returned exchanged response command number =>
    exact .returned (exchanged.cons hplain) response command number
  | unbound exchanged command => exact .unbound (exchanged.cons hplain) command
  | refused exchanged response wrong => exact .refused (exchanged.cons hplain) response wrong
  | interrupted exchanged cut => exact .interrupted (exchanged.cons hplain) cut
  | unanswered exchanged request failed =>
    exact .unanswered (exchanged.cons hplain) request failed

theorem Exchanged.first {s' : Session} {last rest answered : List Pdu} {part : List UInt8}
    (hpdus : pdus = last ++ rest)
    (hleft : part ++ (s'.socket.stream ++ later) = rest.flatMap Pdu.encode)
    (hwritten : s'.socket.written = before ++ answered.map Pdu.encode) :
    Exchanged s' before pdus later [] last rest answered part :=
  ⟨hpdus, fun _ hr => absurd hr List.not_mem_nil, hleft, hwritten⟩

/-- What is read while the SMSC sends PDUs is the first of them. -/
theorem read_sent {deadline : Nat} {s s' : Session} {pdu : Pdu} {front : Line}
    (hfits : ∀ p ∈ pdus, p.Fits) (hsent : s.socket.stream ++ later = pdus.flatMap Pdu.encode)
    (hreads : Reads s s' front) (hcomes : Comes deadline s.socket.heard pdu front s'.socket.heard) :
    ∃ rest, pdus = pdu :: rest ∧ s'.socket.stream ++ later = rest.flatMap Pdu.encode := by
  rw [hreads.took.stream, hcomes.octets, List.append_assoc] at hsent
  cases pdus with
  | nil =>
    have hlength := congrArg List.length hsent
    rw [List.length_append, length_encode, List.flatMap_nil, List.length_nil, headerSize] at hlength
    omega
  | cons p rest =>
    rw [List.flatMap_cons] at hsent
    obtain ⟨rfl, hrest⟩ :=
      encode_append_inj hcomes.fits (hfits p (List.mem_cons_self ..)) hsent
    exact ⟨rest, rfl, hrest⟩

theorem cut_sent {s s' : Session} {part : List UInt8} (hfits : ∀ p ∈ pdus, p.Fits)
    (hsent : s.socket.stream ++ later = pdus.flatMap Pdu.encode)
    (hlost : Lost s.socket s'.socket part) (hcut : Cut part) :
    part ++ (s'.socket.stream ++ later) = pdus.flatMap Pdu.encode ∧
      ∀ next ∈ pdus.head?, part.length < next.encode.length := by
  have hleft : part ++ (s'.socket.stream ++ later) = pdus.flatMap Pdu.encode := by
    rw [← List.append_assoc, ← hlost.stream, hsent]
  refine ⟨hleft, fun next hnext => ?_⟩
  cases pdus with
  | nil => cases hnext
  | cons p rest =>
    cases hnext
    exact hcut.short (hfits _ (List.mem_cons_self ..)) hleft

theorem not_misframed_sent {s s' : Session} {part : List UInt8} (hfits : ∀ p ∈ pdus, p.Fits)
    (hsent : s.socket.stream ++ later = pdus.flatMap Pdu.encode)
    (hstream : s.socket.stream = part ++ s'.socket.stream) : ¬Misframed part := by
  intro hbad
  rw [hstream, List.append_assoc] at hsent
  cases pdus with
  | nil =>
    have hpart := (List.append_eq_nil_iff.mp hsent).1
    have hlength := hbad.1
    rw [hpart, List.length_nil, headerSize] at hlength
    omega
  | cons p rest => exact hbad.not_encode (hfits p (List.mem_cons_self ..)) hsent

/-- The loop ends one of these ways; it has enough turns. -/
theorem awaitLoop_ended {deadline : Nat} (turns : Nat) (s : Session)
    (hfits : ∀ p ∈ pdus, p.Fits) (hsent : s.socket.stream ++ later = pdus.flatMap Pdu.encode)
    (hwritten : s.socket.written = before) (hsends : s.socket.sends <:+ sends)
    (hturns : s.socket.heard.length < turns) :
    Ended expected sequence sends before pdus later
      (awaitLoop expected sequence deadline turns s) := by
  induction turns generalizing s before pdus with
  | zero => exact absurd hturns (Nat.not_lt_zero _)
  | succ turns ih =>
    unfold awaitLoop
    rcases read_cases deadline s with ⟨pdu, front, s₁, hread, hreads, hcomes⟩ |
      ⟨-, e, s', part, hread, ⟨hcut, hlost⟩ | ⟨hbad, hstream⟩⟩
    · rw [bind_of_ok hread]
      obtain ⟨rest, rfl, hleft⟩ := read_sent hfits hsent hreads hcomes
      -- the PDU that was read is the next of those sent
      have hwritten₁ : s₁.socket.written = before := hreads.took.written.trans hwritten
      have hexchanged : Exchanged s₁ before (pdu :: rest) later [] [pdu] rest [] [] :=
        .first rfl hleft (hwritten₁.trans (List.append_nil _).symm)
      by_cases hnack : pdu.commandId = genericNack
      · rw [if_pos hnack]
        have hresponse : ¬pdu.IsRequest := by
          unfold Pdu.IsRequest
          rw [hnack]
          decide
        exact .refused hexchanged hresponse (.inl hnack)
      rw [if_neg hnack]
      by_cases hrequest : pdu.commandId &&& responseBit = 0
      · rw [if_pos hrequest]
        rcases answer_cases pdu s₁ with ⟨hunbind, s₂, hanswer, hwrites⟩ |
          ⟨hunbind, s₂, hanswer, hwrites⟩ | ⟨fault, s₂, hanswer, hfault, hwrites⟩
        all_goals
          -- the answer takes nothing of what is still to be read
          have hleft₂ : s₂.socket.stream ++ later = rest.flatMap Pdu.encode := by
            rw [hwrites.sent.stream, hleft]
          have hwritten₂ := hwrites.sent.written
          rw [hwritten₁] at hwritten₂
        · -- the loop goes on behind the request that was answered
          rw [bind_of_ok hanswer]
          refine .cons ⟨hrequest, hunbind⟩ (ih s₂ (fun p hp => hfits p (List.mem_cons_of_mem _ hp))
            hleft₂ hwritten₂ (hwrites.sent.sends.trans (hreads.took.sends ▸ hsends)) ?_)
          have hlength := congrArg List.length hcomes.line
          have hfront := hcomes.length
          rw [List.length_append, hfront, headerSize] at hlength
          rw [hwrites.sent.heard]
          omega
        · rw [bind_of_error hanswer]
          exact .unbound (.first rfl hleft₂ hwritten₂) hunbind
        · rw [bind_of_error hanswer]
          exact .unanswered (.first rfl hleft₂ hwritten₂) hrequest
            (hsends.subset (hreads.took.sends ▸ hfault))
      · rw [if_neg hrequest]
        by_cases hwrong : pdu.commandId ≠ expected ∨ pdu.sequenceNumber ≠ sequence
        · rw [if_pos hwrong]
          exact .refused hexchanged hrequest (.inr hwrong)
        · rw [if_neg hwrong]
          obtain ⟨hcommand, hnumber⟩ := not_or.mp hwrong
          exact .returned hexchanged hrequest (not_not.mp hcommand) (not_not.mp hnumber)
    · rw [bind_of_error hread]
      obtain ⟨hleft, hcut⟩ := cut_sent hfits hsent hlost hcut
      have hwritten' : s'.socket.written = before := hlost.written.trans hwritten
      exact .interrupted (.first rfl hleft (hwritten'.trans (List.append_nil _).symm)) hcut
    · exact absurd hbad (not_misframed_sent hfits hsent hstream)

end Steps

def Session.nextNumber (s : Session) : UInt32 := s.sequence % 0x7FFFFFFF + 1

def Session.firstPdu (s : Session) (commandId : UInt32) (body : List UInt8) : Pdu :=
  { commandId, commandStatus := esmeRok, sequenceNumber := s.nextNumber, body }

theorem request_cases (commandId : UInt32) (body : List UInt8) (s : Session) :
    (∃ s₁, request commandId body s = await (commandId ||| responseBit) s.nextNumber
        (s.socket.now + s.timeout) s₁ ∧
      Sent s.socket s₁.socket [(s.firstPdu commandId body).encode] ∧ s₁.timeout = s.timeout ∧
      s₁.sequence = s.nextNumber) ∨
    ∃ fault s₁, request commandId body s = .error (.fault fault) s₁ ∧
      some fault ∈ s.socket.sends ∧ Sent s.socket s₁.socket [] := by
  have hnumber : nextSequence s = .ok s.nextNumber { s with sequence := s.nextNumber } := rfl
  unfold request
  rw [bind_of_ok hnumber]
  rcases write_cases (s.firstPdu commandId body) { s with sequence := s.nextNumber } with
    ⟨s₁, hwrite, hwrites⟩ | ⟨fault, s₁, hwrite, hfault, hwrites⟩
  · have hclock : monotonic s₁ = .ok s.socket.now s₁ := by
      show EStateM.Result.ok s₁.socket.now s₁ = _
      rw [hwrites.sent.now]
    refine .inl ⟨s₁, ?_, hwrites.sent, hwrites.timeout, hwrites.sequence⟩
    have htimeout : s₁.timeout = s.timeout := hwrites.timeout
    unfold Session.firstPdu at hwrite
    rw [bind_of_ok hwrite, bind_of_ok hclock]
    show await _ _ (s.socket.now + s₁.timeout) s₁ = _
    rw [htimeout]
  · exact .inr ⟨fault, s₁, bind_of_error hwrite, hfault, hwrites.sent⟩

/-- A request over the PDUs the SMSC sends, however they are cut into pieces: it is sent, and then
everything read is accounted for, or it could not be sent and nothing is read. -/
theorem request_ended (s : Session) (commandId : UInt32) (body : List UInt8) {pdus : List Pdu}
    {later : List UInt8} (hfits : ∀ p ∈ pdus, p.Fits)
    (hsent : s.socket.stream ++ later = pdus.flatMap Pdu.encode) :
    Ended (commandId ||| responseBit) s.nextNumber s.socket.sends
        (s.socket.written ++ [(s.firstPdu commandId body).encode]) pdus later
        (request commandId body s) ∨
      ∃ fault s', request commandId body s = .error (.fault fault) s' ∧
        some fault ∈ s.socket.sends ∧ s'.socket.stream = s.socket.stream ∧
        s'.socket.written = s.socket.written := by
  rcases request_cases commandId body s with ⟨s₁, hrequest, hout, -, -⟩ |
    ⟨fault, s₁, hrequest, hfault, hout⟩
  · have hsent₁ : s₁.socket.stream ++ later = pdus.flatMap Pdu.encode := by
      rw [hout.stream, hsent]
    rw [hrequest]
    exact .inl (awaitLoop_ended _ s₁ hfits hsent₁ hout.written hout.sends (Nat.lt_succ_self _))
  · have hwritten : s₁.socket.written = s.socket.written :=
      hout.written.trans (List.append_nil _)
    exact .inr ⟨fault, s₁, hrequest, hfault, hout.stream, hwritten⟩

namespace Lab

def enquiry : Pdu := { commandId := enquireLink, commandStatus := 0, sequenceNumber := 7 }

def bound : Pdu :=
  { commandId := bindTransceiverResp, commandStatus := 0, sequenceNumber := 1, body := [0x78, 0] }

def session : Session where
  socket :=
    { now := 0
      arrivals :=
        [⟨1, .octets 0 [0, 0]⟩,
         ⟨1, .octets 16 [0, 0, 0, 0x15, 0, 0, 0, 0, 0, 0, 0, 7, 0, 0, 0, 18, 0x80, 0, 0, 9]⟩,
         ⟨2, .octets 0 [0, 0, 0, 0, 0, 0, 1, 0x78, 0]⟩] }
  timeout := 10

theorem session_stream : session.socket.stream ++ [] = [enquiry, bound].flatMap Pdu.encode := by
  decide +kernel

theorem fits_sent : ∀ p ∈ [enquiry, bound], p.Fits := by
  intro p hp
  have hlength : p.body.length ≤ 2 := by
    rcases List.mem_cons.mp hp with rfl | hp
    · decide
    · rw [List.mem_singleton.mp hp]
      decide
  unfold Pdu.Fits headerSize maxPdu
  omega

example : ∃ s', request bindTransceiver [] session = .ok bound s' := ⟨_, rfl⟩

end Lab

theorem bind_ended :
    Ended (bindTransceiver ||| responseBit) Lab.session.nextNumber Lab.session.socket.sends
        (Lab.session.socket.written ++ [(Lab.session.firstPdu bindTransceiver []).encode])
        [Lab.enquiry, Lab.bound] [] (request bindTransceiver [] Lab.session) ∨
      ∃ fault s', request bindTransceiver [] Lab.session = .error (.fault fault) s' ∧
        some fault ∈ Lab.session.socket.sends ∧
        s'.socket.stream = Lab.session.socket.stream ∧
        s'.socket.written = Lab.session.socket.written :=
  request_ended Lab.session bindTransceiver [] Lab.fits_sent Lab.session_stream

end Acs.Smpp
