import Acs.Sms.Exchange
import Acs.Sms.SubmitSm

/-! Sending one message: bind, submit and unbind over one connection. -/

namespace Acs.Smpp
open Net

/-! ### The sender -/

structure SmsResult where
  provider : String
  messageId : String
  binary : Bool
deriving DecidableEq

structure SmsMessage where
  msisdn : String
  body : String
  smsPort : Option Int
  provider : String
  binary : Bool
deriving DecidableEq

/-- What is around the sender: the connection it gets, the keyed digest and how the timeout is
written. -/
structure Surroundings where
  connect : Except Fault Socket
  hexdigest : List UInt8 → String
  timeoutText : String

def messageReference (hexdigest : List UInt8 → String) (submitSmRespBody : List UInt8) : String :=
  let raw :=
    match submitSmRespBody.idxOf? 0 with
    | none => submitSmRespBody
    | some end' => submitSmRespBody.take end'
  s!"smpp-{String.ofList ((hexdigest raw).toList.take 16)}"

/-- `_unbind`, which catches whatever the request raises. -/
def unbindSession : Action Unit := fun session =>
  match request unbind [] session with
  | .ok _ session => .ok () session
  | .error _ session => .ok () session

namespace SmppSmsSender
variable (sender : SmppSmsSender)

def usableTimeout : Option Nat := (sender.timeout.filter (0 < ·)).map Int.toNat

def deliver (hexdigest : List UInt8 → String) (body : List UInt8) : Action String := do
  let bind ← request bindTransceiver sender.bindBody
  if bind.commandStatus ≠ esmeRok then
    fail s!"SMSC refused the bind, status {describeStatus bind.commandStatus}"
  else do
    let submit ← request submitSm body
    unbindSession
    if submit.commandStatus ≠ esmeRok then
      fail s!"SMSC refused submit_sm, status {describeStatus submit.commandStatus}"
    else return messageReference hexdigest submit.body

def attempt (env : Surroundings) (timeout : Nat) (body : List UInt8) : Except Raised String :=
  match env.connect with
  | .error fault => .error (.fault fault)
  | .ok socket =>
    match sender.deliver env.hexdigest body { socket, timeout } with
    | .ok reference _ => .ok reference
    | .error e _ => .error e

def handled (env : Surroundings) : Raised → Raised
  | .smpp e => .smpp e
  | .fault .timeout => .smpp ⟨s!"SMSC did not answer within {env.timeoutText}s"⟩
  | .fault (.os name) => .smpp ⟨s!"SMSC connection failed: {name}"⟩
  | .fault (.value name) => .smpp ⟨s!"SMPP transport refused: {name}"⟩
  | .fault (.overflow name) => .smpp ⟨s!"SMPP transport refused: {name}"⟩

def audit (request : SmsRequest) (reference : String) : Option SmsMessage :=
  if sender.store then
    some { msisdn := request.msisdn, body := s!"<redacted:{reference}>", smsPort := request.smsPort,
           provider := "smpp", binary := request.requiresBinary }
  else none

def send (env : Surroundings) (request : SmsRequest) :
    Except Raised (SmsResult × Option SmsMessage) :=
  if sender.host = "" then .error (.smpp ⟨"SMPP host is not configured"⟩)
  else
    match sender.usableTimeout with
    | none => .error (.smpp ⟨"SMPP timeout is not a positive finite number"⟩)
    | some timeout =>
      match sender.submitSmBody request with
      | .error e => .error (.smpp e)
      | .ok body =>
        match sender.attempt env timeout body with
        | .error e => .error (handled env e)
        | .ok reference =>
          .ok ({ provider := "smpp", messageId := reference, binary := request.requiresBinary },
            sender.audit request reference)

end SmppSmsSender

/-- Requests that are no unbind, and then a response, all of it in time. -/
structure Arrives (deadline : Nat) (line : Line) (requests : List Pdu) (response : Pdu)
    (front rest : Line) : Prop where
  line : line = front ++ rest
  octets : front.octets = requests.flatMap Pdu.encode ++ response.encode
  plain : ∀ r ∈ requests, r.Plain ∧ r.Fits
  fits : response.Fits
  early : ∀ b ∈ front, b.1 < deadline

/-- The bind and then the message are accepted, the requests being numbered from one on; what
comes behind that is left open. -/
def Accepted (timeout now : Nat) (line : Line) : Prop :=
  ∃ requests bound front rest, Arrives (now + timeout) line requests bound front rest ∧
    bound.commandId = bindTransceiverResp ∧ bound.commandStatus = esmeRok ∧
    bound.sequenceNumber = 1 ∧
  ∃ requests' submitted front' rest',
    Arrives (lastTime now front + timeout) rest requests' submitted front' rest' ∧
    submitted.commandId = submitSmResp ∧ submitted.commandStatus = esmeRok ∧
    submitted.sequenceNumber = 2

/-! ### Waiting for a response -/

structure Waited (s s' : Session) (front : Line) : Prop where
  heard : s.socket.heard = front ++ s'.socket.heard
  now : s'.socket.now = lastTime s.socket.now front
  sends : s'.socket.sends <:+ s.socket.sends
  timeout : s'.timeout = s.timeout
  sequence : s'.sequence = s.sequence

theorem Reads.waited {s s' : Session} {front : Line} (h : Reads s s' front) : Waited s s' front where
  heard := h.took.heard
  now := h.took.now
  sends := h.took.sends ▸ List.suffix_refl _
  timeout := h.timeout
  sequence := h.sequence

theorem Writes.waited {s s' : Session} {out : List (List UInt8)} (h : Writes s s' out) :
    Waited s s' [] where
  heard := h.sent.heard.symm
  now := h.sent.now
  sends := h.sent.sends
  timeout := h.timeout
  sequence := h.sequence

theorem Waited.trans {s s' s'' : Session} {front front' : Line} (h : Waited s s' front)
    (h' : Waited s' s'' front') : Waited s s'' (front ++ front') where
  heard := by rw [h.heard, h'.heard, List.append_assoc]
  now := by rw [h'.now, h.now, lastTime_append]
  sends := h'.sends.trans h.sends
  timeout := h'.timeout.trans h.timeout
  sequence := h'.sequence.trans h.sequence

def Open (s : Socket) : Prop := ∀ send ∈ s.sends, send = none

theorem Open.of_suffix {s s' : Socket} (h : Open s) (hsends : s'.sends <:+ s.sends) : Open s' :=
  fun send hsend => h send (hsends.subset hsend)

theorem Open.no_fault {s : Socket} (h : Open s) {fault : Fault} : some fault ∉ s.sends :=
  fun hfault => nomatch h _ hfault

section Arriving
variable {deadline : Nat} {line front rest : Line} {requests : List Pdu} {response r : Pdu}

theorem Comes.arrives (h : Comes deadline line response front rest) :
    Arrives deadline line [] response front rest :=
  ⟨h.line, h.octets, fun _ hr => absurd hr List.not_mem_nil, h.fits, h.early⟩

theorem Comes.cons_arrives {front' after : Line} (h : Comes deadline line r front' after)
    (hplain : r.Plain) (h' : Arrives deadline after requests response front rest) :
    Arrives deadline line (r :: requests) response (front' ++ front) rest where
  line := by rw [h.line, h'.line, List.append_assoc]
  octets := by rw [octets_concat, h.octets, h'.octets, List.flatMap_cons, List.append_assoc]
  plain := List.forall_mem_cons.mpr ⟨⟨hplain, h.fits⟩, h'.plain⟩
  fits := h'.fits
  early := fun b hb => (List.mem_append.mp hb).elim (h.early b) (h'.early b)

theorem Arrives.comes (h : Arrives deadline line [] response front rest) :
    Comes deadline line response front rest :=
  ⟨h.line, h.octets, h.fits, h.early⟩

theorem Arrives.uncons (h : Arrives deadline line (r :: requests) response front rest) :
    ∃ first front', front = first ++ front' ∧ Comes deadline line r first (front' ++ rest) ∧
      Arrives deadline (front' ++ rest) requests response front' rest := by
  have hoctets := h.octets
  rw [List.flatMap_cons, List.append_assoc] at hoctets
  obtain ⟨first, front', rfl, hfirst, hfront'⟩ := List.map_eq_append_iff.mp hoctets
  have hplain := List.forall_mem_cons.mp h.plain
  refine ⟨first, front', rfl, ⟨?_, hfirst, hplain.1.2, ?_⟩, ⟨rfl, hfront', hplain.2, h.fits, ?_⟩⟩
  · rw [h.line, List.append_assoc]
  · exact fun b hb => h.early b (List.mem_append_left _ hb)
  · exact fun b hb => h.early b (List.mem_append_right _ hb)

end Arriving

section Waiting
variable {expected sequence : UInt32} {deadline : Nat}

theorem awaitLoop_ok (turns : Nat) {s s' : Session} {pdu : Pdu}
    (h : awaitLoop expected sequence deadline turns s = .ok pdu s') :
    ∃ requests front, Arrives deadline s.socket.heard requests pdu front s'.socket.heard ∧
      pdu.commandId = expected ∧ pdu.sequenceNumber = sequence ∧ Waited s s' front := by
  induction turns generalizing s with
  | zero => cases h
  | succ turns ih =>
    unfold awaitLoop at h
    rcases read_cases deadline s with ⟨first, front, s₁, hread, hreads, hcomes⟩ |
      ⟨-, e, s₁, part, hread, -⟩
    · rw [bind_of_ok hread] at h
      split at h
      · cases h
      split at h
      · rename_i hrequest
        rcases answer_cases first s₁ with ⟨hunbind, s₂, hanswer, hwrites⟩ |
          ⟨-, s₂, hanswer, -⟩ | ⟨fault, s₂, hanswer, -, -⟩
        · rw [bind_of_ok hanswer] at h
          obtain ⟨requests, front', harrives, hcommand, hnumber, hwaited⟩ := ih h
          rw [hwrites.sent.heard] at harrives
          exact ⟨first :: requests, front ++ front',
            hcomes.cons_arrives ⟨hrequest, hunbind⟩ harrives, hcommand, hnumber,
            hreads.waited.trans (hwrites.waited.trans hwaited)⟩
        · rw [bind_of_error hanswer] at h
          cases h
        · rw [bind_of_error hanswer] at h
          cases h
      split at h
      · cases h
      · rename_i hright
        obtain ⟨hcommand, hnumber⟩ := not_or.mp hright
        cases h
        exact ⟨[], front, hcomes.arrives, not_not.mp hcommand, not_not.mp hnumber, hreads.waited⟩
    · rw [bind_of_error hread] at h
      cases h

theorem awaitLoop_of_arrives (requests : List Pdu) (turns : Nat) {s : Session} {response : Pdu}
    {front rest : Line} (hopen : Open s.socket) (hturns : s.socket.heard.length < turns)
    (h : Arrives deadline s.socket.heard requests response front rest)
    (hresponse : ¬response.IsRequest) (hnack : response.commandId ≠ genericNack)
    (hcommand : response.commandId = expected) (hnumber : response.sequenceNumber = sequence) :
    ∃ s', awaitLoop expected sequence deadline turns s = .ok response s' ∧ Waited s s' front ∧
      s'.socket.heard = rest := by
  induction requests generalizing s turns front with
  | nil =>
    obtain ⟨turns, rfl⟩ := Nat.exists_eq_add_of_lt hturns
    obtain ⟨s', hread, hreads, hrest⟩ := read_of_comes h.comes
    refine ⟨s', ?_, hreads.waited, hrest⟩
    have hright : ¬(response.commandId ≠ expected ∨ response.sequenceNumber ≠ sequence) :=
      not_or.mpr ⟨not_not.mpr hcommand, not_not.mpr hnumber⟩
    unfold awaitLoop
    unfold Pdu.IsRequest at hresponse
    rw [bind_of_ok hread, if_neg hnack, if_neg hresponse, if_neg hright]
    rfl
  | cons r requests ih =>
    obtain ⟨turns, rfl⟩ := Nat.exists_eq_add_of_lt hturns
    obtain ⟨first, front', rfl, hcomes, harrives⟩ := h.uncons
    obtain ⟨⟨hrequest, hunbind⟩, -⟩ := h.plain r (List.mem_cons_self ..)
    obtain ⟨s₁, hread, hreads, hheard⟩ := read_of_comes hcomes
    unfold Pdu.IsRequest at hrequest
    have hnotNack : r.commandId ≠ genericNack := by
      intro heq
      rw [heq] at hrequest
      exact absurd hrequest (by decide)
    have hopen₁ : Open s₁.socket := hopen.of_suffix hreads.waited.sends
    rcases answer_cases r s₁ with ⟨-, s₂, hanswer, hwrites⟩ | ⟨hbad, -⟩ |
      ⟨fault, s₂, -, hfault, -⟩
    -- the request is answered, and fewer octets are left to be read
    · have hheard₂ : s₂.socket.heard = front' ++ rest := by rw [hwrites.sent.heard, hheard]
      have hlength : s₂.socket.heard.length < s.socket.heard.length := by
        have hline := congrArg List.length hcomes.line
        have hfirst := hcomes.length
        rw [List.length_append, hfirst, headerSize, ← hheard₂] at hline
        omega
      obtain ⟨s', hloop, hwaited, hrest⟩ := ih (s.socket.heard.length + turns)
        (hopen₁.of_suffix hwrites.waited.sends) (by omega) (hheard₂ ▸ harrives)
      refine ⟨s', ?_, hreads.waited.trans (hwrites.waited.trans hwaited), hrest⟩
      unfold awaitLoop
      rw [bind_of_ok hread, if_neg hnotNack, if_pos hrequest, bind_of_ok hanswer]
      exact hloop
    · exact absurd hbad hunbind
    · exact absurd hfault hopen₁.no_fault

end Waiting

section Requests
variable {s s' : Session} {commandId : UInt32} {body : List UInt8} {response : Pdu}

theorem request_ok (hopen : Open s.socket) (h : request commandId body s = .ok response s') :
    ∃ requests front,
      Arrives (s.socket.now + s.timeout) s.socket.heard requests response front s'.socket.heard ∧
      response.commandId = commandId ||| responseBit ∧ response.sequenceNumber = s.nextNumber ∧
      s'.socket.now = lastTime s.socket.now front ∧ s'.timeout = s.timeout ∧
      s'.sequence = s.nextNumber ∧ Open s'.socket := by
  rcases request_cases commandId body s with ⟨s₁, hrequest, hout, htimeout, hsequence⟩ |
    ⟨fault, s₁, hrequest, -, -⟩
  · rw [hrequest] at h
    obtain ⟨requests, front, harrives, hcommand, hnumber, hwaited⟩ := awaitLoop_ok _ h
    rw [hout.heard] at harrives
    refine ⟨requests, front, harrives, hcommand, hnumber, ?_, hwaited.timeout.trans htimeout,
      hwaited.sequence.trans hsequence, hopen.of_suffix (hwaited.sends.trans hout.sends)⟩
    rw [hwaited.now, hout.now]
  · rw [hrequest] at h
    cases h

theorem request_of_arrives (hopen : Open s.socket) {requests : List Pdu} {front rest : Line}
    (h : Arrives (s.socket.now + s.timeout) s.socket.heard requests response front rest)
    (hresponse : ¬response.IsRequest) (hnack : response.commandId ≠ genericNack)
    (hcommand : response.commandId = commandId ||| responseBit)
    (hnumber : response.sequenceNumber = s.nextNumber) :
    ∃ s', request commandId body s = .ok response s' ∧ s'.socket.heard = rest ∧
      s'.socket.now = lastTime s.socket.now front ∧ s'.timeout = s.timeout ∧
      s'.sequence = s.nextNumber ∧ Open s'.socket := by
  rcases request_cases commandId body s with ⟨s₁, hrequest, hout, htimeout, hsequence⟩ |
    ⟨fault, s₁, -, hfault, -⟩
  · obtain ⟨s', hloop, hwaited, hrest⟩ := awaitLoop_of_arrives requests
      (s₁.socket.heard.length + 1) (hopen.of_suffix hout.sends) (Nat.lt_succ_self _)
      (hout.heard.symm ▸ h) hresponse hnack hcommand hnumber
    refine ⟨s', hrequest.trans hloop, hrest, ?_, hwaited.timeout.trans htimeout,
      hwaited.sequence.trans hsequence, hopen.of_suffix (hwaited.sends.trans hout.sends)⟩
    rw [hwaited.now, hout.now]
  · exact absurd hfault hopen.no_fault

theorem unbindSession_ok (s : Session) : ∃ s', unbindSession s = .ok () s' := by
  unfold unbindSession
  cases request unbind [] s with
  | ok _ s' => exact ⟨s', rfl⟩
  | error _ s' => exact ⟨s', rfl⟩

end Requests

section Outcome
variable {sender : SmppSmsSender} {socket : Socket} {timeout : Nat} {body : List UInt8}
  {hexdigest : List UInt8 → String}

/-- The message is delivered exactly where the SMSC accepts the bind and then the message. -/
theorem deliver_iff (hopen : Open socket) :
    (∃ reference s', sender.deliver hexdigest body { socket, timeout } = .ok reference s') ↔
      Accepted timeout socket.now socket.heard := by
  unfold SmppSmsSender.deliver
  constructor
  · rintro ⟨reference, s', h⟩
    cases hbind : request bindTransceiver sender.bindBody { socket, timeout } with
    | error e s₁ =>
      rw [bind_of_error hbind] at h
      cases h
    | ok bound s₁ =>
      rw [bind_of_ok hbind] at h
      split at h
      -- any status but zero is an error
      · cases h
      rename_i hstatus
      cases hsubmit : request submitSm body s₁ with
      | error e s₂ =>
        rw [bind_of_error hsubmit] at h
        cases h
      | ok submitted s₂ =>
        rw [bind_of_ok hsubmit] at h
        obtain ⟨s₃, hunbind⟩ := unbindSession_ok s₂
        rw [bind_of_ok hunbind] at h
        split at h
        · cases h
        rename_i hstatus'
        -- what was returned has arrived, in the time left to it
        obtain ⟨requests, front, harrives, hcommand, hnumber, hnow, htimeout, hsequence, hopen₁⟩ :=
          request_ok hopen hbind
        obtain ⟨requests', front', harrives', hcommand', hnumber', -⟩ := request_ok hopen₁ hsubmit
        rw [hnow, htimeout] at harrives'
        rw [Session.nextNumber, hsequence] at hnumber'
        exact ⟨requests, bound, front, _, harrives, hcommand, not_not.mp hstatus, hnumber, requests',
          submitted, front', _, harrives', hcommand', not_not.mp hstatus', hnumber'⟩
  · rintro ⟨requests, bound, front, rest, harrives, hcommand, hstatus, hnumber, requests',
      submitted, front', rest', harrives', hcommand', hstatus', hnumber'⟩
    obtain ⟨s₁, hbind, hheard, hnow, htimeout, hsequence, hopen₁⟩ :=
      @request_of_arrives { socket, timeout } bindTransceiver sender.bindBody bound hopen requests
        front rest harrives (by unfold Pdu.IsRequest; rw [hcommand]; decide)
        (by rw [hcommand]; decide) hcommand hnumber
    have hsubmission : Arrives (s₁.socket.now + s₁.timeout) s₁.socket.heard requests' submitted
        front' rest' := by
      rw [hnow, htimeout, hheard]
      exact harrives'
    -- the requests of a session are numbered from one on
    have hsecond : submitted.sequenceNumber = s₁.nextNumber := by
      rw [Session.nextNumber, hsequence]
      exact hnumber'
    obtain ⟨s₂, hsubmit, -⟩ := @request_of_arrives s₁ submitSm body submitted hopen₁ requests'
      front' rest' hsubmission (by unfold Pdu.IsRequest; rw [hcommand']; decide)
      (by rw [hcommand']; decide) hcommand' hsecond
    obtain ⟨s₃, hunbind⟩ := unbindSession_ok s₂
    refine ⟨messageReference hexdigest submitted.body, s₃, ?_⟩
    rw [bind_of_ok hbind, if_neg (not_not.mpr hstatus), bind_of_ok hsubmit, bind_of_ok hunbind,
      if_neg (not_not.mpr hstatus')]
    rfl

theorem attempt_iff {env : Surroundings} (hopen : ∀ socket, env.connect = .ok socket → Open socket) :
    (∃ reference, sender.attempt env timeout body = .ok reference) ↔
      ∃ socket, env.connect = .ok socket ∧ Accepted timeout socket.now socket.heard := by
  unfold SmppSmsSender.attempt
  cases hconnect : env.connect with
  | error fault => exact ⟨fun ⟨_, h⟩ => (nomatch h), fun ⟨_, h, _⟩ => nomatch h⟩
  | ok socket =>
    have hdeliver := @deliver_iff sender socket timeout body env.hexdigest (hopen socket hconnect)
    have hsocket : (∃ socket', (.ok socket : Except Fault Socket) = .ok socket' ∧
        Accepted timeout socket'.now socket'.heard) ↔ Accepted timeout socket.now socket.heard :=
      ⟨fun ⟨_, h, haccepted⟩ => Except.ok.inj h ▸ haccepted, fun h => ⟨socket, rfl, h⟩⟩
    rw [hsocket, ← hdeliver]
    constructor
    · rintro ⟨reference, h⟩
      cases hresult : sender.deliver env.hexdigest body { socket, timeout } with
      | ok reference s' => exact ⟨reference, s', rfl⟩
      | error e s' =>
        dsimp only at h
        rw [hresult] at h
        cases h
    · rintro ⟨reference, s', hresult⟩
      refine ⟨reference, ?_⟩
      dsimp only
      rw [hresult]

theorem handled_smpp (env : Surroundings) (e : Raised) :
    ∃ error, SmppSmsSender.handled env e = .smpp error := by
  rcases e with e | _ | _ | _ | _ <;> exact ⟨_, rfl⟩

theorem send_error {env : Surroundings} {request : SmsRequest} {e : Raised}
    (h : sender.send env request = .error e) : ∃ error, e = .smpp error := by
  unfold SmppSmsSender.send at h
  split at h
  · cases h
    exact ⟨_, rfl⟩
  split at h
  · cases h
    exact ⟨_, rfl⟩
  split at h
  · cases h
    exact ⟨_, rfl⟩
  split at h
  · cases h
    exact handled_smpp env _
  · cases h

def SmppSmsSender.IsAccepted (sender : SmppSmsSender) (env : Surroundings) : Prop :=
  sender.host ≠ "" ∧ ∃ timeout, sender.usableTimeout = some timeout ∧
    ∃ socket, env.connect = .ok socket ∧ Accepted timeout socket.now socket.heard

/-- A message that can be encoded is sent exactly where the SMSC accepts it, and otherwise the
sender raises its own exception. -/
theorem send_iff {env : Surroundings} {request : SmsRequest}
    (hbody : sender.submitSmBody request = .ok body)
    (hopen : ∀ socket, env.connect = .ok socket → Open socket) :
    ((∃ result, sender.send env request = .ok result) ↔ sender.IsAccepted env) ∧
      (¬sender.IsAccepted env → ∃ error, sender.send env request = .error (.smpp error)) := by
  have hiff : (∃ result, sender.send env request = .ok result) ↔ sender.IsAccepted env := by
    unfold SmppSmsSender.send SmppSmsSender.IsAccepted
    by_cases hhost : sender.host = ""
    · rw [if_pos hhost]
      exact ⟨fun ⟨_, h⟩ => (nomatch h), fun ⟨h, _⟩ => absurd hhost h⟩
    rw [if_neg hhost]
    cases htimeout : sender.usableTimeout with
    | none => exact ⟨fun ⟨_, h⟩ => (nomatch h), fun ⟨_, _, h, _⟩ => nomatch h⟩
    | some timeout =>
      have hattempt := @attempt_iff sender timeout body env hopen
      dsimp only
      rw [hbody]
      constructor
      · rintro ⟨result, h⟩
        refine ⟨hhost, timeout, rfl, hattempt.mp ?_⟩
        cases hresult : sender.attempt env timeout body with
        | ok reference => exact ⟨reference, rfl⟩
        | error e =>
          dsimp only at h
          rw [hresult] at h
          cases h
      · rintro ⟨-, _, hsame, haccepted⟩
        cases hsame
        obtain ⟨reference, hresult⟩ := hattempt.mpr haccepted
        dsimp only
        rw [hresult]
        exact ⟨_, rfl⟩
  refine ⟨hiff, fun hnot => ?_⟩
  cases hsend : sender.send env request with
  | error e =>
    obtain ⟨error, rfl⟩ := send_error hsend
    exact ⟨error, rfl⟩
  | ok result => exact absurd (hiff.mp ⟨result, hsend⟩) hnot

end Outcome

namespace Lab

def surroundings : Surroundings where
  connect := .ok
    { now := 0
      arrivals :=
        [⟨1, .octets 0 [0, 0, 17, 0x80, 0, 0, 9, 0, 0, 0, 0, 0, 0, 0, 1, 0]⟩,
         ⟨2, .octets 0 [0, 0, 16, 0, 0, 0, 0x15, 0, 0, 0, 0, 0, 0, 0, 9, 0, 0, 0, 17, 0x80, 0, 0, 4, 0,
           0, 0, 0, 0, 0, 0, 2, 0xFF]⟩,
         ⟨1, .octets 0xFF [0xFF, 0xFF]⟩,
         ⟨1, .failed (.os "ConnectionResetError")⟩] }
  hexdigest := fun _ => "0123456789abcdef0123"
  timeoutText := "10"

theorem open_surroundings : ∀ socket, surroundings.connect = .ok socket → Open socket := by
  intro socket hsocket send hsend
  cases hsocket
  cases hsend

example : (sender.send surroundings request).toOption =
    some (⟨"smpp", "smpp-0123456789abcdef", true⟩, none) := by
  decide +kernel

end Lab

theorem request_sent_iff :
    ((∃ result, Lab.sender.send Lab.surroundings Lab.request = .ok result) ↔
        Lab.sender.IsAccepted Lab.surroundings) ∧
      (¬Lab.sender.IsAccepted Lab.surroundings →
        ∃ error, Lab.sender.send Lab.surroundings Lab.request = .error (.smpp error)) :=
  send_iff Lab.submitSmBody_request Lab.open_surroundings

end Acs.Smpp
