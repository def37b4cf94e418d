import Acs.Data.Socket
import Acs.Sms.Smpp

/-! One bound connection: its sequence numbers, its read loop and the answers to the SMSC. -/

namespace Acs.Smpp
open Net

inductive Raised
  | smpp (e : SmppError)
  | fault (f : Fault)
deriving DecidableEq

structure Session where
  socket : Socket
  timeout : Nat
  sequence : UInt32 := 0

abbrev Action := EStateM Raised Session

section Actions
variable {α β : Type}

def onSocket (operation : Socket → Except Fault α × Socket) : Action α := fun session =>
  match operation session.socket with
  | (.ok a, socket) => .ok a { session with socket }
  | (.error fault, socket) => .error (.fault fault) { session with socket }

def fail (text : String) : Action α := throw (.smpp ⟨text⟩)

def monotonic : Action Nat := fun session => .ok session.socket.now session

def nextSequence : Action UInt32 := fun session =>
  let sequence := session.sequence % 0x7FFFFFFF + 1
  .ok sequence { session with sequence }

def write (pdu : Pdu) : Action Unit := onSocket (·.sendall pdu.encode)

/-- Every turn that goes on has received an octet, so that as many turns as octets are enough. -/
def readExactLoop (size deadline : Nat) : Nat → List UInt8 → Action (List UInt8)
  | 0, chunks => pure chunks
  | turns + 1, chunks =>
    if size ≤ chunks.length then pure chunks
    else do
      let now ← monotonic
      if deadline ≤ now then throw (.fault .timeout)
      else do
        let chunk ← onSocket (·.recv (size - chunks.length) (deadline - now))
        if chunk = [] then fail "SMSC closed the connection"
        else readExactLoop size deadline turns (chunks ++ chunk)

def readExact (size deadline : Nat) : Action (List UInt8) := readExactLoop size deadline size []

def unpackWord (octets : List UInt8) : UInt32 := UInt32.ofNat (Octets.value octets)

def read (deadline : Nat) : Action Pdu := do
  let header ← readExact headerSize deadline
  let length := Octets.value (header.take 4)
  let commandId := unpackWord ((header.drop 4).take 4)
  let status := unpackWord ((header.drop 8).take 4)
  let sequence := unpackWord (header.drop 12)
  if length < headerSize ∨ maxPdu < length then do
    write { commandId := genericNack, commandStatus := esmeRinvcmdlen, sequenceNumber := sequence }
    fail "SMSC sent an invalid command_length"
  else do
    let body ← readExact (length - headerSize) deadline
    return { commandId, commandStatus := status, sequenceNumber := sequence, body }

def answer (pdu : Pdu) : Action Unit :=
  if pdu.commandId = enquireLink then
    write { commandId := enquireLinkResp, commandStatus := esmeRok,
            sequenceNumber := pdu.sequenceNumber }
  else if pdu.commandId = unbind then do
    write { commandId := unbindResp, commandStatus := esmeRok,
            sequenceNumber := pdu.sequenceNumber }
    fail "SMSC unbound the session before responding"
  else if pdu.commandId = deliverSm then
    write { commandId := deliverSmResp, commandStatus := esmeRxTAppn,
            sequenceNumber := pdu.sequenceNumber, body := [0] }
  else
    write { commandId := genericNack, commandStatus := esmeRinvcmdid,
            sequenceNumber := pdu.sequenceNumber }

/-- The loop of `request`; every turn that goes on has read a PDU. -/
def awaitLoop (expected sequence : UInt32) (deadline : Nat) : Nat → Action Pdu
  | 0 => throw (.fault .timeout)
  | turns + 1 => do
    let pdu ← read deadline
    if pdu.commandId = genericNack then
      fail s!"SMSC answered generic_nack, status {describeStatus pdu.commandStatus}"
    else if pdu.commandId &&& responseBit = 0 then do
      answer pdu
      awaitLoop expected sequence deadline turns
    else if pdu.commandId ≠ expected ∨ pdu.sequenceNumber ≠ sequence then
      fail "unexpected SMPP response: command or sequence mismatch"
    else return pdu

/-- Wait for the response; what can still be read bounds the turns. -/
def await (expected sequence : UInt32) (deadline : Nat) : Action Pdu := fun session =>
  awaitLoop expected sequence deadline (session.socket.heard.length + 1) session

def request (commandId : UInt32) (body : List UInt8) : Action Pdu := do
  let sequence ← nextSequence
  write { commandId, commandStatus := esmeRok, sequenceNumber := sequence, body }
  let now ← monotonic
  let session ← get
  await (commandId ||| responseBit) sequence (now + session.timeout)

theorem bind_of_ok {x : Action α} {f : α → Action β} {s s' : Session} {a : α}
    (h : x s = .ok a s') : (x >>= f) s = f a s' := by
  show EStateM.bind x f s = _
  unfold EStateM.bind
  rw [h]

theorem bind_of_error {x : Action α} {f : α → Action β} {s s' : Session} {e : Raised}
    (h : x s = .error e s') : (x >>= f) s = .error e s' := by
  show EStateM.bind x f s = _
  unfold EStateM.bind
  rw [h]

theorem onSocket_ok {operation : Socket → Except Fault α × Socket} {s : Session} {socket : Socket}
    {a : α} (h : operation s.socket = (.ok a, socket)) :
    onSocket operation s = .ok a { s with socket } := by
  unfold onSocket
  rw [h]

theorem onSocket_error {operation : Socket → Except Fault α × Socket} {s : Session}
    {socket : Socket} {fault : Fault} (h : operation s.socket = (.error fault, socket)) :
    onSocket operation s = .error (.fault fault) { s with socket } := by
  unfold onSocket
  rw [h]

end Actions

structure Reads (s s' : Session) (front : Line) : Prop where
  took : Took s.socket s'.socket front
  timeout : s'.timeout = s.timeout
  sequence : s'.sequence = s.sequence

theorem Reads.refl (s : Session) : Reads s s [] := ⟨.refl _, rfl, rfl⟩

theorem Reads.trans {s s' s'' : Session} {front front' : Line} (h : Reads s s' front)
    (h' : Reads s' s'' front') : Reads s s'' (front ++ front') :=
  ⟨h.took.trans h'.took, h'.timeout.trans h.timeout, h'.sequence.trans h.sequence⟩

theorem length_octets (line : Line) : line.octets.length = line.length := List.length_map ..

theorem octets_concat (front rest : Line) : Line.octets (front ++ rest) = front.octets ++ rest.octets :=
  List.map_append

section ReadExact
variable {size deadline : Nat}

theorem readExactLoop_cases (turns : Nat) (chunks : List UInt8) (s : Session)
    (hturns : size ≤ chunks.length + turns) (hchunks : chunks.length ≤ size) :
    (∃ front s', readExactLoop size deadline turns chunks s = .ok (chunks ++ front.octets) s' ∧
      Reads s s' front ∧ chunks.length + front.length = size ∧ ∀ b ∈ front, b.1 < deadline) ∨
    ¬InTime (size - chunks.length) deadline s.socket.heard ∧
      ∃ e s' part, readExactLoop size deadline turns chunks s = .error e s' ∧
        Lost s.socket s'.socket part ∧ chunks.length + part.length < size := by
  induction turns generalizing chunks s with
  | zero =>
    refine .inl ⟨[], s, ?_, .refl s, by simp only [List.length_nil]; omega,
      fun b hb => absurd hb List.not_mem_nil⟩
    exact congrArg (EStateM.Result.ok · s) (List.append_nil chunks).symm
  | succ turns ih =>
    by_cases hdone : size ≤ chunks.length
    · refine .inl ⟨[], s, ?_, .refl s, by simp only [List.length_nil]; omega,
        fun b hb => absurd hb List.not_mem_nil⟩
      rw [readExactLoop, if_pos hdone, Line.octets, List.map_nil, List.append_nil]
      rfl
    have hmissing : 0 < size - chunks.length := by omega
    rw [readExactLoop, if_neg hdone, bind_of_ok (show monotonic s = .ok s.socket.now s from rfl)]
    by_cases hlate : deadline ≤ s.socket.now
    · rw [if_pos hlate]
      refine .inr ⟨fun htime => ?_, _, s, [], rfl, ⟨rfl, rfl, rfl⟩, ?_⟩
      · obtain ⟨b, hb, hearly⟩ := htime.head hmissing
        have hnow := now_le_heardFrom (List.mem_of_mem_head? hb)
        omega
      · rw [List.length_nil]
        omega
    rw [if_neg hlate]
    have hdeadline : s.socket.now + (deadline - s.socket.now) = deadline := by omega
    rcases @recv_cases s.socket _ (deadline - s.socket.now) hmissing with
      ⟨front, socket, hrecv, htook, hne, hfits, hearly⟩ | ⟨hhead, socket, hrecv, hlost⟩
    · -- octets came: go on with what is still missing
      have hchunk : front.octets ≠ [] := List.map_eq_nil_iff.not.mpr hne
      have hread : Reads s { s with socket } front := ⟨htook, rfl, rfl⟩
      rw [bind_of_ok (onSocket_ok hrecv), if_neg hchunk]
      have hpos : 0 < front.length := List.length_pos_iff.mpr hne
      have hlength : (chunks ++ front.octets).length = chunks.length + front.length := by
        rw [List.length_append, length_octets]
      rcases ih (chunks ++ front.octets) { s with socket } (by omega) (by omega) with
        ⟨front', s', hloop, hrest, hsize, hearly'⟩ | ⟨htime, e, s', part, hloop, hlost, hsize⟩
      · refine .inl ⟨front ++ front', s', ?_, hread.trans hrest, ?_, ?_⟩
        · rw [hloop, octets_concat, List.append_assoc]
        · rw [List.length_append]
          omega
        · intro b hb
          rcases List.mem_append.mp hb with hb | hb
          · exact hdeadline ▸ hearly b hb
          · exact hearly' b hb
      · refine .inr ⟨fun hall => htime ?_, e, s', front.octets ++ part, hloop,
          htook.lost hlost, ?_⟩
        · rw [htook.heard] at hall
          rw [hlength]
          refine @InTime.tail _ _ front _ ?_
          have hsum : front.length + (size - (chunks.length + front.length)) =
              size - chunks.length := by omega
          rwa [hsum]
        · rw [List.length_append, length_octets]
          omega
    · -- nothing came in time, or the end
      have htime : ¬InTime (size - chunks.length) deadline s.socket.heard := by
        intro htime
        obtain ⟨b, hb, hearly⟩ := htime.head hmissing
        have hbad := hhead b hb
        omega
      have hpart : chunks.length + ([] : List UInt8).length < size := by
        rw [List.length_nil]
        omega
      rcases hrecv with hrecv | ⟨fault, hrecv⟩
      · rw [bind_of_ok (onSocket_ok hrecv), if_pos rfl]
        exact .inr ⟨htime, _, _, [], rfl, hlost, hpart⟩
      · rw [bind_of_error (onSocket_error hrecv)]
        exact .inr ⟨htime, _, _, [], rfl, hlost, hpart⟩

theorem readExact_cases (size deadline : Nat) (s : Session) :
    (∃ front s', readExact size deadline s = .ok front.octets s' ∧ Reads s s' front ∧
      front.length = size ∧ ∀ b ∈ front, b.1 < deadline) ∨
    ¬InTime size deadline s.socket.heard ∧ ∃ e s' part, readExact size deadline s = .error e s' ∧
      Lost s.socket s'.socket part ∧ part.length < size := by
  rcases @readExactLoop_cases size deadline size [] s (Nat.zero_add _).ge (Nat.zero_le _) with
    ⟨front, s', hloop, hreads, hsize, hearly⟩ | ⟨htime, e, s', part, hloop, hlost, hsize⟩
  · exact .inl ⟨front, s', hloop, hreads, (Nat.zero_add _).symm.trans hsize, hearly⟩
  · exact .inr ⟨htime, e, s', part, hloop, hlost, (Nat.zero_add _).symm.trans_lt hsize⟩

end ReadExact

def Pdu.Fits (pdu : Pdu) : Prop := headerSize + pdu.body.length ≤ maxPdu

theorem packWord_unpackWord {octets : List UInt8} (h : octets.length = 4) :
    packWord (unpackWord octets) = octets := by
  have hvalue : (unpackWord octets).toNat = Octets.value octets := by
    have hlt := Octets.value_lt octets
    rw [h] at hlt
    exact UInt32.toNat_ofNat_of_lt' hlt
  rw [packWord, hvalue, ← h, Octets.bigEndian_value]

theorem unpackWord_packWord (word : UInt32) : unpackWord (packWord word) = word := by
  have hvalue : Octets.value (packWord word) = word.toNat :=
    Octets.value_bigEndian_of_lt word.toNat_lt
  rw [unpackWord, hvalue, UInt32.ofNat_toNat]

theorem length_packWord (word : UInt32) : (packWord word).length = 4 := Octets.length_bigEndian ..

theorem value_take_encode {pdu : Pdu} (h : pdu.Fits) (rest : List UInt8) :
    Octets.value ((pdu.encode ++ rest).take 4) = headerSize + pdu.body.length := by
  have hlt : headerSize + pdu.body.length < 256 ^ 4 := Nat.lt_of_le_of_lt h (by decide)
  have htake : (pdu.encode ++ rest).take 4 =
      Octets.bigEndian 4 (headerSize + pdu.body.length) := by
    simp only [Pdu.encode, List.append_assoc]
    exact List.take_left' (Octets.length_bigEndian ..)
  rw [htake, Octets.value_bigEndian_of_lt hlt]

theorem encode_unpacked {header body : List UInt8} (hheader : header.length = headerSize)
    (hbody : headerSize + body.length = Octets.value (header.take 4)) :
    Pdu.encode { commandId := unpackWord ((header.drop 4).take 4)
                 commandStatus := unpackWord ((header.drop 8).take 4)
                 sequenceNumber := unpackWord (header.drop 12), body } = header ++ body := by
  have hsize : header.length = 16 := hheader
  have hfirst : Octets.bigEndian 4 (Octets.value (header.take 4)) = header.take 4 := by
    have hlength : (header.take 4).length = 4 := by rw [List.length_take]; omega
    have h := Octets.bigEndian_value (header.take 4)
    rwa [hlength] at h
  have hsecond : ((header.drop 4).take 4).length = 4 := by
    rw [List.length_take, List.length_drop]; omega
  have hthird : ((header.drop 8).take 4).length = 4 := by
    rw [List.length_take, List.length_drop]; omega
  have hfourth : (header.drop 12).length = 4 := by rw [List.length_drop]; omega
  have hjoined : header.take 4 ++ ((header.drop 4).take 4 ++ ((header.drop 8).take 4 ++
      header.drop 12)) = header := by
    have h8 : (header.drop 8).take 4 ++ header.drop 12 = header.drop 8 := by
      rw [show header.drop 12 = (header.drop 8).drop 4 by rw [List.drop_drop],
        List.take_append_drop]
    have h4 : (header.drop 4).take 4 ++ header.drop 8 = header.drop 4 := by
      rw [show header.drop 8 = (header.drop 4).drop 4 by rw [List.drop_drop],
        List.take_append_drop]
    rw [h8, h4, List.take_append_drop]
  simp only [Pdu.encode]
  rw [hbody, hfirst, packWord_unpackWord hsecond, packWord_unpackWord hthird,
    packWord_unpackWord hfourth]
  simp only [List.append_assoc]
  rw [← List.append_assoc ((header.drop 8).take 4), ← List.append_assoc ((header.drop 4).take 4),
    ← List.append_assoc (header.take 4), hjoined]

theorem encode_append_inj {pdu pdu' : Pdu} {rest rest' : List UInt8} (h : pdu.Fits)
    (h' : pdu'.Fits) (heq : pdu.encode ++ rest = pdu'.encode ++ rest') :
    pdu = pdu' ∧ rest = rest' := by
  have hlength : pdu.encode.length = pdu'.encode.length := by
    rw [length_encode, length_encode, ← value_take_encode h rest, ← value_take_encode h' rest', heq]
  obtain ⟨hencode, hrest⟩ := List.append_inj heq hlength
  refine ⟨?_, hrest⟩
  obtain ⟨command, status, sequence, body⟩ := pdu
  obtain ⟨command', status', sequence', body'⟩ := pdu'
  obtain ⟨hencode, rfl⟩ := List.append_inj' hencode
    (by rw [length_encode, length_encode] at hlength; exact Nat.add_left_cancel hlength)
  obtain ⟨hencode, hsequence⟩ := List.append_inj' hencode
    ((length_packWord _).trans (length_packWord _).symm)
  obtain ⟨hencode, hstatus⟩ := List.append_inj' hencode
    ((length_packWord _).trans (length_packWord _).symm)
  obtain ⟨-, hcommand⟩ := List.append_inj' hencode
    ((length_packWord _).trans (length_packWord _).symm)
  have hword : ∀ {word word' : UInt32}, packWord word = packWord word' → word = word' := by
    intro word word' heq
    rw [← unpackWord_packWord word, heq, unpackWord_packWord]
  obtain rfl : command = command' := hword hcommand
  obtain rfl : status = status' := hword hstatus
  obtain rfl : sequence = sequence' := hword hsequence
  rfl

/-! ### Reading a PDU -/

/-- Octets that are not enough for the PDU they begin. -/
def Cut (part : List UInt8) : Prop :=
  part.length < headerSize ∨ part.length < Octets.value (part.take 4)

/-- Octets that begin with a length no PDU has. -/
def Misframed (part : List UInt8) : Prop :=
  headerSize ≤ part.length ∧
    (Octets.value (part.take 4) < headerSize ∨ maxPdu < Octets.value (part.take 4))

section Parts
variable {part rest rest' : List UInt8} {pdu : Pdu}

theorem value_take_part (hfits : pdu.Fits) (heq : part ++ rest = pdu.encode ++ rest')
    (hheader : headerSize ≤ part.length) :
    Octets.value (part.take 4) = headerSize + pdu.body.length := by
  have hlength : 4 ≤ part.length := Nat.le_trans (by decide) hheader
  have hvalue := value_take_encode hfits rest'
  rwa [← heq, List.take_append_of_le_length hlength] at hvalue

theorem Cut.short (hcut : Cut part) (hfits : pdu.Fits) (heq : part ++ rest = pdu.encode ++ rest') :
    part.length < pdu.encode.length := by
  rw [length_encode]
  by_cases hshort : part.length < headerSize
  · exact Nat.lt_of_lt_of_le hshort (Nat.le_add_right ..)
  · have hlt := hcut.resolve_left hshort
    rwa [value_take_part hfits heq (Nat.le_of_not_lt hshort)] at hlt

theorem Misframed.not_encode (hbad : Misframed part) (hfits : pdu.Fits) :
    part ++ rest ≠ pdu.encode ++ rest' := by
  intro heq
  obtain ⟨hheader, hbad⟩ := hbad
  rw [value_take_part hfits heq hheader] at hbad
  have hlimit : headerSize + pdu.body.length ≤ maxPdu := hfits
  omega

end Parts

structure Writes (s s' : Session) (out : List (List UInt8)) : Prop where
  sent : Sent s.socket s'.socket out
  timeout : s'.timeout = s.timeout
  sequence : s'.sequence = s.sequence

theorem write_cases (pdu : Pdu) (s : Session) :
    (∃ s', write pdu s = .ok () s' ∧ Writes s s' [pdu.encode]) ∨
    ∃ fault s', write pdu s = .error (.fault fault) s' ∧ some fault ∈ s.socket.sends ∧
      Writes s s' [] := by
  rcases sendall_cases s.socket pdu.encode with ⟨socket, hsend, hsent⟩ |
    ⟨fault, socket, hsend, hfault, hsent⟩
  · exact .inl ⟨_, onSocket_ok hsend, hsent, rfl, rfl⟩
  · exact .inr ⟨fault, _, onSocket_error hsend, hfault, hsent, rfl, rfl⟩

theorem write_fail {α : Type} (pdu : Pdu) (text : String) (s : Session) :
    ∃ e s', (write pdu >>= fun _ => (fail text : Action α)) s = .error e s' ∧
      s'.socket.stream = s.socket.stream := by
  rcases write_cases pdu s with ⟨s', hwrite, hwrites⟩ | ⟨fault, s', hwrite, -, hwrites⟩
  · exact ⟨_, _, bind_of_ok hwrite, hwrites.sent.stream⟩
  · exact ⟨_, _, bind_of_error hwrite, hwrites.sent.stream⟩

section Read
variable {deadline : Nat} {s : Session}

/-- A PDU that comes in time stands in front of what is heard. -/
structure Comes (deadline : Nat) (line : Line) (pdu : Pdu) (front rest : Line) : Prop where
  line : line = front ++ rest
  octets : front.octets = pdu.encode
  fits : pdu.Fits
  early : ∀ b ∈ front, b.1 < deadline

theorem Comes.length {line front rest : Line} {pdu : Pdu} (h : Comes deadline line pdu front rest) :
    front.length = headerSize + pdu.body.length := by
  rw [← length_octets, h.octets, length_encode]

theorem Comes.inTime {line front rest : Line} {pdu : Pdu} (h : Comes deadline line pdu front rest)
    {size : Nat} (hsize : size ≤ front.length) : InTime size deadline line := by
  rw [h.line]
  refine ⟨by rw [List.length_append]; omega, fun b hb => h.early b ?_⟩
  rw [List.take_append_of_le_length hsize] at hb
  exact List.mem_of_mem_take hb

theorem Comes.value {line front rest header after : Line} {pdu : Pdu}
    (h : Comes deadline line pdu front rest) (hheader : line = header ++ after)
    (hsize : header.length = headerSize) :
    Octets.value (header.octets.take 4) = headerSize + pdu.body.length := by
  have hlength : 4 ≤ header.octets.length := by rw [length_octets, hsize]; decide
  have hvalue := value_take_encode h.fits rest.octets
  rwa [← h.octets, ← octets_concat, ← h.line, hheader, octets_concat,
    List.take_append_of_le_length hlength] at hvalue

/-- `_read` returns the PDU that comes in time; otherwise it raises. -/
theorem read_cases (deadline : Nat) (s : Session) :
    (∃ pdu front s', read deadline s = .ok pdu s' ∧ Reads s s' front ∧
      Comes deadline s.socket.heard pdu front s'.socket.heard) ∨
    (∀ pdu front rest, ¬Comes deadline s.socket.heard pdu front rest) ∧
      ∃ e s' part, read deadline s = .error e s' ∧ (Cut part ∧ Lost s.socket s'.socket part ∨
        Misframed part ∧ s.socket.stream = part ++ s'.socket.stream) := by
  unfold read
  rcases readExact_cases headerSize deadline s with ⟨header, s₁, hheader, hreads, hsize, hearly⟩ |
    ⟨htime, e, s', part, hheader, hlost, hpart⟩
  · rw [bind_of_ok hheader]
    have hheard := hreads.took.heard
    by_cases hlength : Octets.value (header.octets.take 4) < headerSize ∨
        maxPdu < Octets.value (header.octets.take 4)
    · rw [if_pos hlength]
      -- no PDU has that length, so that none comes
      refine .inr ⟨fun pdu front rest hcomes => ?_, ?_⟩
      · rw [hcomes.value hheard hsize] at hlength
        have hfits : headerSize + pdu.body.length ≤ maxPdu := hcomes.fits
        omega
      · have hbad : Misframed header.octets :=
          ⟨((length_octets header).trans hsize).ge, hlength⟩
        obtain ⟨e, s', hraise, hstream⟩ := @write_fail Pdu
          { commandId := genericNack, commandStatus := esmeRinvcmdlen,
            sequenceNumber := unpackWord (header.octets.drop 12) }
          "SMSC sent an invalid command_length" s₁
        exact ⟨e, s', header.octets, hraise, .inr ⟨hbad, by rw [hstream, hreads.took.stream]⟩⟩
    · rw [if_neg hlength]
      obtain ⟨hlow, hhigh⟩ := not_or.mp hlength
      have hheaderSize : header.octets.length = headerSize := (length_octets header).trans hsize
      -- the length tells how many octets of a body are to follow
      rcases readExact_cases (Octets.value (header.octets.take 4) - headerSize) deadline s₁ with
        ⟨body, s₂, hbody, hreads', hsize', hearly'⟩ | ⟨htime, e, s', part, hbody, hlost, hpart⟩
      · have hbodySize : headerSize + body.octets.length = Octets.value (header.octets.take 4) := by
          rw [length_octets, hsize']
          omega
        rw [bind_of_ok hbody]
        refine .inl ⟨_, header ++ body, s₂, rfl, hreads.trans hreads', ?_, ?_, ?_, ?_⟩
        · exact (hreads.trans hreads').took.heard
        · rw [octets_concat]
          exact (encode_unpacked hheaderSize hbodySize).symm
        · exact hbodySize.le.trans (Nat.le_of_not_lt hhigh)
        · intro b hb
          exact (List.mem_append.mp hb).elim (hearly b) (hearly' b)
      · rw [bind_of_error hbody]
        -- the header is there and the body is not
        refine .inr ⟨fun pdu front rest hcomes => htime ?_, e, s', header.octets ++ part, rfl,
          .inl ⟨.inr ?_, hreads.took.lost hlost⟩⟩
        · have hvalue := hcomes.value hheard hsize
          have hall := hcomes.inTime hcomes.length.ge
          rw [hheard, ← hvalue] at hall
          refine @InTime.tail _ _ header _ ?_
          have hsum : header.length + (Octets.value (header.octets.take 4) - headerSize) =
              Octets.value (header.octets.take 4) := by omega
          rwa [hsum]
        · have hlength4 : 4 ≤ header.octets.length := by rw [hheaderSize]; decide
          rw [List.take_append_of_le_length hlength4, List.length_append, hheaderSize]
          omega
  · rw [bind_of_error hheader]
    refine .inr ⟨fun pdu front rest hcomes => htime (hcomes.inTime ?_), e, s', part, rfl,
      .inl ⟨.inl hpart, hlost⟩⟩
    rw [hcomes.length]
    omega

theorem Comes.unique {line front front' rest rest' : Line} {pdu pdu' : Pdu}
    (h : Comes deadline line pdu front rest) (h' : Comes deadline line pdu' front' rest') :
    pdu = pdu' ∧ front = front' ∧ rest = rest' := by
  have heq : front ++ rest = front' ++ rest' := h.line.symm.trans h'.line
  have hoctets : pdu.encode ++ rest.octets = pdu'.encode ++ rest'.octets := by
    rw [← h.octets, ← h'.octets, ← octets_concat, ← octets_concat, heq]
  obtain ⟨rfl, -⟩ := encode_append_inj h.fits h'.fits hoctets
  exact ⟨rfl, List.append_inj heq (h.length.trans h'.length.symm)⟩

theorem read_of_comes {pdu : Pdu} {front rest : Line}
    (h : Comes deadline s.socket.heard pdu front rest) :
    ∃ s', read deadline s = .ok pdu s' ∧ Reads s s' front ∧ s'.socket.heard = rest := by
  rcases read_cases deadline s with ⟨pdu', front', s', hread, hreads, hcomes⟩ | ⟨hnot, -⟩
  · obtain ⟨rfl, rfl, rfl⟩ := h.unique hcomes
    exact ⟨s', hread, hreads, rfl⟩
  · exact absurd h (hnot pdu front rest)

end Read

end Acs.Smpp
