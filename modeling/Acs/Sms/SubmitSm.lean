import Acs.Sms.Smpp

/-! Reading a `submit_sm` body by the SMPP 3.4 layout, and its short message by its header and
data coding. -/

namespace Acs.Smpp
open Octets

structure SubmitSm where
  serviceType : List UInt8
  sourceAddrTon : UInt8
  sourceAddrNpi : UInt8
  sourceAddr : List UInt8
  destAddrTon : UInt8
  destAddrNpi : UInt8
  destinationAddr : List UInt8
  esmClass : UInt8
  protocolId : UInt8
  priorityFlag : UInt8
  scheduleDeliveryTime : List UInt8
  validityPeriod : List UInt8
  registeredDelivery : UInt8
  replaceIfPresentFlag : UInt8
  dataCoding : UInt8
  smDefaultMsgId : UInt8
  smLength : UInt8
  shortMessage : List UInt8

namespace SubmitSm

def reader : Reader SubmitSm := do
  let serviceType ← cString 6
  let sourceAddrTon ← octet
  let sourceAddrNpi ← octet
  let sourceAddr ← cString 21
  let destAddrTon ← octet
  let destAddrNpi ← octet
  let destinationAddr ← cString 21
  let esmClass ← octet
  let protocolId ← octet
  let priorityFlag ← octet
  let scheduleDeliveryTime ← cString 17
  let validityPeriod ← cString 17
  let registeredDelivery ← octet
  let replaceIfPresentFlag ← octet
  let dataCoding ← octet
  let smDefaultMsgId ← octet
  let smLength ← octet
  let shortMessage ← octets smLength.toNat
  return { serviceType, sourceAddrTon, sourceAddrNpi, sourceAddr, destAddrTon, destAddrNpi,
           destinationAddr, esmClass, protocolId, priorityFlag, scheduleDeliveryTime,
           validityPeriod, registeredDelivery, replaceIfPresentFlag, dataCoding, smDefaultMsgId,
           smLength, shortMessage }

/-- A body with nothing behind its short message. -/
def parse (body : List UInt8) : Option SubmitSm := reader.all body

def gsm7 : List Char :=
  ("@£$¥èéùìòÇ\nØø\rÅåΔ_ΦΓΛΩΠΨΣΘΞ\x1bÆæßÉ !\"#¤%&'()*+,-./0123456789:;<=>?" ++
    "¡ABCDEFGHIJKLMNOPQRSTUVWXYZÄÖÑÜ§¿abcdefghijklmnopqrstuvwxyzäöñüà").toList

def fromGsm7 (octets : List UInt8) : Option String :=
  (octets.mapM fun b => gsm7[b.toNat]?).map String.ofList

def textOf (dataCoding : UInt8) (octets : List UInt8) : Option String :=
  if dataCoding = 0 then fromGsm7 octets
  else if dataCoding = 4 then fromUtf8 octets
  else if dataCoding = 8 then Utf16.decode octets
  else none

def splitHeader : Reader (List UInt8) := do
  let length ← octet
  octets length.toNat

/-- The destination of a header that consists of the element for 16-bit application ports. -/
def destinationPort : List UInt8 → Option Nat
  | [0x05, 0x04, high, low, _, _] => some (value [high, low])
  | _ => none

def message (pdu : SubmitSm) : Option (Option Nat × String) :=
  if pdu.esmClass &&& 0x40 = 0 then
    (textOf pdu.dataCoding pdu.shortMessage).map fun text => (none, text)
  else do
    let (header, data) ← splitHeader.run pdu.shortMessage
    let port ← destinationPort header
    let text ← textOf pdu.dataCoding data
    return (some port, text)

end SubmitSm

def asciiText (raw : List UInt8) : String := String.ofList (raw.map fun b => Char.ofNat b.toNat)

def WithoutPlus (msisdn number : String) : Prop :=
  ∃ plus : List Char, msisdn.toList = plus ++ number.toList ∧ (∀ c ∈ plus, c = '+') ∧
    number.toList.head? ≠ some '+'

/-- The fields say what the sender is configured with and what it was asked to send. -/
structure Meant (options : SenderOptions) (request : SmsRequest) (pdu : SubmitSm) : Prop where
  sourceTon : (pdu.sourceAddrTon.toNat : Int) = options.sourceAddrTon
  sourceNpi : (pdu.sourceAddrNpi.toNat : Int) = options.sourceAddrNpi
  destTon : (pdu.destAddrTon.toNat : Int) = options.destAddrTon
  destNpi : (pdu.destAddrNpi.toNat : Int) = options.destAddrNpi
  source : asciiText pdu.sourceAddr =
    if options.sourceAddr = "" then request.senderId else options.sourceAddr
  destination : WithoutPlus request.msisdn (asciiText pdu.destinationAddr)
  length : pdu.smLength.toNat = pdu.shortMessage.length
  gsm7_limit : pdu.dataCoding = 0 → pdu.smLength.toNat ≤ 160
  octets_limit : pdu.dataCoding ≠ 0 → pdu.smLength.toNat ≤ 140
  message : ∃ port : Option Nat, pdu.message = some (port, request.body) ∧
    port.map Int.ofNat = request.smsPort.filter (· ≠ 0)

/-- What the octets of a message with its class and coding stand for. -/
structure Encodes (request : SmsRequest) (esmClass dataCoding : UInt8) (octets : List UInt8) :
    Prop where
  gsm7_limit : dataCoding = 0 → octets.length ≤ 160
  octets_limit : dataCoding ≠ 0 → octets.length ≤ 140
  message : ∀ pdu : SubmitSm, pdu.esmClass = esmClass → pdu.dataCoding = dataCoding →
    pdu.shortMessage = octets → ∃ port : Option Nat, pdu.message = some (port, request.body) ∧
      port.map Int.ofNat = request.smsPort.filter (· ≠ 0)

set_option maxRecDepth 4000 in
theorem gsm7AsciiSafe_codes :
    (gsm7AsciiSafe.all fun c => c.toNat < 128 && SubmitSm.gsm7[c.toNat]? == some c) = true := by
  decide +kernel

theorem fromGsm7_safe {s : String} (h : s.toList.all (gsm7AsciiSafe.contains ·) = true) :
    SubmitSm.fromGsm7 (s.toList.map fun c => UInt8.ofNat c.toNat) = some s := by
  have hchars : ∀ cs : List Char, cs.all (gsm7AsciiSafe.contains ·) = true →
      (cs.map fun c => UInt8.ofNat c.toNat).mapM (fun b => SubmitSm.gsm7[b.toNat]?) = some cs := by
    intro cs hcs
    induction cs with
    | nil => rfl
    | cons c cs ih =>
      obtain ⟨hc, hcs⟩ := Bool.and_eq_true_iff.mp hcs
      have hsafe := List.all_eq_true.mp gsm7AsciiSafe_codes c (List.contains_iff_mem.mp hc)
      obtain ⟨hsmall, hcode⟩ := Bool.and_eq_true_iff.mp hsafe
      have hnat : (UInt8.ofNat c.toNat).toNat = c.toNat := by
        have := of_decide_eq_true hsmall
        rw [UInt8.toNat_ofNat']
        omega
      rw [List.map_cons, List.mapM_cons, hnat, eq_of_beq hcode, ih hcs]
      rfl
  unfold SubmitSm.fromGsm7
  rw [hchars _ h, Option.map_some, String.ofList_toList]

theorem buildUdh_eq_ok {port source : Int} {udh : List UInt8} (h : buildUdh port source = .ok udh) :
    ∃ high low sourceHigh sourceLow, udh = [0x06, 0x05, 0x04, high, low, sourceHigh, sourceLow] ∧
      (value [high, low] : Int) = port := by
  unfold buildUdh at h
  split at h
  · cases h
  · rename_i hrange
    cases h
    obtain ⟨hport, -⟩ := not_or.mp hrange
    obtain ⟨hlow, hhigh⟩ := not_not.mp hport
    refine ⟨_, _, _, _, rfl, ?_⟩
    have hvalue : value [UInt8.ofNat (port.toNat >>> 8 &&& 0xFF), UInt8.ofNat (port.toNat &&& 0xFF)]
        = port.toNat := by
      have hmask : ∀ n : Nat, n &&& 0xFF = n % 256 := fun n => Nat.and_two_pow_sub_one_eq_mod n 8
      show (0 * 256 + (UInt8.ofNat _).toNat) * 256 + (UInt8.ofNat _).toNat = _
      rw [UInt8.toNat_ofNat', UInt8.toNat_ofNat', hmask, hmask, Nat.shiftRight_eq_div_pow]
      omega
    rw [hvalue]
    omega

theorem encodeShortMessage_eq_ok {request : SmsRequest} {source : Int} {esmClass dataCoding : UInt8}
    {octets : List UInt8}
    (h : encodeShortMessage request source = .ok (esmClass, dataCoding, octets)) :
    Encodes request esmClass dataCoding octets := by
  unfold encodeShortMessage at h
  split at h
  · -- port-addressed: the header, then UTF-8
    rename_i port hport
    obtain ⟨udh, hudh, h⟩ := Except.bind_eq_ok.mp h
    obtain ⟨high, low, sourceHigh, sourceLow, rfl, hvalue⟩ :=
      buildUdh_eq_ok (Except.mapError_eq_ok.mp hudh)
    dsimp only at h
    split at h
    · cases h
    · rename_i hlimit
      cases h
      refine ⟨fun h => absurd h (by decide), fun _ => Nat.le_of_not_lt hlimit, ?_⟩
      intro pdu hclass hcoding hmessage
      have hheader : SubmitSm.splitHeader.run pdu.shortMessage =
          some ([0x05, 0x04, high, low, sourceHigh, sourceLow], utf8 request.body) := by
        have hsize : [0x05, 0x04, high, low, sourceHigh, sourceLow].length = (0x06 : UInt8).toNat :=
          rfl
        rw [hmessage]
        exact (run_bind_of (octet_cons _ _)).trans (octets_append hsize _)
      refine ⟨some (value [high, low]), ?_, ?_⟩
      · have htext : SubmitSm.textOf dataCoding8bit (utf8 request.body) = some request.body := by
          rw [SubmitSm.textOf, if_neg (by decide), if_pos (by decide), fromUtf8_utf8]
        rw [SubmitSm.message, hclass, hcoding, if_neg (by decide), hheader]
        show (SubmitSm.textOf dataCoding8bit (utf8 request.body) >>= _) = _
        rw [htext]
        rfl
      · rw [Option.map_some]
        exact (congrArg some hvalue).trans hport.symm
  · rename_i hport
    -- no header: the text alone, by its characters
    have hplain : ∀ pdu : SubmitSm, pdu.esmClass = esmClassDefault →
        SubmitSm.textOf pdu.dataCoding pdu.shortMessage = some request.body →
        ∃ port : Option Nat, pdu.message = some (port, request.body) ∧
          port.map Int.ofNat = request.smsPort.filter (· ≠ 0) := by
      intro pdu hclass htext
      refine ⟨none, ?_, hport.symm⟩
      rw [SubmitSm.message, hclass, if_pos (by decide), htext]
      rfl
    split at h
    · rename_i hsafe
      split at h
      · cases h
      · rename_i hlimit
        cases h
        have hlength : (request.body.toList.map fun c => UInt8.ofNat c.toNat).length ≤ 160 := by
          rw [List.length_map, String.length_toList]
          exact Nat.le_of_not_lt hlimit
        refine ⟨fun _ => hlength, fun h => absurd rfl h, ?_⟩
        intro pdu hclass hcoding hmessage
        refine hplain pdu hclass ?_
        rw [hcoding, hmessage, SubmitSm.textOf, if_pos (by decide), fromGsm7_safe hsafe]
    · dsimp only at h
      split at h
      · cases h
      · rename_i hlimit
        cases h
        refine ⟨fun h => absurd h (by decide), fun _ => Nat.le_of_not_lt hlimit, ?_⟩
        intro pdu hclass hcoding hmessage
        refine hplain pdu hclass ?_
        rw [hcoding, hmessage, SubmitSm.textOf, if_neg (by decide), if_neg (by decide),
          if_pos (by decide), Utf16.decode_encoded]

theorem asciiText_of_ascii {s : String} {raw : List UInt8} (h : ascii s = some raw) :
    asciiText raw = s := by
  rw [asciiText, ascii_eq_some h, String.ofList_toList]

theorem withoutPlus_lstripPlus (msisdn : String) : WithoutPlus msisdn (lstripPlus msisdn) := by
  refine ⟨msisdn.toList.takeWhile (· = '+'), ?_, ?_, ?_⟩
  · rw [lstripPlus, String.toList_ofList, List.takeWhile_append_dropWhile]
  · intro c hc
    exact of_decide_eq_true (List.all_eq_true.mp List.all_takeWhile c hc)
  · intro h
    rw [lstripPlus, String.toList_ofList] at h
    have hplus := List.head?_dropWhile_not (fun c : Char => decide (c = '+')) msisdn.toList
    rw [h] at hplus
    exact absurd hplus (by decide)

section Layout
variable {sourceTon sourceNpi destTon destNpi esmClass dataCoding : UInt8}
  {source destination message : List UInt8}

theorem parse_layout (hsource : 0 ∉ source) (hsourceLength : source.length < 21)
    (hdest : 0 ∉ destination) (hdestLength : destination.length < 21)
    (hmessage : message.length < 256) :
    SubmitSm.parse ([0] ++ [sourceTon, sourceNpi] ++ (source ++ [0]) ++ [destTon, destNpi] ++
      (destination ++ [0]) ++ [esmClass, 0, 0] ++ [0, 0] ++ [0, 0, dataCoding, 0] ++
      [UInt8.ofNat message.length] ++ message) =
    some { serviceType := [], sourceAddrTon := sourceTon, sourceAddrNpi := sourceNpi,
           sourceAddr := source, destAddrTon := destTon, destAddrNpi := destNpi,
           destinationAddr := destination, esmClass, protocolId := 0, priorityFlag := 0,
           scheduleDeliveryTime := [], validityPeriod := [], registeredDelivery := 0,
           replaceIfPresentFlag := 0, dataCoding, smDefaultMsgId := 0,
           smLength := UInt8.ofNat message.length, shortMessage := message } := by
  have hlength : (UInt8.ofNat message.length).toNat = message.length := by
    rw [UInt8.toNat_ofNat', Nat.mod_eq_of_lt hmessage]
  have hall : (octets (UInt8.ofNat message.length).toNat).run message = some (message, []) := by
    have h := octets_append hlength.symm []
    rwa [List.append_nil] at h
  have hempty : ∀ (limit : Nat) (rest : List UInt8), 0 < limit →
      (cString limit).run (0 :: rest) = some ([], rest) := fun _ rest hlimit =>
    @cString_append _ [] List.not_mem_nil hlimit rest
  simp only [List.append_assoc, List.cons_append, List.nil_append]
  unfold SubmitSm.parse Reader.all SubmitSm.reader
  rw [run_bind_of (hempty 6 _ (by decide)), run_bind_of (octet_cons _ _),
    run_bind_of (octet_cons _ _), run_bind_of (cString_append hsource hsourceLength _),
    run_bind_of (octet_cons _ _), run_bind_of (octet_cons _ _),
    run_bind_of (cString_append hdest hdestLength _), run_bind_of (octet_cons _ _),
    run_bind_of (octet_cons _ _), run_bind_of (octet_cons _ _),
    run_bind_of (hempty 17 _ (by decide)), run_bind_of (hempty 17 _ (by decide)),
    run_bind_of (octet_cons _ _), run_bind_of (octet_cons _ _), run_bind_of (octet_cons _ _),
    run_bind_of (octet_cons _ _), run_bind_of (octet_cons _ _), run_bind_of hall]
  rfl

end Layout

/-- A body that is sent is read back as what was meant. -/
theorem submitSmBody_read_back {options : SenderOptions} {sender : SmppSmsSender}
    {request : SmsRequest} {body : List UInt8} (hsender : SmppSmsSender.create options = .ok sender)
    (hbody : sender.submitSmBody request = .ok body) :
    ∃ pdu, SubmitSm.parse body = some pdu ∧ Meant options request pdu := by
  have hconfigured := create_configured hsender
  unfold SmppSmsSender.submitSmBody at hbody
  simp only [Except.bind_eq_ok, Except.mapError_eq_ok] at hbody
  obtain ⟨⟨esmClass, dataCoding, message⟩, hmessage, sourceField, hsource, destField, hdest,
    hbody⟩ := hbody
  obtain ⟨source, rfl, hsourceText, hsourceNul, hsourceLength⟩ := cOctet_eq_ok hsource
  obtain ⟨destination, rfl, hdestText, hdestNul, hdestLength⟩ := cOctet_eq_ok hdest
  cases hbody
  have hencodes := encodeShortMessage_eq_ok hmessage
  have hlimit : message.length < 256 := by
    by_cases hcoding : dataCoding = 0
    · have := hencodes.gsm7_limit hcoding
      omega
    · have := hencodes.octets_limit hcoding
      omega
  have hlength : (UInt8.ofNat message.length).toNat = message.length := by
    rw [UInt8.toNat_ofNat', Nat.mod_eq_of_lt hlimit]
  refine ⟨_, parse_layout hsourceNul hsourceLength hdestNul hdestLength hlimit, ?_⟩
  exact {
    sourceTon := hconfigured.sourceTon
    sourceNpi := hconfigured.sourceNpi
    destTon := hconfigured.destTon
    destNpi := hconfigured.destNpi
    source := by
      rw [asciiText_of_ascii hsourceText, SmppSmsSender.source, hconfigured.sourceAddr]
    destination := by
      rw [asciiText_of_ascii hdestText]
      exact withoutPlus_lstripPlus _
    length := hlength
    gsm7_limit := fun h => hlength.le.trans (hencodes.gsm7_limit h)
    octets_limit := fun h => hlength.le.trans (hencodes.octets_limit h)
    message := hencodes.message _ rfl rfl rfl }

namespace Lab

def options : SenderOptions :=
  { host := "smsc", systemId := "acs", password := "secret", systemType := "OTP" }

def sender : SmppSmsSender :=
  { host := "smsc", timeout := some 10, store := false,
    bindBody := [0x61, 0x63, 0x73, 0, 0x73, 0x65, 0x63, 0x72, 0x65, 0x74, 0, 0x4F, 0x54, 0x50, 0,
      0x34, 0, 0, 0],
    sourceAddr := "", sourceTon := 5, sourceNpi := 0, destTon := 1, destNpi := 1 }

def request : SmsRequest :=
  { msisdn := "+15550", body := "4711", smsPort := some 37273, senderId := "RCS" }

def submitBody : List UInt8 :=
  [0, 5, 0, 0x52, 0x43, 0x53, 0, 1, 1, 0x31, 0x35, 0x35, 0x35, 0x30, 0, 0x40, 0, 0, 0, 0, 0, 0, 4,
   0, 11, 6, 5, 4, 0x91, 0x99, 0, 0, 0x34, 0x37, 0x31, 0x31]

theorem create_options : SmppSmsSender.create options = .ok sender := by rfl

theorem submitSmBody_request : sender.submitSmBody request = .ok submitBody := by rfl

end Lab

theorem submitBody_read_back :
    ∃ pdu, SubmitSm.parse Lab.submitBody = some pdu ∧ Meant Lab.options Lab.request pdu :=
  submitSmBody_read_back Lab.create_options Lab.submitSmBody_request

end Acs.Smpp
