import Acs.Data.Except
import Acs.Data.Octets
import Acs.Data.Utf16
import Acs.Data.Utf8

/-! SMPP 3.4 as the sender speaks it: its numbers, its PDUs and the body of a `submit_sm`. -/

namespace Acs.Smpp

def genericNack : UInt32 := 0x80000000
def submitSm : UInt32 := 0x00000004
def submitSmResp : UInt32 := 0x80000004
def deliverSm : UInt32 := 0x00000005
def deliverSmResp : UInt32 := 0x80000005
def unbind : UInt32 := 0x00000006
def unbindResp : UInt32 := 0x80000006
def bindTransceiver : UInt32 := 0x00000009
def bindTransceiverResp : UInt32 := 0x80000009
def enquireLink : UInt32 := 0x00000015
def enquireLinkResp : UInt32 := 0x80000015

def responseBit : UInt32 := 0x80000000

def esmeRok : UInt32 := 0x00000000
def esmeRinvcmdlen : UInt32 := 0x00000002
def esmeRinvcmdid : UInt32 := 0x00000003
def esmeRxTAppn : UInt32 := 0x00000064

def statusNames : List (UInt32 × String) :=
  [(0x00000000, "ESME_ROK"), (0x00000001, "ESME_RINVMSGLEN"), (0x00000002, "ESME_RINVCMDLEN"),
   (0x00000003, "ESME_RINVCMDID"), (0x00000004, "ESME_RINVBNDSTS"), (0x00000005, "ESME_RALYBND"),
   (0x00000008, "ESME_RSYSERR"), (0x0000000A, "ESME_RINVSRCADR"), (0x0000000B, "ESME_RINVDSTADR"),
   (0x0000000D, "ESME_RBINDFAIL"), (0x0000000E, "ESME_RINVPASWD"), (0x0000000F, "ESME_RINVSYSID"),
   (0x00000014, "ESME_RMSGQFUL"), (0x00000045, "ESME_RSUBMITFAIL"), (0x00000058, "ESME_RTHROTTLED"),
   (0x00000064, "ESME_RX_T_APPN"), (0x00000065, "ESME_RX_P_APPN"), (0x00000066, "ESME_RX_R_APPN"),
   (0x000000FE, "ESME_RDELIVERYFAILURE"), (0x000000FF, "ESME_RUNKNOWNERR")]

def hex8 (n : UInt32) : String :=
  String.ofList ((List.range 8).reverse.map fun i =>
    ((Nat.digitChar (n.toNat >>> (4 * i) % 16)).toUpper))

def describeStatus (status : UInt32) : String :=
  match statusNames.lookup status with
  | some name => s!"{name} (0x{hex8 status})"
  | none =>
    if 0x00000400 ≤ status ∧ status ≤ 0x000004FF then "an SMSC vendor-specific status"
    else "an unlisted status"

def interfaceVersion : UInt8 := 0x34

def esmClassDefault : UInt8 := 0x00
def esmClassUdhi : UInt8 := 0x40
def dataCodingDefault : UInt8 := 0x00
def dataCoding8bit : UInt8 := 0x04
def dataCodingUcs2 : UInt8 := 0x08

def headerSize : Nat := 16
def maxPdu : Nat := 64 * 1024

def maxUserDataOctets : Nat := 140
def maxGsm7Characters : Nat := 160

def gsm7AsciiSafe : List Char :=
  " !\"#%&'()*+,-./0123456789:;<=>?ABCDEFGHIJKLMNOPQRSTUVWXYZabcdefghijklmnopqrstuvwxyz".toList

def maxSystemId : Nat := 16
def maxPassword : Nat := 9
def maxSystemType : Nat := 13
def maxAddr : Nat := 21

structure Pdu where
  commandId : UInt32
  commandStatus : UInt32
  sequenceNumber : UInt32
  body : List UInt8 := []
deriving DecidableEq

def packWord (word : UInt32) : List UInt8 := Octets.bigEndian 4 word.toNat

def Pdu.encode (pdu : Pdu) : List UInt8 :=
  Octets.bigEndian 4 (headerSize + pdu.body.length) ++ packWord pdu.commandId ++
    packWord pdu.commandStatus ++ packWord pdu.sequenceNumber ++ pdu.body

structure ValueError where
  text : String
deriving DecidableEq

structure SmppError where
  text : String
deriving DecidableEq

def ValueError.reraised (e : ValueError) : SmppError := ⟨e.text⟩

def ascii (s : String) : Option (List UInt8) :=
  if s.toList.all (·.toNat < 128) then some (s.toList.map fun c => UInt8.ofNat c.toNat) else none

/-- A C-Octet String: ASCII, with a NUL behind it that the maximum includes. -/
def cOctet (value : String) (maxLength : Nat) (field : String) : Except ValueError (List UInt8) :=
  match ascii value with
  | none => .error ⟨s!"SMPP {field} must be ASCII"⟩
  | some raw =>
    if 0 ∈ raw ∨ maxLength < raw.length + 1 then
      .error ⟨s!"SMPP {field} must be at most {maxLength - 1} characters"⟩
    else .ok (raw ++ [0])

structure SmsRequest where
  msisdn : String
  body : String
  smsPort : Option Int := none
  senderId : String := ""

def SmsRequest.truePort (request : SmsRequest) : Option Int := request.smsPort.filter (· ≠ 0)

def SmsRequest.requiresBinary (request : SmsRequest) : Bool := request.truePort.isSome

def buildUdh (destinationPort : Int) (sourcePort : Int := 0) : Except ValueError (List UInt8) :=
  if ¬(0 ≤ destinationPort ∧ destinationPort ≤ 0xFFFF) ∨ ¬(0 ≤ sourcePort ∧ sourcePort ≤ 0xFFFF)
  then .error ⟨"ports must fit in 16 bits"⟩
  else
    let body : List UInt8 :=
      [0x05, 0x04,
       UInt8.ofNat ((destinationPort.toNat >>> 8) &&& 0xFF),
       UInt8.ofNat (destinationPort.toNat &&& 0xFF),
       UInt8.ofNat ((sourcePort.toNat >>> 8) &&& 0xFF),
       UInt8.ofNat (sourcePort.toNat &&& 0xFF)]
    .ok (UInt8.ofNat body.length :: body)

/-- `(esm_class, data_coding, short_message)` for the request. -/
def encodeShortMessage (request : SmsRequest) (sourcePort : Int := 0) :
    Except SmppError (UInt8 × UInt8 × List UInt8) :=
  match request.truePort with
  | some port => do
    let udh ← (buildUdh port sourcePort).mapError ValueError.reraised
    let userData := udh ++ utf8 request.body
    if maxUserDataOctets < userData.length then
      .error ⟨s!"port-addressed message is {userData.length} octets; one SMS carries " ++
        s!"{maxUserDataOctets} and concatenation is not supported"⟩
    else .ok (esmClassUdhi, dataCoding8bit, userData)
  | none =>
    if request.body.toList.all (gsm7AsciiSafe.contains ·) then
      if maxGsm7Characters < request.body.length then
        .error ⟨s!"text message is {request.body.length} characters; one SMS carries " ++
          s!"{maxGsm7Characters} and concatenation is not supported"⟩
      else
        .ok (esmClassDefault, dataCodingDefault,
          request.body.toList.map fun c => UInt8.ofNat c.toNat)
    else
      let ucs2 := Utf16.encode request.body
      if maxUserDataOctets < ucs2.length then
        .error ⟨s!"UCS-2 message is {ucs2.length} octets; one SMS carries " ++
          s!"{maxUserDataOctets} and concatenation is not supported"⟩
      else .ok (esmClassDefault, dataCodingUcs2, ucs2)

structure SenderOptions where
  host : String := ""
  systemId : String := ""
  password : String := ""
  systemType : String := ""
  sourceAddr : String := ""
  sourceAddrTon : Int := 5
  sourceAddrNpi : Int := 0
  destAddrTon : Int := 1
  destAddrNpi : Int := 1
  /-- In ticks of the clock, or `none` where it is not finite. -/
  timeout : Option Int := some 10
  /-- Whether there is a store for the audit. -/
  store : Bool := false

structure SmppSmsSender where
  host : String
  timeout : Option Int
  store : Bool
  bindBody : List UInt8
  sourceAddr : String
  sourceTon : UInt8
  sourceNpi : UInt8
  destTon : UInt8
  destNpi : UInt8

def oneOctet (label : String) (value : Int) : Except ValueError UInt8 :=
  if 0 ≤ value ∧ value ≤ 0xFF then .ok (UInt8.ofNat value.toNat)
  else .error ⟨s!"SMPP {label} must fit in one octet"⟩

/-- A configured source address is encoded to see that it can be. -/
def checkSourceAddr (sourceAddr : String) : Except ValueError Unit :=
  if sourceAddr = "" then .ok ()
  else (cOctet sourceAddr maxAddr "source_addr").map fun _ => ()

def SmppSmsSender.create (options : SenderOptions) : Except ValueError SmppSmsSender := do
  let systemId ← cOctet options.systemId maxSystemId "system_id"
  let password ← cOctet options.password maxPassword "password"
  let systemType ← cOctet options.systemType maxSystemType "system_type"
  let bindBody := systemId ++ password ++ systemType ++ [interfaceVersion, 0, 0] ++ [0]
  let sourceTon ← oneOctet "source_addr_ton" options.sourceAddrTon
  let sourceNpi ← oneOctet "source_addr_npi" options.sourceAddrNpi
  let destTon ← oneOctet "dest_addr_ton" options.destAddrTon
  let destNpi ← oneOctet "dest_addr_npi" options.destAddrNpi
  checkSourceAddr options.sourceAddr
  return { host := options.host, timeout := options.timeout, store := options.store, bindBody,
           sourceAddr := options.sourceAddr,
           sourceTon, sourceNpi, destTon, destNpi }

def lstripPlus (s : String) : String := String.ofList (s.toList.dropWhile (· = '+'))

/-- The configured source address, or the sender of the request where none is configured. -/
def SmppSmsSender.source (sender : SmppSmsSender) (request : SmsRequest) : String :=
  if sender.sourceAddr = "" then request.senderId else sender.sourceAddr

def SmppSmsSender.submitSmBody (sender : SmppSmsSender) (request : SmsRequest) :
    Except SmppError (List UInt8) := do
  let (esmClass, dataCoding, shortMessage) ← encodeShortMessage request
  let sourceField ←
    (cOctet (sender.source request) maxAddr "source_addr").mapError ValueError.reraised
  let destField ←
    (cOctet (lstripPlus request.msisdn) maxAddr "destination_addr").mapError ValueError.reraised
  return [0] ++ [sender.sourceTon, sender.sourceNpi] ++ sourceField ++
    [sender.destTon, sender.destNpi] ++ destField ++ [esmClass, 0, 0] ++ [0, 0] ++
    [0, 0, dataCoding, 0] ++ [UInt8.ofNat shortMessage.length] ++ shortMessage

theorem length_encode (pdu : Pdu) : pdu.encode.length = headerSize + pdu.body.length := by
  simp only [Pdu.encode, packWord, List.length_append, Octets.length_bigEndian, headerSize]

theorem ascii_eq_some {s : String} {raw : List UInt8} (h : ascii s = some raw) :
    raw.map (fun b => Char.ofNat b.toNat) = s.toList := by
  unfold ascii at h
  split at h
  · rename_i hall
    cases h
    have hback : ∀ c ∈ s.toList, Char.ofNat (UInt8.ofNat c.toNat).toNat = c := by
      intro c hc
      have hc : c.toNat < 128 := of_decide_eq_true (List.all_eq_true.mp hall c hc)
      have hnat : (UInt8.ofNat c.toNat).toNat = c.toNat := by
        rw [UInt8.toNat_ofNat']
        omega
      rw [hnat, Char.ofNat_toNat]
    rw [List.map_map]
    exact (List.map_congr_left hback).trans (List.map_id _)
  · cases h

theorem cOctet_eq_ok {value field : String} {maxLength : Nat} {octets : List UInt8}
    (h : cOctet value maxLength field = .ok octets) :
    ∃ raw, octets = raw ++ [0] ∧ ascii value = some raw ∧ 0 ∉ raw ∧ raw.length < maxLength := by
  unfold cOctet at h
  split at h
  · cases h
  · rename_i raw hraw
    split at h
    · cases h
    · rename_i hfits
      cases h
      have hlength : raw.length < maxLength := by
        have := (not_or.mp hfits).2
        omega
      exact ⟨raw, rfl, hraw, (not_or.mp hfits).1, hlength⟩

theorem oneOctet_eq_ok {label : String} {value : Int} {octet : UInt8}
    (h : oneOctet label value = .ok octet) : (octet.toNat : Int) = value := by
  unfold oneOctet at h
  split at h
  · rename_i hrange
    cases h
    rw [UInt8.toNat_ofNat']
    omega
  · cases h

structure Configured (options : SenderOptions) (sender : SmppSmsSender) : Prop where
  host : sender.host = options.host
  timeout : sender.timeout = options.timeout
  store : sender.store = options.store
  sourceAddr : sender.sourceAddr = options.sourceAddr
  sourceTon : (sender.sourceTon.toNat : Int) = options.sourceAddrTon
  sourceNpi : (sender.sourceNpi.toNat : Int) = options.sourceAddrNpi
  destTon : (sender.destTon.toNat : Int) = options.destAddrTon
  destNpi : (sender.destNpi.toNat : Int) = options.destAddrNpi

theorem create_configured {options : SenderOptions} {sender : SmppSmsSender}
    (h : SmppSmsSender.create options = .ok sender) : Configured options sender := by
  unfold SmppSmsSender.create at h
  simp only [Except.bind_eq_ok] at h
  obtain ⟨systemId, -, password, -, systemType, -, sourceTon, hsourceTon, sourceNpi, hsourceNpi,
    destTon, hdestTon, destNpi, hdestNpi, -, -, h⟩ := h
  cases h
  exact { host := rfl, timeout := rfl, store := rfl, sourceAddr := rfl,
          sourceTon := oneOctet_eq_ok hsourceTon, sourceNpi := oneOctet_eq_ok hsourceNpi,
          destTon := oneOctet_eq_ok hdestTon,
          destNpi := oneOctet_eq_ok hdestNpi }

end Acs.Smpp
