import Acs.Omadm.Session

/-! Runs against a known future: how long each operation takes, what nonce is drawn and which
store call raises. -/

namespace Acs.Omadm
open Interleave Function

structure Moment where
  elapsed : Nat := 0
  nonce : String := ""
  fault : Option StoreError := none

/-- A world, and what lies ahead of it; after that nothing happens any more. -/
structure Forecast where
  world : World
  ahead : List Moment := []

def Clock.after (clock : Clock) (elapsed : Nat) : Clock :=
  ⟨clock.now + elapsed, by have := clock.pos; omega⟩

theorem Clock.le_after {clock : Clock} {elapsed : Nat} :
    clock.now ≤ (Clock.after clock elapsed).now := by
  unfold Clock.after
  dsimp only
  omega

namespace DmOp

def failed (e : StoreError) : (op : DmOp) → Option op.Answer
  | .getSubscriber _ => some (.error e)
  | .getDmSession _ => some (.error e)
  | .getDmPending _ => some (.error e)
  | .getDevice _ => some (.error e)
  | .write _ => some (.error e)
  | .now => none
  | .makeNonce => none

def meet (moment : Moment) (op : DmOp) (w : World) : op.Answer × World :=
  let clock := Clock.after w.clock moment.elapsed
  match moment.fault.bind fun e => op.failed e with
  | some ans => (ans, ⟨w.store, clock⟩)
  | none =>
    let r := op.exec clock moment.nonce w.store
    (r.1, ⟨r.2, clock⟩)

def foresee (op : DmOp) (f : Forecast) : op.Answer × Forecast :=
  let r := op.meet (f.ahead.headD {}) f.world
  (r.1, ⟨r.2, f.ahead.tail⟩)

end DmOp

theorem weather_meet (moment : Moment) (op : DmOp) (w : World) :
    Weather op w (op.meet moment w).1 (op.meet moment w).2 := by
  have htime : w.clock.now ≤ (Clock.after w.clock moment.elapsed).now := Clock.le_after
  unfold DmOp.meet
  cases hfault : moment.fault.bind fun e => op.failed e with
  | none => exact ⟨htime, Or.inr ⟨moment.nonce, rfl⟩⟩
  | some ans =>
    refine ⟨htime, Or.inl ⟨?_, rfl⟩⟩
    obtain ⟨e, -, hans⟩ := Option.bind_eq_some_iff.mp hfault
    cases op <;> simp only [DmOp.failed, Option.some.injEq, reduceCtorEq] at hans <;>
      exact ⟨e, hans.symm⟩

section Foresee
variable {op : DmOp} {f : Forecast}

theorem foresee_calm (h : (f.ahead.headD {}).fault = none) :
    op.foresee f =
      let clock := Clock.after f.world.clock (f.ahead.headD {}).elapsed
      let r := op.exec clock (f.ahead.headD {}).nonce f.world.store
      (r.1, ⟨⟨r.2, clock⟩, f.ahead.tail⟩) := by
  unfold DmOp.foresee DmOp.meet
  rw [h]
  rfl

theorem foresee_fault {e : StoreError} {ans : op.Answer}
    (h : (f.ahead.headD {}).fault = some e) (hans : op.failed e = some ans) :
    op.foresee f =
      (ans, ⟨⟨f.world.store, Clock.after f.world.clock (f.ahead.headD {}).elapsed⟩,
        f.ahead.tail⟩) := by
  unfold DmOp.foresee DmOp.meet
  rw [h, Option.bind_some, hans]

theorem foresee_sure (h : ∀ e, op.failed e = none) :
    op.foresee f =
      let clock := Clock.after f.world.clock (f.ahead.headD {}).elapsed
      let r := op.exec clock (f.ahead.headD {}).nonce f.world.store
      (r.1, ⟨⟨r.2, clock⟩, f.ahead.tail⟩) := by
  unfold DmOp.foresee DmOp.meet
  cases (f.ahead.headD {}).fault with
  | none => rfl
  | some e =>
    rw [Option.bind_some, h e]

end Foresee

def DmService.foresee (service : DmService) (payload : Bytes) (contentType : String)
    (f : Forecast) : Except DmError DmResponse × Forecast :=
  (service.handle payload contentType).run.eval DmOp.foresee f

theorem exec_foresee (service : DmService) (payload : Bytes) (contentType : String)
    (f : Forecast) :
    ∃ tr, Exec Weather (service.handle payload contentType).run f.world tr
      (service.foresee payload contentType f).1 (service.foresee payload contentType f).2.world :=
  Exec.of_eval Forecast.world (fun op f => weather_meet (f.ahead.headD {}) op f.world) _ f

def metricOf (r : Except DmError DmResponse) : Option (Nat × String) :=
  match r with
  | .ok response => some (response.statusCode, response.metric)
  | .error _ => none

theorem ok_of_metricOf {r : Except DmError DmResponse} {status : Nat} {metric : String}
    (h : metricOf r = some (status, metric)) :
    ∃ response, r = .ok response ∧ response.statusCode = status ∧ response.metric = metric := by
  cases r with
  | error e => cases h
  | ok response =>
    obtain ⟨hstatus, hmetric⟩ := Prod.mk.inj (Option.some.inj h)
    exact ⟨response, rfl, hstatus, hmetric⟩

def escape (s : String) : List Char :=
  s.toList.flatMap fun c =>
    if c = '&' then "&amp;".toList
    else if c = '<' then "&lt;".toList
    else if c = '>' then "&gt;".toList
    else [c]

def opening (tag : Option Xml.QName) : List Char :=
  match tag with
  | none => []
  | some t =>
    if t.ns = "" then t.name.toList else ("ns0:" ++ t.name ++ " xmlns:ns0=\"" ++ t.ns ++ "\"").toList

def closing (tag : Option Xml.QName) : List Char :=
  match tag with
  | none => []
  | some t => if t.ns = "" then t.name.toList else ("ns0:" ++ t.name).toList

mutual

/-- `etree.tostring` with `pretty_print`, for ASCII text in elements without attributes that hold
either text or children. -/
def pretty (indent : Nat) (declared : String) : Xml.Element → List Char
  | .node tag _ text children _ =>
    let start := List.replicate indent ' ' ++ '<' :: opening tag ++ declared.toList
    match children with
    | [] =>
      if text = "" then start ++ "/>\n".toList
      else start ++ '>' :: escape text ++ "</".toList ++ closing tag ++ ">\n".toList
    | child :: rest =>
      start ++ ">\n".toList ++ (pretty (indent + 2) "" child ++ prettyAll (indent + 2) rest) ++
        List.replicate indent ' ' ++ "</".toList ++ closing tag ++ ">\n".toList

def prettyAll (indent : Nat) : List Xml.Element → List Char
  | [] => []
  | e :: es => pretty indent "" e ++ prettyAll indent es

end

def printed (declared : String) (root : Xml.Element) : Bytes :=
  ("<?xml version='1.0' encoding='UTF-8'?>\n".toList ++ pretty 0 declared root).map fun c =>
    c.toNat.toUInt8

namespace Lab
open Xml Xml.Element

def decimal (s : String) : Option Int :=
  if s ≠ "" && s.toList.all Char.isDigit then
    some (s.toList.foldl (fun n c => 10 * n + (c.toNat - 48)) 0 : Nat)
  else none

def imsi : String := "450051234567890"

def subscriber : Subscriber where
  imsi := imsi
  msisdn := "+821012345678"
  dmPassword := "pw-4500"
  createdAt := 1700000000
  updatedAt := 1700000000

def tree : MoTree := ⟨[{ nodes := [
  { uri := "./DevDetail/SwV", source := "device" },
  { uri := "./3GPP_IMS", format := "node", type := "node" },
  { uri := "./3GPP_IMS/Private_user_identity", default := "{impi}" },
  { uri := "./3GPP_IMS/Timer_T1", format := "int", default := "2000" }] }]⟩

def login : String := "NDUwMDUxMjM0NTY3ODkwOnB3LTQ1MDA="

def guess : String := "NDUwMDUxMjM0NTY3ODkwOmd1ZXNz"

def guessDigest : String := "RGgg2rNvXV85ABHbfQE06A=="

def nonce : String := "bm9uY2UtMDAwMDAwMDAwMQ=="

def digests : List (String × String) :=
  [(imsi ++ ":" ++ "pw-4500", "y9Ysh+Y9foi/BB1+Y6Y8qA=="),
   ("y9Ysh+Y9foi/BB1+Y6Y8qA==" ++ ":" ++ nonce, "j59rMBQZxydvCm9s8EY7dQ==")]

def service (docs : List Element) (dmAuthScheme : DmAuthScheme := .basic) : DmService where
  settings := { dmAuthScheme }
  tree
  py := { asciiText with parseInt := decimal }
  crypto := {
    decodeBase64 := fun s =>
      [(login, imsi ++ ":" ++ "pw-4500"), (guess, imsi ++ ":" ++ "guess")].lookup s
    md5B64 := fun s => (digests.lookup s).getD "" }
  lower := id
  vformat s context := .ok (if s = "{impi}" then (context.lookup "impi").getD s else s)
  fromstring b :=
    match docs.find? fun doc => printed "" doc = b with
    | some doc => .ok doc
    | none => .error "Document is empty, line 1, column 1"
  tostring e := .ok (printed " xmlns=\"SYNCML:SYNCML1.2\"" e)
  wbxmlDecode _ := .error "document ends inside a token"
  wbxmlEncode _ _ := .error "malformed XML"

def message (login msgId maxMsgSize : String) (commands : List Element)
    (credType : String := authBasic) : Element :=
  branch "SyncML"
    [branch "SyncHdr"
      [leaf "SessionID" "42", leaf "MsgID" msgId,
       branch "Target" [leaf "LocURI" "https://acs.example.com/dm"],
       branch "Source" [leaf "LocURI" "IMEI:356938035643809", leaf "LocName" imsi],
       branch "Cred" [branch "Meta" [leaf "Type" credType], leaf "Data" login],
       branch "Meta" [leaf "MaxMsgSize" maxMsgSize]],
     branch "SyncBody" (commands ++ [leaf "Final" ""])]

def alert (code : String) : Element := branch "Alert" [leaf "CmdID" "1", leaf "Data" code]

def world : World where
  store := { subscribers := update (fun _ => none) imsi (some subscriber) }
  clock := ⟨1700000100, by decide⟩

/-! A handset that sends short messages, to a service that is printed byte by byte. -/

def octets (s : String) : Bytes := s.toByteArray.data.toList

def escaped (s : String) : Bytes :=
  (octets s).flatMap fun b =>
    if b = 38 then octets "&amp;" else if b = 60 then octets "&lt;"
    else if b = 62 then octets "&gt;" else [b]

def tagged (tag : Option QName) (starts : Bool) : Bytes :=
  match tag with
  | none => []
  | some t =>
    if t.ns = "" then octets t.name
    else octets "ns0:" ++ (octets t.name ++
      if starts then octets " xmlns:ns0=\"" ++ (octets t.ns ++ [34]) else [])

mutual

def spelt (indent : Option Nat) (declared : Bytes) : Element → Bytes → Bytes
  | .node tag _ text children _, rest =>
    let margin := List.replicate (indent.getD 0) 32
    let newline := if indent.isSome then [10] else []
    let inner := indent.map (· + 2)
    margin ++ 60 :: (tagged tag true ++ (declared ++
      match children with
      | [] =>
        if text = "" then 47 :: 62 :: (newline ++ rest)
        else 62 :: (escaped text ++ 60 :: 47 :: (tagged tag false ++ 62 :: (newline ++ rest)))
      | child :: children =>
        62 :: (newline ++ spelt inner [] child (speltAll inner children
          (margin ++ 60 :: 47 :: (tagged tag false ++ 62 :: (newline ++ rest)))))))

def speltAll (indent : Option Nat) : List Element → Bytes → Bytes
  | [], rest => rest
  | e :: es, rest => spelt indent [] e (speltAll indent es rest)

end

def sent (root : Element) : Bytes := spelt none [] root []

def brief (msgId : String) (commands : List Element) (header : List Element := []) : Element :=
  branch "SyncML"
    [branch "SyncHdr"
      ([leaf "MsgID" msgId, leaf "SessionID" "42",
        branch "Source" [leaf "LocURI" "IMEI:35", leaf "LocName" imsi]] ++ header),
     branch "SyncBody" commands]

def key : String := "35:42"

def server (docs : List Element) (dmAuthScheme : DmAuthScheme := .none) : DmService :=
  { service docs dmAuthScheme with
    tree := ⟨[{ nodes := [
      { uri := "./DevDetail/SwV", source := "device" },
      { uri := "./Cfg", format := "node", type := "node" },
      { uri := "./Cfg/T", default := "2" }] }]⟩
    fromstring b :=
      match docs.find? fun doc => sent doc = b with
      | some doc => .ok doc
      | none => .error "Document is empty, line 1, column 1"
    tostring e := .ok (octets "<?xml version='1.0' encoding='UTF-8'?>\n" ++
      spelt (some 0) (octets " xmlns=\"SYNCML:SYNCML1.2\"") e []) }

def statusOf (code : String) : Element :=
  branch "Status" [leaf "MsgRef" "2", leaf "CmdRef" "1", leaf "Cmd" "Add", leaf "Data" code]

def atMost (bytes : String) : Element := branch "Meta" [leaf "MaxMsgSize" bytes]

/-- A handset asks for its configuration, and takes 1000 bytes of it at once. -/
def asks : Element := brief "1" [alert alertClientInitiatedMgmt]

def takes : Element := brief "2" [] [atMost "1000"]

def cred (login : String) : Element :=
  branch "Cred" [branch "Meta" [leaf "Type" authBasic], leaf "Data" login]

def enters : Element := brief "1" [alert alertClientInitiatedMgmt] [cred login]

def halves : Element := brief "2" [] [cred login, atMost "1000"]

/-- The world once a handset has taken some of its configuration. -/
def halfway (service : DmService) (first second : Element) : World :=
  let opened := (service.foresee (sent first) contentTypeXml ⟨world, []⟩).2.world
  (service.foresee (sent second) contentTypeXml ⟨opened, []⟩).2.world

end Lab
end Acs.Omadm
