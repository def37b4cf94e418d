import Acs.Omadm.Auth
import Acs.Omadm.MoTree
import Acs.Omadm.Port

/-! OMA-DM session handling. The session, the remainder and the device are deep copies of what the
store returned, so nothing of an answer reaches the store before `commit`. -/

namespace Acs.Omadm
open Interleave

structure DmResponse where
  statusCode : Nat
  body : Bytes := []
  contentType : String := contentTypeXml
  metric : String := ""
  detail : String := ""
  sessionFinished : Bool := false

structure DmChanges where
  session : Option DmSession := none
  device : Option Device := none
  pending : Option DmPendingPackage := none
  deletePendingId : String := ""
  deleteSessionId : String := ""
  progressInRemainder : Bool := false

namespace DmChanges

def saveRemainder (c : DmChanges) : List DmWrite :=
  (if c.deletePendingId ≠ "" then [.deleteDmPending c.deletePendingId] else []) ++
    (c.pending.map DmWrite.putDmPending).toList ++
    (if c.deleteSessionId ≠ "" then [.deleteDmPending c.deleteSessionId] else [])

def saveSession (c : DmChanges) : List DmWrite :=
  (c.session.map DmWrite.putDmSession).toList ++
    (if c.deleteSessionId ≠ "" then [.deleteDmSession c.deleteSessionId] else [])

/-- The writes of `commit`: the record that holds the progress comes last. -/
def writes (c : DmChanges) : List DmWrite :=
  (c.device.map DmWrite.putDevice).toList ++
    if c.progressInRemainder then c.saveSession ++ c.saveRemainder
    else c.saveRemainder ++ c.saveSession

end DmChanges

def writeAll : List DmWrite → DmProgram Unit
  | [] => pure ()
  | w :: ws => do
    Dm.write w
    writeAll ws

def DmChanges.commit (c : DmChanges) : DmProgram Unit := writeAll c.writes

structure DmService where
  settings : Settings
  tree : MoTree
  py : PyText
  crypto : DmCrypto
  /-- `str.lower` -/
  lower : String → String
  vformat : String → List (String × String) → Except PyError String
  /-- `etree.fromstring`, or the text of its `XMLSyntaxError`. -/
  fromstring : Bytes → Except String Xml.Element
  /-- `etree.tostring`, or the error of a text that is not XML. -/
  tostring : Xml.Element → Except PyError Bytes
  wbxmlDecode : Bytes → Except String Bytes
  wbxmlEncode : UInt8 → Bytes → Except String Bytes

abbrev Encoder := Bytes → Except String Bytes

/-- Namespace the client-chosen SessionID by device. -/
def sessionKey (deviceId wireSessionId : String) : String :=
  orText deviceId "unknown" ++ ":" ++ wireSessionId

def afterPrefix (pre s : String) : Option String :=
  if pre.toList.isPrefixOf s.toList then some (String.ofList (s.toList.drop pre.length)) else none

namespace DmService
variable (service : DmService)

def deviceIdFrom (source : String) : String :=
  if source = "" then ""
  else
    let value := service.py.strip source
    (["urn:gsma:imei:", "urn:imei:", "IMEI:", "imei:"].findSome? (afterPrefix · value)).getD value

def msgNumber (msgId : String) (default : Int) : Except DmError Int :=
  if service.py.digits msgId then
    match service.py.parseInt msgId with
    | some n => .ok n
    | none => .error (.py (.valueError "invalid literal for int()"))
  else .ok default

/-! ### Helpers -/

def lookupPassword (username : String) : DmProgram (Option String) := do
  if username = "" then return none
  else
    match ← Dm.getSubscriber username with
    | none => return none
    | some subscriber =>
      if subscriber.dmPassword = "" then return none else return some subscriber.dmPassword

def authenticate (message : SyncMlMessage) (session : DmSession) : DmProgram Auth.Verdict := do
  let credentials := message.header.credentials
  if service.settings.dmAuthScheme = .none then
    return Auth.authenticateNone service.crypto credentials
  else
    match credentials.filter (·.type = authMd5) with
    | some c =>
      let username := orText message.header.sourceName session.imsi
      let expected ← lookupPassword username
      return Auth.authenticateMd5 service.py service.crypto c username expected session.nonce
    | none =>
      match Auth.basicUser service.crypto credentials with
      | some username =>
        let expected ← lookupPassword username
        return Auth.authenticate service.crypto credentials expected
      | none => return Auth.authenticate service.crypto credentials none

def maxMsgSize (message : SyncMlMessage) : Int :=
  if message.header.maxMsgSize ≠ 0 then
    min service.settings.dmMaxMsgSize message.header.maxMsgSize
  else service.settings.dmMaxMsgSize

def newBuilder (message : SyncMlMessage) (session : DmSession) : Except DmError SyncMlBuilder := do
  let msgId ← service.msgNumber message.header.msgId 1
  return {
    sessionId := message.header.sessionId, msgId
    target := orText message.header.source session.deviceId
    source := service.settings.dmAccountUri
    maxMsgSize := service.maxMsgSize message }

/-- The `SyncHdr` status code and challenge for an authenticated message. -/
def headerStatus (session : DmSession) : String × Option (String × String) :=
  (if session.authenticated then statusAuthAccepted else statusOk,
   if session.authenticated && (service.settings.dmAuthScheme = .md5 : Bool) &&
      (session.nonce ≠ "" : Bool) then some (authMd5, session.nonce) else none)

def messageTree (message : SyncMlMessage) (session : DmSession)
    (header : String × Option (String × String)) (entries : List Entry) (final : Bool) :
    Except DmError Xml.Element := do
  let builder ← service.newBuilder message session
  let builder := builder.status "SyncHdr" message.header.msgId "0" header.1 message.header.target
    header.2
  let builder ← Package.apply builder entries
  return builder.build final

def encodeTree (encode : Encoder) (tree : Xml.Element) : Except DmError Bytes := do
  let xml ← (service.tostring tree).mapError DmError.py
  (encode xml).mapError DmError.wbxml

/-- Encode the next message of a package and return it with what is left. It opens with the
`Status` for the client's `SyncHdr` and holds as much of the queue as fits. -/
def nextMessage (message : SyncMlMessage) (session : DmSession) (queue : List Entry)
    (encode : Encoder) (required : Nat) (header : String × Option (String × String)) :
    Except DmError (Bytes × List Entry) := do
  let build (count : Nat) : Except DmError Bytes := do
    let tree ← service.messageTree message session header (queue.take count)
      (count = queue.length)
    service.encodeTree encode tree
  let (body, sent) ← Package.fill build (service.maxMsgSize message) queue.length required
  return (body, queue.drop sent)

/-- Answer with SyncML `Status` 401 or 407 and a `Chal`; the HTTP status stays 200. -/
def unauthorised (message : SyncMlMessage) (session : DmSession) (reason : String)
    (encode : Encoder) : Except DmError DmResponse :=
  let scheme := if service.settings.dmAuthScheme = .md5 then authMd5 else authBasic
  let code := if reason = "missing_credentials" then statusMissingCredentials
    else statusInvalidCredentials
  match service.nextMessage message session [] encode 0 (code, some (scheme, session.nonce)) with
  | .error (.messageTooLarge size limit) => .error (.challengeTooLarge size limit)
  | .error e => .error e
  | .ok (body, _) =>
    .ok { statusCode := 200, body, metric := "DmAuthRejected", detail := reason }

/-- Send the first message of a new package and keep the rest, against the phase the session is
now in. -/
def startPackage (message : SyncMlMessage) (session : DmSession) (queue : List Entry)
    (encode : Encoder) : Except DmError (Bytes × Option DmPendingPackage × Nat) := do
  let (body, rest) ← service.nextMessage message session queue encode (min 1 queue.length)
    (service.headerStatus session)
  if rest.isEmpty then return (body, none, 0)
  else
    let entries ← Package.toStored rest
    return (body, some { sessionId := session.sessionId, phase := session.phase, entries
                         expiresAt := session.expiresAt }, rest.length)

def statusFor (command : Command) : String :=
  if command.name ∈ ["Copy", "Delete", "Sequence", "Atomic", "Exec"] then
    statusOptionalFeatureNotSupported
  else if command.name ∈ ["Get", "Replace", "Add"] ∧ command.firstUri ≠ "" ∧
      service.tree.node command.firstUri = none then statusNotFound
  else if command.name ∈ ["Alert", "Results", "Get", "Replace", "Add", "Put"] then statusOk
  else statusOptionalFeatureNotSupported

def acks (message : SyncMlMessage) : List Entry :=
  (message.commands.filter (·.name ≠ "Status")).map fun command =>
    .status {
      cmd := command.name, msgRef := message.header.msgId, cmdRef := toString command.cmdId
      code := service.statusFor command, targetRef := command.firstUri }

def lastMessage (message : SyncMlMessage) (session : DmSession) (encode : Encoder) :
    Except DmError Bytes := do
  let queue := service.acks message
  let (body, _) ← service.nextMessage message session queue encode queue.length
    (service.headerStatus session)
  return body

def absorbItem (moValues : List (String × String)) (item : CommandItem) : List (String × String) :=
  if item.uri = "" ∨ item.data = "" then moValues
  else match service.tree.node item.uri with
    | none => moValues
    | some node =>
      if node.source ≠ "device" then moValues else setKey item.uri item.data moValues

def absorbed (message : SyncMlMessage) (session : DmSession) (device : Device) (clock : Clock) :
    Device :=
  let items := (message.of ["Replace", "Results", "Add"]).flatMap Command.items
  let moValues := items.foldl service.absorbItem device.moValues
  { device with
    imsi := orText session.imsi device.imsi
    moValues
    manufacturer := (moValues.lookup "./DevInfo/Man").getD device.manufacturer
    model := (moValues.lookup "./DevInfo/Mod").getD device.model
    dmClientVersion := (moValues.lookup "./DevInfo/DmV").getD device.dmClientVersion
    swVersion := (moValues.lookup "./DevDetail/SwV").getD device.swVersion
    lastSeenAt := clock.now }

def absorbDeviceValues (message : SyncMlMessage) (session : DmSession) : DmProgram Device := do
  let deviceId := orText session.deviceId "unknown"
  match ← Dm.getDevice deviceId with
  | some device =>
    let clock ← Dm.now
    return service.absorbed message session device clock
  | none =>
    let created ← Dm.now
    let clock ← Dm.now
    return service.absorbed message session { deviceId, lastSeenAt := created.now } clock

def renderValues (imsi msisdn deviceId : String) (provisioningVersion : Int)
    (features : List String) (overrides : List (String × String)) : Except PyError (List Item) := do
  let identity ← deriveIdentity service.py imsi msisdn
  let context := buildContext imsi msisdn deviceId identity
    [("provisioning_version", toString provisioningVersion)]
  let rendered ← (service.tree.serverNodes features).mapM fun node => do
    return (node, ← node.render service.vformat context overrides)
  return (rendered.filter (·.2 ≠ "")).map fun (node, value) =>
    { command := "Replace", uri := node.uri, data := value, fmt := node.format, type := node.type }

def configurationValues (session : DmSession) (subscriber : Option Subscriber) :
    Except PyError (List Item) :=
  match subscriber with
  | some s =>
    service.renderValues s.imsi s.msisdn session.deviceId s.provisioningVersion
      (["rcs"] ++ if s.volteEnabled then ["volte"] else []) s.overrides
  | none =>
    service.renderValues (orText session.imsi "001010000000000") "" session.deviceId 0
      ["rcs", "volte"] []

def subscriberOf (session : DmSession) : DmProgram (Option Subscriber) :=
  if session.imsi = "" then return none else Dm.getSubscriber session.imsi

def failures (message : SyncMlMessage) : List Command :=
  (message.of ["Status"]).filter fun command =>
    command.data ≠ "" && !("2".toList.isPrefixOf command.data.toList) &&
      (command.data ≠ statusAlreadyExists : Bool)

def recordFailures (message : SyncMlMessage) (session : DmSession) : DmSession :=
  { session with
    reportedFailures := session.reportedFailures + (failures message).length }

def continued (body : Bytes) (remaining : Nat) : DmResponse :=
  { statusCode := 200, body, metric := "DmPackageContinued"
    detail := "pending:" ++ toString remaining }

def close (body : Bytes) (session : DmSession) (changes : DmChanges) : DmResponse × DmChanges :=
  ({ statusCode := 200, body
     metric := if session.reportedFailures = 0 then "DmSessionComplete"
       else "DmSessionCompleteWithErrors"
     detail := "failures:" ++ toString session.reportedFailures, sessionFinished := true },
   { changes with deleteSessionId := session.sessionId })

/-! ### Phases -/

def inventoryQueue (message : SyncMlMessage) : List Entry :=
  service.acks message ++ service.tree.deviceQueryUris.map fun uri => .item { command := "Get", uri }

def requestInventory (message : SyncMlMessage) (session : DmSession) (changes : DmChanges)
    (encode : Encoder) (device : Device) : Except DmError (DmResponse × DmChanges) := do
  let session := { session with phase := "devinfo" }
  let (body, pending, _) ← service.startPackage message session (service.inventoryQueue message)
    encode
  return ({ statusCode := 200, body, metric := "DmInventoryRequested"
            detail := "get:" ++ toString service.tree.deviceQueryUris.length },
          { changes with device := some device, pending, session := some session })

def handleInit (message : SyncMlMessage) (session : DmSession) (changes : DmChanges)
    (encode : Encoder) : DmProgram (DmResponse × DmChanges) := do
  if !(message.hasAlert alertClientInitiatedMgmt || message.hasAlert alertServerInitiatedMgmt) then
    return ({ statusCode := 400, metric := "DmProtocolError"
              detail := "first package must carry Alert 1200 or 1201" }, changes)
  else
    let device ← service.absorbDeviceValues message session
    Dm.ofExcept (service.requestInventory message session changes encode device)

/-- The configuration package: the interior nodes first, since a `Replace` below a node that does
not exist fails. -/
def configurationQueue (message : SyncMlMessage) (values : List Item) : List Entry :=
  service.acks message ++
    ((service.tree.interiorNodesFor (values.map Item.uri)).map fun uri =>
      .item { command := "Add", uri, data := "", fmt := "node", type := "node" }) ++
    values.map .item

def pushConfiguration (message : SyncMlMessage) (session : DmSession) (changes : DmChanges)
    (encode : Encoder) (device : Device) (subscriber : Option Subscriber) :
    Except DmError (DmResponse × DmChanges) := do
  let values ← (service.configurationValues session subscriber).mapError DmError.py
  let interiors := service.tree.interiorNodesFor (values.map Item.uri)
  let session := { session with phase := "configure" }
  let (body, pending, _) ← service.startPackage message session
    (service.configurationQueue message values) encode
  return ({ statusCode := 200, body, metric := "DmConfigPushed"
            detail := "add:" ++ toString interiors.length ++ " replace:" ++ toString values.length },
          { changes with device := some device, pending, session := some session })

def handleDevinfo (message : SyncMlMessage) (session : DmSession) (changes : DmChanges)
    (encode : Encoder) : DmProgram (DmResponse × DmChanges) := do
  let device ← service.absorbDeviceValues message session
  let subscriber ← subscriberOf session
  Dm.ofExcept (service.pushConfiguration message session changes encode device subscriber)

def handleFinish (message : SyncMlMessage) (session : DmSession) (changes : DmChanges)
    (encode : Encoder) : Except DmError (DmResponse × DmChanges) := do
  let session := { recordFailures message session with phase := "done" }
  let (body, pending, remaining) ← service.startPackage message session (service.acks message)
    encode
  let changes := { changes with pending }
  if remaining ≠ 0 then return (continued body remaining, { changes with session := some session })
  else return close body session changes

/-- The next message of a package, and the rest of the package. One entry beyond the
acknowledgements is the progress that stops it from stalling. -/
def sendNext (message : SyncMlMessage) (session : DmSession) (pending : DmPendingPackage)
    (changes : DmChanges) (encode : Encoder) (device : Device) :
    Except DmError (DmResponse × DmChanges) := do
  let changes := { changes with device := some device, progressInRemainder := true }
  let session := if session.phase ∈ ["configure", "done"] then recordFailures message session
    else session
  let acks := service.acks message
  let unsent ← Package.fromStored pending.entries
  let (body, rest) ← service.nextMessage message session (acks ++ unsent) encode
    (acks.length + 1) (service.headerStatus session)
  if rest.isEmpty then
    let changes := { changes with deletePendingId := session.sessionId }
    if session.phase = "done" then return close body session changes
    else return (continued body rest.length, { changes with session := some session })
  else
    let entries ← Package.toStored rest
    return (continued body rest.length,
      { changes with
        pending := some { pending with entries, messages := pending.messages + 1 }
        session := some session })

/-- Answer from the unsent part of the package, without changing phase. -/
def continuePackage (message : SyncMlMessage) (session : DmSession) (pending : DmPendingPackage)
    (changes : DmChanges) (encode : Encoder) : DmProgram (DmResponse × DmChanges) := do
  if Package.maxMessagesPerPackage ≤ pending.messages then
    return ({ statusCode := 413, metric := "DmTooLarge", detail := "too_many_messages"
              sessionFinished := true }, { changes with deleteSessionId := session.sessionId })
  else
    let device ← service.absorbDeviceValues message session
    Dm.ofExcept (service.sendNext message session pending changes encode device)

/-! ### One message -/

def newSession (header : SyncHdr) (clock : Clock) : DmSession :=
  let deviceId := service.deviceIdFrom header.source
  { sessionId := sessionKey deviceId header.sessionId, deviceId
    expiresAt := clock.now + service.settings.dmSessionTtlSeconds }

def openSession (header : SyncHdr) (session : DmSession) : DmSession :=
  { session with
    wireSessionId := header.sessionId
    deviceId := orText (service.deviceIdFrom header.source) session.deviceId }

def loadSession (header : SyncHdr) : DmProgram DmSession := do
  match ← Dm.getDmSession (sessionKey (service.deviceIdFrom header.source) header.sessionId) with
  | some session => return service.openSession header session
  | none =>
    let clock ← Dm.now
    return service.openSession header (service.newSession header clock)

/-- The client gives the session up or ends it: any unsent part of a package is dropped. -/
def endSession (message : SyncMlMessage) (session : DmSession) (changes : DmChanges)
    (encode : Encoder) (metric detail : String) : Except DmError (DmResponse × DmChanges) := do
  let body ← service.lastMessage message session encode
  return ({ statusCode := 200, body, metric, detail, sessionFinished := true },
    { changes with deleteSessionId := session.sessionId })

def dispatch (message : SyncMlMessage) (session : DmSession) (pending : Option DmPendingPackage)
    (changes : DmChanges) (encode : Encoder) : DmProgram (DmResponse × DmChanges) :=
  if message.hasAlert alertSessionAbort then
    Dm.ofExcept (service.endSession message session changes encode "DmSessionAborted" "client_abort")
  else if message.hasAlert alertEndOfSession then
    Dm.ofExcept (service.endSession message session changes encode "DmSessionEnded" "client_ended")
  else
    match pending with
    | some pending => service.continuePackage message session pending changes encode
    | none =>
      if session.phase = "init" then service.handleInit message session changes encode
      else if session.phase = "devinfo" then service.handleDevinfo message session changes encode
      else Dm.ofExcept (service.handleFinish message session changes encode)

def acceptedSession (session : DmSession) (username : String) (lastMsgId : Int) : DmSession :=
  { session with authenticated := true, imsi := orText username session.imsi, lastMsgId }

/-- The remainder to go on with, and what is to be dropped: one of another phase belongs to a
package that is over. -/
def currentRemainder (session : DmSession) (stored : Option DmPendingPackage) :
    Option DmPendingPackage × DmChanges :=
  match stored with
  | none => (none, {})
  | some pending =>
    if pending.phase ≠ session.phase then (none, { deletePendingId := session.sessionId })
    else (some pending, {})

def handleAuthenticated (message : SyncMlMessage) (session : DmSession) (encode : Encoder) :
    DmProgram (DmResponse × DmChanges) := do
  if Package.maxAcknowledgedCommands < (service.acks message).length then
    return ({ statusCode := 413, metric := "DmTooLarge", detail := "too_many_commands" }, {})
  else
    let stored ← Dm.getDmPending session.sessionId
    let (pending, changes) := currentRemainder session stored
    service.dispatch message session pending changes encode

def rejectMessage (message : SyncMlMessage) (session : DmSession) (reason nonce : String)
    (encode : Encoder) : Except DmError (DmResponse × DmChanges) := do
  let session := { session with nonce, authenticated := false }
  let response ← service.unauthorised message session reason encode
  return (response, { session := some session })

def handleMessage (message : SyncMlMessage) (encode : Encoder) :
    DmProgram (DmResponse × DmChanges) := do
  let header := message.header
  if header.sessionId = "" || header.msgId = "" then
    return ({ statusCode := 400, metric := "DmProtocolError"
              detail := "missing SessionID or MsgID" }, {})
  else
    let session ← service.loadSession header
    match ← service.authenticate message session with
    | .rejected reason keepOrFresh =>
      if keepOrFresh = .keep ∧ session.nonce ≠ "" then
        Dm.ofExcept (service.rejectMessage message session reason session.nonce encode)
      else
        let nonce ← Dm.makeNonce
        Dm.ofExcept (service.rejectMessage message session reason nonce encode)
    | .accepted username =>
      let lastMsgId ← Dm.ofExcept (service.msgNumber header.msgId 0)
      service.handleAuthenticated message (acceptedSession session username lastMsgId) encode

def refusal : DmError → Option DmResponse
  | .wbxml _ =>
    some { statusCode := 500, metric := "DmEncodingError", detail := "response_encoding_failed" }
  | .packageTooLarge _ =>
    some { statusCode := 413, metric := "DmTooLarge", detail := "package_too_large" }
  | .challengeTooLarge _ _ =>
    some { statusCode := 400, metric := "DmChallengeTooLarge"
           detail := "challenge_exceeds_max_msg_size" }
  | .messageTooLarge _ _ =>
    some { statusCode := 400, metric := "DmMessageTooLarge"
           detail := "message_exceeds_max_msg_size" }
  | _ => none

def mediaType (contentType : String) : String :=
  service.lower (service.py.strip (String.ofList (contentType.toList.takeWhile (· ≠ ';'))))

def read (payload : Bytes) (contentType : String) :
    Except DmResponse (SyncMlMessage × Bool × Encoder) :=
  if !service.settings.dmEnabled then
    .error { statusCode := 404, metric := "DmDisabled", detail := "dm_disabled" }
  else if service.settings.dmMaxMsgSize * 4 < payload.length then
    .error { statusCode := 413, metric := "DmTooLarge", detail := "payload_too_large" }
  else
    let mediaType := service.mediaType contentType
    let binary : Bool := mediaType = contentTypeWbxml
    if mediaType.toList.tails.any "wbxml".toList.isPrefixOf && !binary then
      .error { statusCode := 415, metric := "DmUnsupportedEncoding"
               detail := "unsupported_content_type" }
    else
      let xml := if binary then service.wbxmlDecode payload else .ok payload
      let parsed := xml >>= fun xml =>
        ((service.fromstring xml).mapError ("malformed SyncML: " ++ ·)) >>= parseTree service.py
      match parsed with
      | .error detail => .error { statusCode := 400, metric := "DmProtocolError", detail }
      | .ok message =>
        let version := payload.headD 0
        .ok (message, binary,
          fun xml => if binary then service.wbxmlEncode version xml else .ok xml)

/-- Handle a message that was read: nothing reaches the store until the answer is encoded. -/
def respond (message : SyncMlMessage) (binary : Bool) (encode : Encoder) : DmProgram DmResponse :=
  ExceptT.mk do
    match ← (service.handleMessage message encode).run with
    | .error e =>
      match refusal e with
      | some response => return .ok response
      | none => return .error e
    | .ok (outcome, changes) =>
      let outcome := if binary && !outcome.body.isEmpty then
          { outcome with contentType := contentTypeWbxml }
        else outcome
      (changes.commit >>= fun _ => pure outcome).run

/-- Process one SyncML DM package. -/
def handle (payload : Bytes) (contentType : String) : DmProgram DmResponse :=
  match service.read payload contentType with
  | .error response => pure response
  | .ok (message, binary, encode) => service.respond message binary encode

end DmService
end Acs.Omadm
