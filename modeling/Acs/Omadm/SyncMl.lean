import Acs.Data.Xml
import Acs.Security.Pii

/-! SyncML Device Management 1.2: the parsed message, and the server's message as it is built. -/

namespace Acs.Omadm
open Xml

abbrev Bytes := List UInt8

def metinfNs : String := "syncml:metinf"

def contentTypeXml : String := "application/vnd.syncml.dm+xml"

def contentTypeWbxml : String := "application/vnd.syncml.dm+wbxml"

def alertServerInitiatedMgmt : String := "1200"

def alertClientInitiatedMgmt : String := "1201"

def alertSessionAbort : String := "1223"

def alertEndOfSession : String := "1226"

def statusOk : String := "200"

def statusAuthAccepted : String := "212"

def statusInvalidCredentials : String := "401"

def statusNotFound : String := "404"

def statusOptionalFeatureNotSupported : String := "406"

def statusMissingCredentials : String := "407"

def statusAlreadyExists : String := "418"

def authBasic : String := "syncml:auth-basic"

def authMd5 : String := "syncml:auth-md5"

structure Credentials where
  type : String := ""
  format : String := "b64"
  data : String := ""

structure CommandItem where
  target : String := ""
  source : String := ""
  data : String := ""
  format : String := ""
  type : String := ""

def CommandItem.uri (i : CommandItem) : String := if i.target ≠ "" then i.target else i.source

structure Command where
  name : String
  cmdId : Int := 0
  items : List CommandItem := []
  data : String := ""
  cmdRef : String := ""
  msgRef : String := ""
  cmd : String := ""

def Command.firstUri (c : Command) : String :=
  match c.items with
  | i :: _ => i.uri
  | [] => ""

structure SyncHdr where
  sessionId : String := ""
  msgId : String := ""
  target : String := ""
  source : String := ""
  sourceName : String := ""
  maxMsgSize : Int := 0
  credentials : Option Credentials := none
  verDtd : String := "1.2"
  verProto : String := "DM/1.2"

structure SyncMlMessage where
  header : SyncHdr
  commands : List Command := []
  final : Bool := false

def SyncMlMessage.of (m : SyncMlMessage) (names : List String) : List Command :=
  m.commands.filter (·.name ∈ names)

def SyncMlMessage.hasAlert (m : SyncMlMessage) (code : String) : Bool :=
  ((m.of ["Alert"]).map Command.data).any fun data => data ≠ "" && (data = code : Bool)

section Parse
variable (py : PyText)

def textOf : Option Element → String
  | none => ""
  | some e => py.strip e.text

def deepText (parent : Option Element) (name : String) : String :=
  match parent with
  | none => ""
  | some e => textOf py (e.iter.find? (·.localName = name))

def integer (value : String) : Except String Int :=
  if !py.digits value then .ok 0
  else match py.parseInt value with
    | some n => .ok n
    | none => .error "invalid SyncML integer"

def parseItem (e : Element) : CommandItem where
  target := deepText py (e.find "Target") "LocURI"
  source := deepText py (e.find "Source") "LocURI"
  data := textOf py (e.find "Data")
  format := deepText py (e.find "Meta") "Format"
  type := deepText py (e.find "Meta") "Type"

def parseCommand (name : String) (e : Element) : Except String Command := do
  let cmdId ← integer py (textOf py (e.find "CmdID"))
  return {
    name, cmdId
    items := (e.children.filter (·.localName = "Item")).map (parseItem py)
    data := textOf py (e.find "Data")
    cmdRef := textOf py (e.find "CmdRef")
    msgRef := textOf py (e.find "MsgRef")
    cmd := textOf py (e.find "Cmd") }

def orText (value default : String) : String := if value ≠ "" then value else default

def parseHeader (e : Element) : Except String SyncHdr := do
  let credentials : Option Credentials := (e.find "Cred").map fun cred =>
    { type := deepText py cred "Type", format := orText (deepText py cred "Format") "b64"
      data := deepText py cred "Data" }
  let maxMsgSize ← integer py (deepText py (e.find "Meta") "MaxMsgSize")
  let msgId := textOf py (e.find "MsgID")
  let _ ← integer py msgId
  return {
    sessionId := textOf py (e.find "SessionID")
    msgId
    target := deepText py (e.find "Target") "LocURI"
    source := deepText py (e.find "Source") "LocURI"
    sourceName := deepText py (e.find "Source") "LocName"
    maxMsgSize, credentials
    verDtd := orText (textOf py (e.find "VerDTD")) "1.2"
    verProto := orText (textOf py (e.find "VerProto")) "DM/1.2" }

def parseCommands : List Element → Except String (List Command × Bool)
  | [] => .ok ([], false)
  | child :: rest => do
    if child.localName = "Final" then
      let (commands, _) ← parseCommands rest
      return (commands, true)
    else
      let command ← parseCommand py child.localName child
      let (commands, final) ← parseCommands rest
      return (command :: commands, final)

def parseTree (root : Element) : Except String SyncMlMessage := do
  if root.localName ≠ "SyncML" then
    .error ("root element must be SyncML, got '" ++ root.localName ++ "'")
  else match root.find "SyncHdr" with
    | none => .error "SyncHdr is missing"
    | some hdr =>
      match root.find "SyncBody" with
      | none => .error "SyncBody is missing"
      | some body =>
        let header ← parseHeader py hdr
        let (commands, final) ← parseCommands py body.children
        return { header, commands, final }

end Parse

structure SyncMlBuilder where
  sessionId : String
  msgId : Int
  target : String
  source : String
  maxMsgSize : Int := 16384
  commands : List Element := []
  nextCmdId : Nat := 1

namespace SyncMlBuilder
open Element

def metinf (name text : String) : Element := node (some { ns := metinfNs, name }) [] text [] ""

def itemMeta (fmt type : String) : List Element :=
  if fmt = "" ∧ type = "" then []
  else [branch "Meta" ((if fmt ≠ "" then [metinf "Format" fmt] else []) ++
    (if type ≠ "" then [metinf "Type" type] else []))]

/-- Append a command that starts with the next `CmdID`. -/
def command (b : SyncMlBuilder) (name : String) (content : List Element) : SyncMlBuilder :=
  { b with
    commands := b.commands ++ [branch name (leaf "CmdID" (toString b.nextCmdId) :: content)]
    nextCmdId := b.nextCmdId + 1 }

def chal (challenge : Option (String × String)) : List Element :=
  match challenge with
  | none => []
  | some (authType, nonce) =>
    [branch "Chal" [branch "Meta" ([metinf "Format" "b64", metinf "Type" authType] ++
      if nonce ≠ "" then [metinf "NextNonce" nonce] else [])]]

def status (b : SyncMlBuilder) (cmd msgRef cmdRef code : String) (targetRef : String := "")
    (challenge : Option (String × String) := none) : SyncMlBuilder :=
  b.command "Status" ([leaf "MsgRef" (orText msgRef "1"), leaf "CmdRef" (orText cmdRef "0"),
    leaf "Cmd" cmd] ++ (if targetRef ≠ "" then [leaf "TargetRef" targetRef] else []) ++
    chal challenge ++ [leaf "Data" code])

def itemOf (uri : String) (content : List Element) : Element :=
  branch "Item" (branch "Target" [leaf "LocURI" uri] :: content)

def get (b : SyncMlBuilder) (uris : List String) : SyncMlBuilder :=
  if uris.isEmpty then b else b.command "Get" (uris.map (itemOf · []))

def replace (b : SyncMlBuilder) (values : List (String × String × String × String)) :
    SyncMlBuilder :=
  if values.isEmpty then b
  else b.command "Replace" (values.map fun (uri, data, fmt, type) =>
    itemOf uri (itemMeta fmt type ++ [leaf "Data" data]))

def add (b : SyncMlBuilder) (values : List (String × String × String × String)) : SyncMlBuilder :=
  if values.isEmpty then b
  else b.command "Add" (values.map fun (uri, data, fmt, type) =>
    itemOf uri (itemMeta fmt (orText type (if fmt = "node" then "node" else "text/plain")) ++
      if fmt ≠ "node" then [leaf "Data" data] else []))

def build (b : SyncMlBuilder) (final : Bool) : Element :=
  branch "SyncML"
    [branch "SyncHdr"
      [leaf "VerDTD" "1.2", leaf "VerProto" "DM/1.2", leaf "SessionID" b.sessionId,
       leaf "MsgID" (toString b.msgId), branch "Target" [leaf "LocURI" b.target],
       branch "Source" [leaf "LocURI" b.source],
       branch "Meta" [metinf "MaxMsgSize" (toString b.maxMsgSize)]],
     branch "SyncBody" (b.commands ++ if final then [leaf "Final" ""] else [])]

end SyncMlBuilder
end Acs.Omadm
