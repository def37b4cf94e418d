import Acs.Data.Except
import Acs.Data.Markup
import Acs.Data.Utf8

/-! WBXML 1.2 and 1.3 for SyncML and MetInf: `decode` writes XML from it, `encode` reads XML. -/

namespace Acs.Wbxml
open Xml

structure WbxmlError where
  message : String
deriving DecidableEq, Repr

/-! ### Constants -/

def version12 : UInt8 := 0x02
def version13 : UInt8 := 0x03
def publicId11 : Nat := 0x0FD3
def publicId12 : Nat := 0x1201
def charsetUtf8 : Nat := 106

def maxInputBytes : Nat := 512 * 1024
def maxXmlBytes : Nat := 2 * 1024 * 1024
def maxDepth : Nat := 64
def maxElements : Nat := 16384
def maxMbUint32Bytes : Nat := 5
def maxUint32 : Nat := 2 ^ 32 - 1

def maxEncodeXmlBytes : Nat := 32 * 1024 * 1024
def maxEncodeBytes : Nat := 16 * 1024 * 1024
def maxEncodeDepth : Nat := 128
def maxEncodeElements : Nat := 8 * maxElements

def switchPage : UInt8 := 0x00
def endToken : UInt8 := 0x01
def strI : UInt8 := 0x03
def strT : UInt8 := 0x83
def opaqueData : UInt8 := 0xC3
def content : UInt8 := 0x40
def attributes : UInt8 := 0x80

def metinfNs : String := "syncml:metinf"

def publicIds : List (Nat × String × String) :=
  [(publicId11, "-//SYNCML//DTD SyncML 1.1//EN", "SYNCML:SYNCML1.1"),
    (publicId12, "-//SYNCML//DTD SyncML 1.2//EN", "SYNCML:SYNCML1.2")]

def syncmlTags : List (UInt8 × String) :=
  [(0x05, "Add"), (0x06, "Alert"), (0x07, "Archive"), (0x08, "Atomic"), (0x09, "Chal"),
    (0x0A, "Cmd"), (0x0B, "CmdID"), (0x0C, "CmdRef"), (0x0D, "Copy"), (0x0E, "Cred"),
    (0x0F, "Data"), (0x10, "Delete"), (0x11, "Exec"), (0x12, "Final"), (0x13, "Get"),
    (0x14, "Item"), (0x15, "Lang"), (0x16, "LocName"), (0x17, "LocURI"), (0x18, "Map"),
    (0x19, "MapItem"), (0x1A, "Meta"), (0x1B, "MsgID"), (0x1C, "MsgRef"), (0x1D, "NoResp"),
    (0x1E, "NoResults"), (0x1F, "Put"), (0x20, "Replace"), (0x21, "RespURI"), (0x22, "Results"),
    (0x23, "Search"), (0x24, "Sequence"), (0x25, "SessionID"), (0x26, "SftDel"), (0x27, "Source"),
    (0x28, "SourceRef"), (0x29, "Status"), (0x2A, "Sync"), (0x2B, "SyncBody"), (0x2C, "SyncHdr"),
    (0x2D, "SyncML"), (0x2E, "Target"), (0x2F, "TargetRef"), (0x31, "VerDTD"), (0x32, "VerProto"),
    (0x33, "NumberOfChanges"), (0x34, "MoreData"), (0x35, "Field"), (0x36, "Filter"),
    (0x37, "Record"), (0x38, "FilterType"), (0x39, "SourceParent"), (0x3A, "TargetParent"),
    (0x3B, "Move"), (0x3C, "Correlator")]

def metinfTags : List (UInt8 × String) :=
  [(0x05, "Anchor"), (0x06, "EMI"), (0x07, "Format"), (0x08, "FreeID"), (0x09, "FreeMem"),
    (0x0A, "Last"), (0x0B, "Mark"), (0x0C, "MaxMsgSize"), (0x0D, "Mem"), (0x0E, "MetInf"),
    (0x0F, "Next"), (0x10, "NextNonce"), (0x11, "SharedMem"), (0x12, "Size"), (0x13, "Type"),
    (0x14, "Version"), (0x15, "MaxObjSize"), (0x16, "FieldLevel")]

def tagPages : List (List (UInt8 × String)) := [syncmlTags, metinfTags]

def tagTokens : List (List (String × UInt8)) := tagPages.map (·.map Prod.swap)

def utf8Text (raw : List UInt8) : Except WbxmlError String :=
  match fromUtf8 raw with
  | none => .error ⟨"WBXML text is not UTF-8"⟩
  | some text =>
    if text.toList.all isXmlChar then .ok text
    else .error ⟨"WBXML text contains an invalid XML character"⟩

def tableString (table : List UInt8) (offset : Nat) : Except WbxmlError (List UInt8) :=
  if table.length ≤ offset then .error ⟨"WBXML string table offset is out of range"⟩
  else if 0 ∈ table.drop offset then .ok ((table.drop offset).takeWhile (· ≠ 0))
  else .error ⟨"unterminated WBXML string table entry"⟩

/-- The groups of seven bits above the last one, the highest first. -/
def highGroups (value : Nat) (below : List UInt8) : List UInt8 :=
  if h : value = 0 then below
  else highGroups (value >>> 7) (UInt8.ofNat (value &&& 0x7F ||| 0x80) :: below)
termination_by value
decreasing_by
  rw [Nat.shiftRight_eq_div_pow]
  omega

def mbUint32 (value : Int) : Except WbxmlError (List UInt8) :=
  if 0 ≤ value ∧ value ≤ maxUint32 then
    .ok (highGroups (value.toNat >>> 7) [UInt8.ofNat (value.toNat &&& 0x7F)])
  else .error ⟨"WBXML integer exceeds uint32"⟩

structure Output where
  data : List UInt8 := []
  limit : Nat

def Output.write (o : Output) (data : List UInt8) : Except WbxmlError Output :=
  if o.limit - o.data.length < data.length then .error ⟨"WBXML output exceeds size limit"⟩
  else .ok { o with data := o.data ++ data }

/-! ### The decoder

The readers take what is left of the payload and return what they leave of it. -/

def take (length : Nat) (rest : List UInt8) : Except WbxmlError (List UInt8 × List UInt8) :=
  if rest.length < length then .error ⟨"truncated WBXML input"⟩
  else .ok (rest.take length, rest.drop length)

def byte (rest : List UInt8) : Except WbxmlError (UInt8 × List UInt8) := do
  let (raw, rest) ← take 1 rest
  return (raw.headD 0, rest)

def integerFrom (value : Nat) : Nat → List UInt8 → Except WbxmlError (Nat × List UInt8)
  | 0, _ => .error ⟨"WBXML integer exceeds five bytes"⟩
  | left + 1, rest => do
    let (b, rest) ← byte rest
    let value := value <<< 7 ||| (b.toNat &&& 0x7F)
    if maxUint32 < value then .error ⟨"WBXML integer exceeds uint32"⟩
    else if b &&& 0x80 = 0 then return (value, rest)
    else integerFrom value left rest

def integer (rest : List UInt8) : Except WbxmlError (Nat × List UInt8) :=
  integerFrom 0 maxMbUint32Bytes rest

def inline (rest : List UInt8) : Except WbxmlError (List UInt8 × List UInt8) :=
  if 0 ∈ rest then do
    let (raw, rest) ← take (rest.takeWhile (· ≠ 0)).length rest
    let (_, rest) ← take 1 rest
    return (raw, rest)
  else .error ⟨"unterminated WBXML inline string"⟩

structure Walk where
  output : Output := { limit := maxXmlBytes }
  page : Nat := 0
  stack : List String := []
  elements : Nat := 0

def rawText (table : List UInt8) (token : UInt8) (rest : List UInt8) :
    Except WbxmlError (List UInt8 × List UInt8) :=
  if token = strI then inline rest
  else if token = strT then do
    let (offset, rest) ← integer rest
    return (← tableString table offset, rest)
  else do
    let (length, rest) ← integer rest
    take length rest

def qualifiedName (page : Nat) (name : String) : String :=
  if page = 0 then name else "metinf:" ++ name

def startTag (ns : String) (token : UInt8) (w : Walk) : Except WbxmlError Walk :=
  if token = 0x84 ∨ token = 0xC4 ∨ 5 ≤ token &&& 0x3F ∧ token &&& attributes ≠ 0 then
    .error ⟨"WBXML attributes are not supported"⟩
  else if token &&& 0x3F < 5 then .error ⟨"unsupported WBXML global token"⟩
  else
    match (tagPages.getD w.page []).lookup (token &&& 0x3F) with
    | none => .error ⟨"unknown WBXML tag token"⟩
    | some name =>
      if maxDepth ≤ w.stack.length then .error ⟨"WBXML nesting exceeds depth limit"⟩
      else if maxElements < w.elements + 1 then .error ⟨"WBXML element count exceeds limit"⟩
      else if w.elements + 1 = 1 ∧ (w.page ≠ 0 ∨ name ≠ "SyncML") then
        .error ⟨"WBXML root must be SyncML"⟩
      else do
        let qualified := qualifiedName w.page name
        let declarations :=
          if w.elements + 1 = 1 then
            " xmlns=\"" ++ ns ++ "\" xmlns:metinf=\"" ++ metinfNs ++ "\""
          else ""
        let closing := if token &&& content ≠ 0 then ">" else "/>"
        let output ← w.output.write (utf8 ("<" ++ qualified ++ declarations ++ closing))
        return { w with
          output
          elements := w.elements + 1
          stack := if token &&& content ≠ 0 then qualified :: w.stack else w.stack }

def pageToken (w : Walk) (rest : List UInt8) : Except WbxmlError (Walk × List UInt8) := do
  let (page, rest) ← byte rest
  if tagPages.length ≤ page.toNat then .error ⟨"unsupported WBXML code page"⟩
  else return ({ w with page := page.toNat }, rest)

def endTag (w : Walk) : Except WbxmlError Walk :=
  match w.stack with
  | [] => .error ⟨"unexpected WBXML END"⟩
  | name :: stack => do
    let output ← w.output.write (utf8 ("</" ++ name ++ ">"))
    return { w with output, stack }

def textToken (table : List UInt8) (token : UInt8) (w : Walk) (rest : List UInt8) :
    Except WbxmlError (Walk × List UInt8) :=
  if w.stack = [] then .error ⟨"WBXML text outside the root"⟩
  else do
    let (raw, rest) ← rawText table token rest
    let text ← utf8Text raw
    let output ← w.output.write (utf8 (String.ofList (escape text)))
    return ({ w with output }, rest)

def anyToken (ns : String) (table : List UInt8) (token : UInt8) (w : Walk) (rest : List UInt8) :
    Except WbxmlError (Walk × List UInt8) :=
  if token = switchPage then pageToken w rest
  else if token = endToken then (endTag w).map (·, rest)
  else if token = strI ∨ token = strT ∨ token = opaqueData then textToken table token w rest
  else (startTag ns token w).map (·, rest)

def walk (ns : String) (table : List UInt8) (w : Walk) (rest : List UInt8) :
    Except WbxmlError (Walk × List UInt8) :=
  if w.elements ≠ 0 ∧ w.stack = [] then .error ⟨"trailing content after WBXML root"⟩
  else do
    let (token, rest) ← byte rest
    anyToken ns table token w rest

/-- The loop; a pass takes a byte at least, so that there are no more passes than bytes. -/
def walkAll (ns : String) (table : List UInt8) : Nat → Walk → List UInt8 → Except WbxmlError Walk
  | 0, w, _ => .ok w
  | passes + 1, w, rest =>
    if rest = [] then .ok w
    else do
      let (w, rest) ← walk ns table w rest
      walkAll ns table passes w rest

def publicIdNamed (name : String) : Nat :=
  ((publicIds.find? (·.2.1 = name)).map Prod.fst).getD 0

def publicIdOf (table : List UInt8) (publicId : Nat) : Option Nat → Except WbxmlError Nat
  | none => .ok publicId
  | some offset => do return publicIdNamed (← utf8Text (← tableString table offset))

def publicOffsetOf (publicId : Nat) (rest : List UInt8) :
    Except WbxmlError (Option Nat × List UInt8) :=
  if publicId = 0 then (integer rest).map fun (offset, rest) => (some offset, rest)
  else .ok (none, rest)

def header (payload : List UInt8) : Except WbxmlError (String × List UInt8 × List UInt8) := do
  let (version, rest) ← byte payload
  if version ≠ version12 ∧ version ≠ version13 then .error ⟨"unsupported WBXML version"⟩
  else do
    let (publicId, rest) ← integer rest
    let (publicOffset, rest) ← publicOffsetOf publicId rest
    let (charset, rest) ← integer rest
    if charset ≠ charsetUtf8 then .error ⟨"unsupported WBXML charset"⟩
    else do
      let (length, rest) ← integer rest
      let (table, rest) ← take length rest
      let publicId ← publicIdOf table publicId publicOffset
      match publicIds.lookup publicId with
      | none => .error ⟨"unsupported WBXML public identifier"⟩
      | some (_, ns) => return (ns, table, rest)

def decode (payload : List UInt8) : Except WbxmlError (List UInt8) :=
  if maxInputBytes < payload.length then .error ⟨"WBXML input exceeds size limit"⟩
  else do
    let (ns, table, rest) ← header payload
    let w ← walkAll ns table rest.length {} rest
    if w.stack ≠ [] then .error ⟨"missing WBXML END"⟩
    else if w.elements = 0 then .error ⟨"WBXML root is missing"⟩
    else return w.output.data

/-! ### The encoder -/

/-- A document as the parser met it, with what `_TreeBuilder` looks for. -/
structure Document where
  root : Element
  doctype : Bool := false

/-- Why the parser gives up: at an encoding that it does not take, or after it has told
`_TreeBuilder` of a document type and of these start tags. -/
inductive ParseError where
  | encoding
  | malformed (doctype : Bool) (starts : List Start)

/-- What XML lets a tree hold. -/
def Legal (root : Element) : Prop :=
  root.tail = "" ∧ ∀ e ∈ root.iter,
    (∀ c ∈ e.text.toList, isXmlChar c) ∧ ∀ c ∈ e.tail.toList, isXmlChar c

/-- `xml.etree.ElementTree`, to which plain markup means what it means to `parse`. -/
structure ElementTree where
  fromstring : List UInt8 → Except ParseError Document
  legal : ∀ {payload d}, fromstring payload = .ok d → Legal d.root
  plain : ∀ {s : String} {root : Element}, parse s.toList = some root → Legal root →
    fromstring (utf8 s) = .ok { root }

inductive PublicId where
  | number (id : Int)
  | name (id : String)

structure Options where
  version : Int := 0x03
  publicId : Option PublicId := none
  useStringTable : Bool := false
  opaqueText : Bool := false

def refuseStarts (elements : Nat) : List Start → Option WbxmlError
  | [] => none
  | start :: starts =>
    if maxEncodeDepth < start.depth then some ⟨"WBXML nesting exceeds depth limit"⟩
    else if maxEncodeElements < elements + 1 then some ⟨"WBXML element count exceeds limit"⟩
    else if start.attributes ≠ [] then some ⟨"WBXML attributes are not supported"⟩
    else refuseStarts (elements + 1) starts

/-- What `_TreeBuilder` refuses first; a document type stands before the root. -/
def refuse (doctype : Bool) (starts : List Start) : Option WbxmlError :=
  if doctype then some ⟨"XML document types are not supported"⟩ else refuseStarts 0 starts

/-- `ElementTree.fromstring` over `_TreeBuilder`, which refuses what the encoder has no use for. -/
def readTree (xml : ElementTree) (payload : List UInt8) : Except WbxmlError Element :=
  match xml.fromstring payload with
  | .error .encoding => .error ⟨"unsupported XML encoding for WBXML encoding"⟩
  | .error (.malformed doctype starts) =>
    .error ((refuse doctype starts).getD ⟨"malformed XML for WBXML encoding"⟩)
  | .ok d =>
    match refuse d.doctype (d.root.starts 1) with
    | some error => .error error
    | none => .ok d.root

theorem refuseStarts_eq_none {elements : Nat} {starts : List Start} :
    refuseStarts elements starts = none ↔ (∀ s ∈ starts, s.depth ≤ maxEncodeDepth) ∧
      (∀ s ∈ starts, s.attributes = []) ∧
      (starts ≠ [] → elements + starts.length ≤ maxEncodeElements) := by
  induction starts generalizing elements with
  | nil => simp [refuseStarts]
  | cons start starts ih =>
    simp only [refuseStarts, List.forall_mem_cons, List.length_cons]
    split_ifs with hdepth hcount hattributes
    · exact iff_of_false nofun fun h => absurd h.1.1 (Nat.not_le.mpr hdepth)
    · refine iff_of_false nofun fun h => ?_
      have hle := h.2.2 (List.cons_ne_nil _ _)
      omega
    · exact iff_of_false nofun fun h => hattributes h.2.1.1
    · rw [ih]
      constructor
      · rintro ⟨hdepths, hall, hlength⟩
        refine ⟨⟨Nat.not_lt.mp hdepth, hdepths⟩, ⟨not_not.mp hattributes, hall⟩, fun _ => ?_⟩
        cases starts with
        | nil => simpa using Nat.not_lt.mp hcount
        | cons next starts =>
          have hle := hlength (List.cons_ne_nil _ _)
          omega
      · rintro ⟨⟨-, hdepths⟩, ⟨-, hall⟩, hlength⟩
        have hle := hlength (List.cons_ne_nil _ _)
        exact ⟨hdepths, hall, fun _ => by omega⟩

theorem refuse_eq_none {doctype : Bool} {root : Element} :
    refuse doctype (root.starts 1) = none ↔ doctype = false ∧ root.depth ≤ maxEncodeDepth ∧
      root.iter.length ≤ maxEncodeElements ∧ ∀ e ∈ root.iter, e.attributes = [] := by
  have hattributes := root.starts_attributes 1
  have hlength : (root.starts 1).length = root.iter.length := by
    simpa using congrArg List.length hattributes
  have hplain : (∀ s ∈ root.starts 1, s.attributes = []) ↔ ∀ e ∈ root.iter, e.attributes = [] := by
    have hmap := List.forall_mem_map (f := Start.attributes) (l := root.starts 1)
      (P := (· = ([] : List (String × String))))
    rw [← hmap, hattributes, List.forall_mem_map]
  have hne : root.starts 1 ≠ [] := by
    cases root
    exact List.cons_ne_nil _ _
  have hdepth := root.forall_starts_depth maxEncodeDepth 1
  unfold refuse
  cases doctype with
  | true => simp
  | false =>
    rw [if_neg (by decide), refuseStarts_eq_none, hplain, hdepth, hlength]
    constructor
    · rintro ⟨hshallow, hall, hfew⟩
      have hle := hfew hne
      exact ⟨rfl, by omega, by omega, hall⟩
    · rintro ⟨-, hshallow, hfew, hall⟩
      exact ⟨by omega, hall, fun _ => by omega⟩

def isspace (s : String) : Bool :=
  s ≠ "" && s.toList.all fun c =>
    (0x09 ≤ c.toNat && c.toNat ≤ 0x0D) || (0x1C ≤ c.toNat && c.toNat ≤ 0x20) ||
      (0x2000 ≤ c.toNat && c.toNat ≤ 0x200A) ||
      [0x85, 0xA0, 0x1680, 0x2028, 0x2029, 0x202F, 0x205F, 0x3000].contains c.toNat

mutual

def stripBlanks : Element → Element
  | .node tag attributes text children tail =>
    .node tag attributes (if !children.isEmpty && isspace text then "" else text)
      (stripAll children) (if isspace tail then "" else tail)

def stripAll : List Element → List Element
  | [] => []
  | e :: es => stripBlanks e :: stripAll es

end

structure StringTable where
  table : List UInt8 := []
  offsets : List (String × Nat) := []

def StringTable.add (t : StringTable) (text : String) : StringTable :=
  { table := t.table ++ (utf8 text ++ [0x00]), offsets := (text, t.table.length) :: t.offsets }

def texts (root : Element) : List String :=
  (root.iter.flatMap fun e => [e.text, e.tail]).filter (· ≠ "")

def startTable : Option PublicId → StringTable
  | some (.name id) => StringTable.add {} id
  | _ => {}

/-- Takes a text into the table that the document repeats and that is worth its place. -/
def StringTable.addRepeated (all : List String) (t : StringTable) (text : String) : StringTable :=
  if 1 < all.count text ∧ 3 < (utf8 text).length ∧ t.offsets.lookup text = none then t.add text
  else t

def stringTable (root : Element) (options : Options) : StringTable :=
  if options.useStringTable && !options.opaqueText then
    -- each text once, in the order in which they are first met
    (texts root).eraseDups.foldl (StringTable.addRepeated (texts root))
      (startTable options.publicId)
  else startTable options.publicId

structure Encoding where
  syncmlNamespace : String
  offsets : List (String × Nat)
  opaqueText : Bool

/-- What `element_content` writes to, and the code page it has come to. -/
structure Encoder where
  output : Output
  page : Nat := 0

def Encoder.write (o : Encoder) (data : List UInt8) : Except WbxmlError Encoder := do
  return { o with output := ← o.output.write data }

def textContent (env : Encoding) (text : String) (o : Encoder) : Except WbxmlError Encoder :=
  if text = "" then .ok o
  else if env.opaqueText then do
    o.write (opaqueData :: (← mbUint32 (utf8 text).length) ++ utf8 text)
  else
    match env.offsets.lookup text with
    | some offset => do o.write (strT :: (← mbUint32 offset))
    | none => o.write (strI :: utf8 text ++ [0x00])

def tagToken (env : Encoding) (tag : Option QName) : Except WbxmlError (Nat × UInt8) :=
  let ns := (tag.map QName.ns).getD ""
  let tagPage := if ns = metinfNs then 1 else 0
  if ns ≠ "" ∧ ns ≠ env.syncmlNamespace ∧ ns ≠ metinfNs then
    .error ⟨"unsupported XML namespace for WBXML"⟩
  else
    match (tagTokens.getD tagPage []).lookup ((tag.map QName.name).getD "") with
    | none => .error ⟨"unknown XML tag for WBXML"⟩
    | some token => .ok (tagPage, token)

def Encoder.switch (o : Encoder) (page : Nat) : Except WbxmlError Encoder :=
  if page = o.page then .ok o
  else do return { ← o.write [switchPage, UInt8.ofNat page] with page }

mutual

def elementContent (env : Encoding) : Element → Encoder → Except WbxmlError Encoder
  | .node tag _ text children _, o => do
    let (page, token) ← tagToken env tag
    let o ← o.switch page
    if text ≠ "" ∨ !children.isEmpty then do
      let o ← o.write [token ||| content]
      let o ← textContent env text o
      let o ← childrenContent env children o
      o.write [endToken]
    else o.write [token]

def childrenContent (env : Encoding) : List Element → Encoder → Except WbxmlError Encoder
  | [], o => .ok o
  | child :: children, o => do
    let o ← elementContent env child o
    let o ← textContent env child.tail o
    childrenContent env children o

end

def numericId (ns : String) : Option PublicId → Int
  | some (.number id) => id
  | some (.name id) => publicIdNamed id
  | none => ((publicIds.find? (·.2.2 = ns)).map Prod.fst).getD publicId12

def publicIdBytes (ns : String) : Option PublicId → Except WbxmlError (List UInt8)
  | some (.name _) => .ok [0x00, 0x00]
  | publicId => mbUint32 (numericId ns publicId)

def rootNs (root : Element) : String := (root.tag.map QName.ns).getD ""

def syncmlNamespace (root : Element) (options : Options) : Option String :=
  (publicIds.find? fun entry => (entry.1 : Int) = numericId (rootNs root) options.publicId).map
    (·.2.2)

def encodeTree (root : Element) (options : Options) (ns : String) :
    Except WbxmlError (List UInt8) := do
  let table := stringTable root options
  let o : Encoder := { output := { limit := maxEncodeBytes } }
  let o ← o.write [UInt8.ofNat options.version.toNat]
  let o ← o.write (← publicIdBytes (rootNs root) options.publicId)
  let o ← o.write ((← mbUint32 charsetUtf8) ++ (← mbUint32 table.table.length) ++ table.table)
  let o ← elementContent ⟨ns, table.offsets, options.opaqueText⟩ root o
  return o.output.data

def encode (xml : ElementTree) (payload : List UInt8) (options : Options) :
    Except WbxmlError (List UInt8) :=
  if maxEncodeXmlBytes < payload.length then .error ⟨"XML input exceeds size limit"⟩
  else if options.version ≠ version12.toNat ∧ options.version ≠ version13.toNat then
    .error ⟨"unsupported WBXML version"⟩
  else do
    let root ← readTree xml payload
    if root.localName ≠ "SyncML" then .error ⟨"WBXML root must be SyncML"⟩
    else
      match syncmlNamespace root options with
      | none => .error ⟨"unsupported WBXML public identifier"⟩
      | some ns =>
        if rootNs root ≠ "" ∧ rootNs root ≠ ns then
          .error ⟨"XML namespace does not match WBXML public identifier"⟩
        else encodeTree (stripBlanks root) options ns

end Acs.Wbxml
