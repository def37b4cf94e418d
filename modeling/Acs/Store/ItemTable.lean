import Mathlib
import Acs.Store.Codec
import Acs.Store.Memory

/-! `DynamoDbStore` down to the attribute values: how each entity is put in the table and
got back. -/

namespace Acs

/-- `dict.update`: a key that is there keeps its place. -/
def Item.set : Item → String → PyValue → Item
  | [], k, v => [(k, v)]
  | (k', v') :: item, k, v => if k' = k then (k, v) :: item else (k', v') :: set item k v

def Item.update (item extra : Item) : Item := extra.foldl (fun it e => it.set e.1 e.2) item

/-- The service refuses an empty string in an attribute that is a key of the table or its index. -/
def emptyKey (item : Item) : Bool :=
  ["pk", "sk", "gsi1pk", "gsi1sk"].any fun k =>
    match item.lookup k with
    | some (.str s) => s = ""
    | _ => false

abbrev ItemTable := String × String → Option (List (String × AttributeValue))

namespace ItemTable
open Function MemoryStore

def putItem (t : ItemTable) (pk sk : String) (item extra : Item) : Except StoreError ItemTable := do
  let item := encode (item.update ([("pk", .str pk), ("sk", .str sk)] ++ extra))
  let attributes ← serializeDict item
  if emptyKey item then .error .clientError else return update t (pk, sk) (some attributes)

def getItem (t : ItemTable) (pk sk : String) : Option Item :=
  (t (pk, sk)).map fun attributes => cleanDict (deserializeDict attributes)

def deleteItem (t : ItemTable) (pk sk : String) : ItemTable := update t (pk, sk) none

def load (t : ItemTable) (pk sk : String) (decode : Item → Except StoreError α) :
    Except StoreError (Option α) :=
  match t.getItem pk sk with
  | some item => (decode item).map some
  | none => .ok none

def getSubscriber (t : ItemTable) (imsi : String) (clock : Clock) :
    Except StoreError (Option Subscriber) :=
  t.load ("SUB#" ++ imsi) "META" (Subscriber.fromItem · clock)

def putSubscriber (t : ItemTable) (s : Subscriber) (clock : Clock) :
    Except StoreError ItemTable := do
  let previous ← t.getSubscriber s.imsi clock
  let s := { s with updatedAt := clock.now }
  let t ← t.putItem ("SUB#" ++ s.imsi) "META" s.toItem
    [("entity", .str "subscriber"), ("gsi1pk", .str "ENTITY#subscriber"), ("gsi1sk", .str s.imsi)]
  let t ← t.putItem ("MSISDN#" ++ s.msisdn) "SUB" []
    [("imsi", .str s.imsi), ("entity", .str "msisdn_index")]
  match previous with
  | some p =>
    if p.msisdn ≠ s.msisdn then return t.deleteItem ("MSISDN#" ++ p.msisdn) "SUB" else return t
  | none => return t

def getOtp (t : ItemTable) (msisdn : String) : Except StoreError (Option OtpChallenge) :=
  t.load ("OTP#" ++ msisdn) "CHAL" OtpChallenge.fromItem

def putOtp (t : ItemTable) (c : OtpChallenge) : Except StoreError ItemTable :=
  t.putItem ("OTP#" ++ c.msisdn) "CHAL" c.toItem [("entity", .str "otp")]

def getToken (t : ItemTable) (tokenHash : String) : Except StoreError (Option TokenRecord) :=
  t.load ("TOKEN#" ++ tokenHash) "META" TokenRecord.fromItem

def putToken (t : ItemTable) (r : TokenRecord) : Except StoreError ItemTable :=
  t.putItem ("TOKEN#" ++ r.tokenHash) "META" r.toItem
    [("entity", .str "token"), ("gsi1pk", .str ("TOKENIMSI#" ++ r.imsi)),
     ("gsi1sk", .str (toString r.issuedAt)), ("expires_at", .int r.expiresAt)]

def getDevice (t : ItemTable) (deviceId : String) (clock : Clock) :
    Except StoreError (Option Device) :=
  t.load ("DEV#" ++ deviceId) "META" (Device.fromItem · clock)

def putDevice (t : ItemTable) (d : Device) : Except StoreError ItemTable :=
  t.putItem ("DEV#" ++ d.deviceId) "META" d.toItem
    [("entity", .str "device"), ("gsi1pk", .str "ENTITY#device"), ("gsi1sk", .str d.deviceId)]

def getDmSession (t : ItemTable) (sessionId : String) (clock : Clock) :
    Except StoreError (Option DmSession × ItemTable) := do
  match ← t.load ("DMSESS#" ++ sessionId) "META" DmSession.fromItem with
  | some s =>
    if lapsed s.expiresAt clock then return (none, t.deleteItem ("DMSESS#" ++ sessionId) "META")
    else return (some s, t)
  | none => return (none, t)

def putDmSession (t : ItemTable) (s : DmSession) : Except StoreError ItemTable :=
  t.putItem ("DMSESS#" ++ s.sessionId) "META" s.toItem [("entity", .str "dm_session")]

def getDmPending (t : ItemTable) (sessionId : String) (clock : Clock) :
    Except StoreError (Option DmPendingPackage × ItemTable) := do
  match ← t.load ("DMSESS#" ++ sessionId) "PENDING" DmPendingPackage.fromItem with
  | some p =>
    if lapsed p.expiresAt clock then return (none, t.deleteItem ("DMSESS#" ++ sessionId) "PENDING")
    else return (some p, t)
  | none => return (none, t)

def putDmPending (t : ItemTable) (p : DmPendingPackage) : Except StoreError ItemTable :=
  t.putItem ("DMSESS#" ++ p.sessionId) "PENDING" p.toItem [("entity", .str "dm_pending")]

end ItemTable
end Acs
