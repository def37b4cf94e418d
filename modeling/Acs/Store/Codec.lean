import Acs.Store.Items

/-! `to_item` and `from_item` of every entity. A field without a default that the item
lacks makes the constructor raise `TypeError`. -/

namespace Acs

namespace PyValue

def ofStrs (l : List String) : PyValue := .list (l.map .str)

def ofStrMap (m : List (String × String)) : PyValue := .dict (m.map fun e => (e.1, .str e.2))

def ofOptInt : Option Int → PyValue
  | none => .null
  | some n => .int n

def ofOptStr : Option String → PyValue
  | none => .null
  | some s => .str s

def asStr : PyValue → Option String
  | .str s => some s
  | _ => none

def asInt : PyValue → Option Int
  | .int n => some n
  | _ => none

def asBool : PyValue → Option Bool
  | .bool b => some b
  | _ => none

def asOptInt : PyValue → Option (Option Int)
  | .null => some none
  | .int n => some (some n)
  | _ => none

def asOptStr : PyValue → Option (Option String)
  | .null => some none
  | .str s => some (some s)
  | _ => none

def asList (read : PyValue → Option α) : PyValue → Option (List α)
  | .list vs => vs.mapM read
  | _ => none

def asStrs : PyValue → Option (List String) := asList asStr

def asStrMap : PyValue → Option (List (String × String))
  | .dict kvs => kvs.mapM fun e => e.2.asStr.map fun s => (e.1, s)
  | _ => none

end PyValue

open PyValue

def readAs (read : PyValue → Option α) (v : PyValue) : Except StoreError α :=
  match read v with
  | some a => .ok a
  | none => .error .typeError

def required (item : Item) (key : String) (read : PyValue → Option α) : Except StoreError α :=
  match item.lookup key with
  | some v => readAs read v
  | none => .error .typeError

def optional (item : Item) (key : String) (default : α) (read : PyValue → Option α) :
    Except StoreError α :=
  match item.lookup key with
  | some v => readAs read v
  | none => .ok default

def Subscriber.toItem (s : Subscriber) : Item :=
  [("imsi", .str s.imsi), ("msisdn", .str s.msisdn), ("entitled", .bool s.entitled),
   ("provisioning_version", .int s.provisioningVersion), ("forced_vers", ofOptInt s.forcedVers),
   ("rcs_profile", .str s.rcsProfile), ("imei_allowlist", ofStrs s.imeiAllowlist),
   ("overrides", ofStrMap s.overrides), ("dm_password", .str s.dmPassword),
   ("volte_enabled", .bool s.volteEnabled), ("created_at", .int s.createdAt),
   ("updated_at", .int s.updatedAt)]

def Subscriber.fromItem (item : Item) (clock : Clock) : Except StoreError Subscriber := do
  return {
    imsi := ← required item "imsi" asStr
    msisdn := ← required item "msisdn" asStr
    entitled := ← optional item "entitled" true asBool
    provisioningVersion := ← optional item "provisioning_version" 1 asInt
    forcedVers := ← optional item "forced_vers" none asOptInt
    rcsProfile := ← optional item "rcs_profile" "" asStr
    imeiAllowlist := ← optional item "imei_allowlist" [] asStrs
    overrides := ← optional item "overrides" [] asStrMap
    dmPassword := ← optional item "dm_password" "" asStr
    volteEnabled := ← optional item "volte_enabled" true asBool
    createdAt := ← optional item "created_at" clock.now asInt
    updatedAt := ← optional item "updated_at" clock.now asInt }

def OtpChallenge.toItem (c : OtpChallenge) : Item :=
  [("msisdn", .str c.msisdn), ("otp_hash", .str c.otpHash), ("imsi", .str c.imsi),
   ("created_at", .int c.createdAt), ("expires_at", .int c.expiresAt),
   ("attempts", .int c.attempts), ("sms_port", ofOptInt c.smsPort),
   ("consumed", .bool c.consumed), ("challenge_id", .str c.challengeId)]

def OtpChallenge.fromItem (item : Item) : Except StoreError OtpChallenge := do
  return {
    msisdn := ← required item "msisdn" asStr
    otpHash := ← required item "otp_hash" asStr
    imsi := ← required item "imsi" asStr
    createdAt := ← required item "created_at" asInt
    expiresAt := ← required item "expires_at" asInt
    attempts := ← optional item "attempts" 0 asInt
    smsPort := ← optional item "sms_port" none asOptInt
    consumed := ← optional item "consumed" false asBool
    challengeId := ← optional item "challenge_id" "" asStr }

def TokenRecord.toItem (r : TokenRecord) : Item :=
  [("token_hash", .str r.tokenHash), ("imsi", .str r.imsi), ("imei", ofOptStr r.imei),
   ("issued_at", .int r.issuedAt), ("expires_at", .int r.expiresAt), ("revoked", .bool r.revoked)]

/-- `imei` may be `None` but has no default. -/
def TokenRecord.fromItem (item : Item) : Except StoreError TokenRecord := do
  return {
    tokenHash := ← required item "token_hash" asStr
    imsi := ← required item "imsi" asStr
    imei := ← required item "imei" asOptStr
    issuedAt := ← required item "issued_at" asInt
    expiresAt := ← required item "expires_at" asInt
    revoked := ← optional item "revoked" false asBool }

def Device.toItem (d : Device) : Item :=
  [("device_id", .str d.deviceId), ("imsi", .str d.imsi), ("manufacturer", .str d.manufacturer),
   ("model", .str d.model), ("sw_version", .str d.swVersion),
   ("client_vendor", .str d.clientVendor), ("client_version", .str d.clientVersion),
   ("dm_client_version", .str d.dmClientVersion), ("last_seen_at", .int d.lastSeenAt),
   ("mo_values", ofStrMap d.moValues)]

def Device.fromItem (item : Item) (clock : Clock) : Except StoreError Device := do
  return {
    deviceId := ← required item "device_id" asStr
    imsi := ← optional item "imsi" "" asStr
    manufacturer := ← optional item "manufacturer" "" asStr
    model := ← optional item "model" "" asStr
    swVersion := ← optional item "sw_version" "" asStr
    clientVendor := ← optional item "client_vendor" "" asStr
    clientVersion := ← optional item "client_version" "" asStr
    dmClientVersion := ← optional item "dm_client_version" "" asStr
    lastSeenAt := ← optional item "last_seen_at" clock.now asInt
    moValues := ← optional item "mo_values" [] asStrMap }

def DmSession.toItem (s : DmSession) : Item :=
  [("session_id", .str s.sessionId), ("device_id", .str s.deviceId),
   ("wire_session_id", .str s.wireSessionId), ("imsi", .str s.imsi), ("phase", .str s.phase),
   ("last_msg_id", .int s.lastMsgId), ("server_cmd_id", .int s.serverCmdId),
   ("authenticated", .bool s.authenticated), ("nonce", .str s.nonce),
   ("pending", .list (s.pending.map ofStrMap)), ("reported_failures", .int s.reportedFailures),
   ("expires_at", .int s.expiresAt)]

def DmSession.fromItem (item : Item) : Except StoreError DmSession := do
  return {
    sessionId := ← required item "session_id" asStr
    deviceId := ← required item "device_id" asStr
    wireSessionId := ← optional item "wire_session_id" "" asStr
    imsi := ← optional item "imsi" "" asStr
    phase := ← optional item "phase" "init" asStr
    lastMsgId := ← optional item "last_msg_id" 0 asInt
    serverCmdId := ← optional item "server_cmd_id" 0 asInt
    authenticated := ← optional item "authenticated" false asBool
    nonce := ← optional item "nonce" "" asStr
    pending := ← optional item "pending" [] (asList asStrMap)
    reportedFailures := ← optional item "reported_failures" 0 asInt
    expiresAt := ← optional item "expires_at" 0 asInt }

def DmPendingPackage.toItem (p : DmPendingPackage) : Item :=
  [("session_id", .str p.sessionId), ("phase", .str p.phase),
   ("entries", .list (p.entries.map ofStrs)), ("messages", .int p.messages),
   ("expires_at", .int p.expiresAt)]

def DmPendingPackage.fromItem (item : Item) : Except StoreError DmPendingPackage := do
  return {
    sessionId := ← required item "session_id" asStr
    phase := ← required item "phase" asStr
    entries := ← optional item "entries" [] (asList asStrs)
    messages := ← optional item "messages" 1 asInt
    expiresAt := ← optional item "expires_at" 0 asInt }

theorem mapM_map {read : PyValue → Option α} {write : α → PyValue}
    (h : ∀ a, read (write a) = some a) (l : List α) : (l.map write).mapM read = some l := by
  induction l with
  | nil => rfl
  | cons a l ih => simp [h, ih]

@[simp] theorem asOptInt_ofOptInt (n : Option Int) : asOptInt (ofOptInt n) = some n := by
  cases n <;> rfl

@[simp] theorem asOptStr_ofOptStr (s : Option String) : asOptStr (ofOptStr s) = some s := by
  cases s <;> rfl

@[simp] theorem asStrs_ofStrs (l : List String) : asStrs (ofStrs l) = some l := by
  have hread : ∀ s : String, asStr (.str s) = some s := fun _ => rfl
  exact mapM_map hread l

@[simp] theorem asStrMap_ofStrMap (m : List (String × String)) :
    asStrMap (ofStrMap m) = some m := by
  simp only [asStrMap, ofStrMap]
  induction m with
  | nil => rfl
  | cons e m ih =>
    simp only [List.map_cons, List.mapM_cons, ih]
    rfl

@[simp] theorem asList_strMaps (l : List (List (String × String))) :
    asList asStrMap (.list (l.map ofStrMap)) = some l := mapM_map asStrMap_ofStrMap l

@[simp] theorem asList_strs (l : List (List String)) :
    asList asStrs (.list (l.map ofStrs)) = some l := mapM_map asStrs_ofStrs l

end Acs
