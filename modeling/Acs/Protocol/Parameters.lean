import Mathlib
import Acs.Data.Except
import Acs.Protocol.Request
import Acs.Security.Pii

/-! The parameters of a configuration request, and how they are parsed. -/

namespace Acs.Parameters

def parameterAliases : List (String × String) :=
  [("vers", "vers"), ("IMSI", "imsi"), ("imsi", "imsi"), ("IMEI", "imei"), ("imei", "imei"),
    ("IMEISV", "imeisv"), ("msisdn", "msisdn"), ("MSISDN", "msisdn"), ("token", "token"),
    ("OTP", "otp"), ("otp", "otp"), ("SMS_port", "sms_port"), ("sms_port", "sms_port"),
    ("SMS_format", "sms_format"), ("default_sms_app", "default_sms_app"),
    ("default_vvm_app", "default_vvm_app"), ("terminal_vendor", "terminal_vendor"),
    ("terminal_model", "terminal_model"), ("terminal_sw_version", "terminal_sw_version"),
    ("client_vendor", "client_vendor"), ("client_version", "client_version"),
    ("rcs_version", "rcs_version"), ("rcs_profile", "rcs_profile"), ("rcs_state", "rcs_state"),
    ("provisioning_version", "provisioning_version"), ("device_type", "device_type"),
    ("device_id", "device_id"), ("friendly_device_name", "friendly_device_name"),
    ("alias", "alias")]

def fieldMaxLength : List (String × Nat) :=
  [("imsi", 15), ("imei", 16), ("imeisv", 16), ("msisdn", 20), ("token", 256), ("otp", 16),
    ("terminal_vendor", 8), ("terminal_model", 32), ("terminal_sw_version", 32),
    ("client_vendor", 8), ("client_version", 32), ("rcs_version", 16), ("rcs_profile", 32),
    ("device_type", 16), ("device_id", 64), ("friendly_device_name", 64), ("alias", 64)]

/-- Parameters that must never be repeated. -/
def singleValueOnly : List String :=
  ["vers", "IMSI", "imsi", "IMEI", "imei", "msisdn", "token", "OTP", "otp"]

structure ConfigRequest where
  method : String := "GET"
  contentType : String := ""
  query : List (String × String) := []
  form : List (String × Option String) := []
  userAgent : String := ""

/-- `grouped.setdefault(key, []).append(value)` -/
def appendTo (key value : String) : List (String × List String) → List (String × List String)
  | [] => [(key, [value])]
  | (k, values) :: rest =>
    if k = key then (k, values ++ [value]) :: rest else (k, values) :: appendTo key value rest

def ConfigRequest.readsForm (r : ConfigRequest) : Bool :=
  r.method = "POST" && ("application/x-www-form-urlencoded".toList <:+: r.contentType.toList ||
    "multipart/".toList <:+: r.contentType.toList)

/-- The parameters of a request, in the order in which the endpoint takes them. -/
def ConfigRequest.supplied (r : ConfigRequest) : List (String × String) :=
  r.query ++ if r.readsForm then r.form.filterMap fun (key, raw) => raw.map (key, ·) else []

def grouped (items : List (String × String)) : List (String × List String) :=
  items.foldl (fun groups item => appendTo item.1 item.2 groups) []

def multiItems (r : ConfigRequest) : List (String × List String) := grouped r.supplied

/-! ### Parsing -/

structure MalformedRequest where
  reason : String

/-- What parsing takes from Python's text functions and from the settings. -/
structure ParseEnv where
  py : PyText
  isAlnum : String → Bool
  settings : Settings := {}
  maxValueLength : Nat := 256

structure Gathered where
  raw : List (String × String) := []
  apps : List String := []
  unknown : List String := []

def one (values : List String) (wireName : String) : Except MalformedRequest String :=
  if 1 < values.length && singleValueOnly.contains wireName then
    .error ⟨"parameter " ++ wireName ++ " must not be repeated"⟩
  else .ok (values.headD "")

def exceeds (wireName : String) (limit : Nat) : MalformedRequest :=
  ⟨"parameter " ++ wireName ++ " exceeds " ++ toString limit ++ " characters"⟩

def setDefault (raw : List (String × String)) (field value : String) : List (String × String) :=
  if (raw.lookup field).isSome then raw else raw ++ [(field, value)]

def gather (maxValueLength : Nat) (g : Gathered) :
    String × List String → Except MalformedRequest Gathered
  | (wireName, values) =>
    if values = [] then .ok g
    else if wireName = "app" then .ok { g with apps := g.apps ++ values.filter (· ≠ "") }
    else
      match parameterAliases.lookup wireName with
      | none => .ok { g with unknown := g.unknown ++ [wireName] }
      | some field => do
        let value ← one values wireName
        if maxValueLength < value.length then .error (exceeds wireName maxValueLength)
        else
          match fieldMaxLength.lookup field with
          | none => return { g with raw := setDefault g.raw field value }
          | some limit =>
            if limit < value.length then .error (exceeds wireName limit)
            else return { g with raw := setDefault g.raw field value }

section Fields
variable (env : ParseEnv)

/-- `re.match(r"^\d+$", s)`: the last character may be a line break. -/
def digitsMatch (s : String) : Bool :=
  let body := if s.toList.getLast? = some '\n' then s.toList.dropLast else s.toList
  !body.isEmpty && body.all env.py.isDecimal

def asInt (raw field : String) (low high : Int) : Except MalformedRequest Int :=
  match env.py.parseInt raw with
  | none => .error ⟨field ++ " must be an integer"⟩
  | some value =>
    if value < low then .error ⟨field ++ " must be >= " ++ toString low⟩
    else if high < value then .error ⟨field ++ " must be <= " ++ toString high⟩
    else .ok value

def checkImsi (imsi : String) : Except MalformedRequest String :=
  if !digitsMatch env imsi || !(5 ≤ imsi.length && imsi.length ≤ 15) then
    .error ⟨"IMSI must be 5-15 digits"⟩
  else .ok imsi

def checkDevice (field value : String) : Except MalformedRequest String :=
  if !digitsMatch env value || !(14 ≤ value.length && value.length ≤ 16) then
    .error ⟨field ++ " must be 14-16 digits"⟩
  else .ok value

def checkMsisdn (raw : String) : Except MalformedRequest String :=
  match normaliseMsisdn env.py env.settings raw with
  | none => .error ⟨"msisdn is not a valid E.164 number"⟩
  | some msisdn => .ok msisdn

def checkOtp (raw : String) : Except MalformedRequest String :=
  if env.isAlnum (env.py.strip raw) then .ok (env.py.strip raw)
  else .error ⟨"OTP must be alphanumeric"⟩

def checked {α : Type} (check : String → Except MalformedRequest α) :
    Option String → Except MalformedRequest (Option α)
  | none => .ok none
  | some raw => (check raw).map some

def validate (userAgent : String) (g : Gathered) : Except MalformedRequest ConfigQuery := do
  let vers ← checked (asInt env · "vers" (-99) 10000000) (g.raw.lookup "vers")
  let imsi ← checked (checkImsi env) (g.raw.lookup "imsi")
  let imei ← checked (checkDevice env "IMEI") (g.raw.lookup "imei")
  let imeisv ← checked (checkDevice env "IMEISV") (g.raw.lookup "imeisv")
  let msisdn ← checked (checkMsisdn env) (g.raw.lookup "msisdn")
  let otp ← checked (checkOtp env) (g.raw.lookup "otp")
  let smsPort ← checked (asInt env · "SMS_port" 0 65535) (g.raw.lookup "sms_port")
  let defaultSmsApp ← checked (asInt env · "default_sms_app" (-4) 99)
    (g.raw.lookup "default_sms_app")
  let defaultVvmApp ← checked (asInt env · "default_vvm_app" (-4) 99)
    (g.raw.lookup "default_vvm_app")
  let rcsState ← checked (asInt env · "rcs_state" (-4) 99) (g.raw.lookup "rcs_state")
  return {
    vers := vers.getD 0
    imsi, imei, imeisv, msisdn, otp, smsPort, defaultSmsApp, defaultVvmApp, rcsState
    token := g.raw.lookup "token"
    smsFormat := g.raw.lookup "sms_format"
    terminalVendor := g.raw.lookup "terminal_vendor"
    terminalModel := g.raw.lookup "terminal_model"
    terminalSwVersion := g.raw.lookup "terminal_sw_version"
    clientVendor := g.raw.lookup "client_vendor"
    clientVersion := g.raw.lookup "client_version"
    rcsVersion := g.raw.lookup "rcs_version"
    rcsProfile := g.raw.lookup "rcs_profile"
    provisioningVersion := g.raw.lookup "provisioning_version"
    deviceType := g.raw.lookup "device_type"
    deviceId := g.raw.lookup "device_id"
    friendlyDeviceName := g.raw.lookup "friendly_device_name"
    clientAlias := g.raw.lookup "alias"
    apps := g.apps.eraseDups
    userAgent := String.ofList (userAgent.toList.take 256)
    unknown := g.unknown.dedup.insertionSort (· ≤ ·) }

def parseConfigQuery (params : List (String × List String)) (userAgent : String) :
    Except MalformedRequest ConfigQuery := do
  let g ← params.foldlM (gather env.maxValueLength) {}
  validate env userAgent g

def parseRequest (r : ConfigRequest) : Except MalformedRequest ConfigQuery :=
  parseConfigQuery env (multiItems r) r.userAgent

end Fields

section Grouping
variable {items : List (String × String)} {groups : List (String × List String)}

def valuesOf (items : List (String × String)) (wireName : String) : List String :=
  (items.filter (·.1 = wireName)).map Prod.snd

/-- The groups of some items: each wire name once, with all its values, in the order of the first
ones. -/
structure GroupedBy (items : List (String × String)) (groups : List (String × List String)) :
    Prop where
  nodup : (groups.map Prod.fst).Nodup
  values : ∀ w vs, (w, vs) ∈ groups ↔ vs = valuesOf items w ∧ vs ≠ []
  first : ∀ p : String → Bool, (groups.find? (p ·.1)).map (·.2.headD "") =
    (items.find? (p ·.1)).map Prod.snd

theorem keys_appendTo (k v : String) (groups : List (String × List String)) :
    (appendTo k v groups).map Prod.fst =
      if k ∈ groups.map Prod.fst then groups.map Prod.fst else groups.map Prod.fst ++ [k] := by
  induction groups with
  | nil => rfl
  | cons g groups ih =>
    obtain ⟨w, vs⟩ := g
    rw [appendTo]
    by_cases hk : w = k
    · rw [if_pos hk, if_pos (by simp [hk])]
      rfl
    · rw [if_neg hk, List.map_cons, ih]
      have hmem : k ∈ ((w, vs) :: groups).map Prod.fst ↔ k ∈ groups.map Prod.fst := by
        simp [Ne.symm hk]
      by_cases hin : k ∈ groups.map Prod.fst
      · rw [if_pos hin, if_pos (hmem.mpr hin)]
        rfl
      · rw [if_neg hin, if_neg fun h => hin (hmem.mp h)]
        rfl

theorem mem_appendTo {k v w : String} {vs : List String} (h : (groups.map Prod.fst).Nodup) :
    (w, vs) ∈ appendTo k v groups ↔ (w ≠ k ∧ (w, vs) ∈ groups) ∨
      (w = k ∧ ((∃ old, (k, old) ∈ groups ∧ vs = old ++ [v]) ∨
        k ∉ groups.map Prod.fst ∧ vs = [v])) := by
  induction groups with
  | nil => simp [appendTo]
  | cons g groups ih =>
    obtain ⟨k', old⟩ := g
    rw [List.map_cons, List.nodup_cons] at h
    obtain ⟨hnew, hrest⟩ := h
    rw [appendTo]
    by_cases hk : k' = k
    · subst hk
      rw [if_pos rfl, List.mem_cons]
      constructor
      · rintro (heq | hmem)
        · cases heq
          exact Or.inr ⟨rfl, Or.inl ⟨old, List.mem_cons_self, rfl⟩⟩
        · refine Or.inl ⟨?_, List.mem_cons_of_mem _ hmem⟩
          rintro rfl
          exact hnew (List.mem_map.mpr ⟨_, hmem, rfl⟩)
      · rintro (⟨hne, hmem⟩ | ⟨rfl, ⟨found, hmem, rfl⟩ | ⟨hout, -⟩⟩)
        · exact Or.inr ((List.mem_cons.mp hmem).resolve_left fun heq => hne (Prod.mk.inj heq).1)
        · rcases List.mem_cons.mp hmem with heq | hmem
          · cases heq
            exact Or.inl rfl
          · exact absurd (List.mem_map.mpr ⟨_, hmem, rfl⟩) hnew
        · exact absurd List.mem_cons_self hout
    · rw [if_neg hk, List.mem_cons, ih hrest]
      simp only [List.mem_cons, List.map_cons, Prod.mk.injEq, Ne.symm hk, false_and, false_or]
      constructor
      · rintro (⟨rfl, rfl⟩ | ⟨hne, hmem⟩ | h)
        · exact Or.inl ⟨hk, Or.inl ⟨rfl, rfl⟩⟩
        · exact Or.inl ⟨hne, Or.inr hmem⟩
        · exact Or.inr h
      · rintro (⟨hne, ⟨rfl, rfl⟩ | hmem⟩ | h)
        · exact Or.inl ⟨rfl, rfl⟩
        · exact Or.inr (Or.inl ⟨hne, hmem⟩)
        · exact Or.inr (Or.inr h)

theorem first_appendTo (k v : String) (p : String → Bool) (h : ∀ g ∈ groups, g.2 ≠ []) :
    ((appendTo k v groups).find? (p ·.1)).map (·.2.headD "") =
      ((groups.find? (p ·.1)).map (·.2.headD "")).or (if p k then some v else none) := by
  induction groups with
  | nil => cases hp : p k <;> simp [appendTo, hp]
  | cons g groups ih =>
    obtain ⟨w, vs⟩ := g
    obtain ⟨hvs, hrest⟩ := List.forall_mem_cons.mp h
    rw [appendTo]
    by_cases hk : w = k
    · subst hk
      rw [if_pos rfl]
      cases hp : p w with
      | true =>
        obtain ⟨x, xs, rfl⟩ := List.exists_cons_of_ne_nil hvs
        simp [hp]
      | false => simp [hp]
    · rw [if_neg hk]
      cases hp : p w with
      | true => simp [hp]
      | false =>
        rw [List.find?_cons_of_neg (by simpa using hp), List.find?_cons_of_neg (by simpa using hp)]
        exact ih hrest

theorem valuesOf_concat (items : List (String × String)) (item : String × String) (w : String) :
    valuesOf (items ++ [item]) w = valuesOf items w ++ if item.1 = w then [item.2] else [] := by
  rw [valuesOf, List.filter_append, List.map_append]
  split_ifs with hw
  · rw [List.filter_cons_of_pos (by simpa using hw)]
    rfl
  · rw [List.filter_cons_of_neg (by simpa using hw)]
    rfl

theorem GroupedBy.append (h : GroupedBy items groups) (item : String × String) :
    GroupedBy (items ++ [item]) (appendTo item.1 item.2 groups) where
  nodup := by
    rw [keys_appendTo]
    split_ifs with hin
    · exact h.nodup
    · exact List.nodup_append.mpr ⟨h.nodup, List.nodup_singleton _, by
        rintro w hw k hk rfl
        exact hin (List.mem_singleton.mp hk ▸ hw)⟩
  values w vs := by
    have hkey : item.1 ∈ groups.map Prod.fst ↔ valuesOf items item.1 ≠ [] := by
      rw [List.mem_map]
      constructor
      · rintro ⟨⟨k, old⟩, hmem, rfl⟩
        obtain ⟨rfl, hne⟩ := (h.values _ old).mp hmem
        exact hne
      · exact fun hne => ⟨_, (h.values _ _).mpr ⟨rfl, hne⟩, rfl⟩
    rw [mem_appendTo h.nodup, valuesOf_concat]
    by_cases hw : w = item.1
    · subst hw
      simp only [ne_eq, not_true_eq_false, false_and, true_and, false_or, if_true, h.values, hkey,
        not_not]
      constructor
      · rintro (⟨old, ⟨rfl, -⟩, rfl⟩ | ⟨hnil, rfl⟩)
        · exact ⟨rfl, by simp⟩
        · exact ⟨by rw [hnil]; rfl, by simp⟩
      · rintro ⟨rfl, -⟩
        by_cases hnil : valuesOf items item.1 = []
        · exact Or.inr ⟨hnil, by rw [hnil]; rfl⟩
        · exact Or.inl ⟨_, ⟨rfl, hnil⟩, rfl⟩
    · simp [hw, Ne.symm hw, h.values]
  first p := by
    have hfilled : ∀ g ∈ groups, g.2 ≠ [] := fun g hg => ((h.values g.1 g.2).mp hg).2
    rw [first_appendTo _ _ p hfilled, h.first p, List.find?_append]
    cases items.find? (p ·.1) with
    | some found => rfl
    | none => cases hp : p item.1 <;> simp [hp]

theorem groupedBy_grouped (items : List (String × String)) : GroupedBy items (grouped items) := by
  induction items using List.reverseRecOn with
  | nil => exact ⟨List.nodup_nil, by simp [grouped, valuesOf], fun p => rfl⟩
  | append_singleton items item ih =>
    have hstep : grouped (items ++ [item]) = appendTo item.1 item.2 (grouped items) := by
      rw [grouped, List.foldl_append]
      rfl
    rw [hstep]
    exact ih.append item

end Grouping

/-! ### What is refused -/

def Repeated (items : List (String × String)) : Prop :=
  ∃ wireName ∈ singleValueOnly, 1 < items.countP (·.1 = wireName)

def firstOf (items : List (String × String)) (p : String → Bool) : Option String :=
  (items.find? (p ·.1)).map Prod.snd

/-- The value that is kept for a field. -/
def kept (items : List (String × String)) (field : String) : Option String :=
  firstOf items (parameterAliases.lookup · = some field)

def TooLong (maxValueLength : Nat) (items : List (String × String)) : Prop :=
  ∃ wireName value field, firstOf items (· = wireName) = some value ∧
    parameterAliases.lookup wireName = some field ∧
    (maxValueLength < value.length ∨
      ∃ limit, fieldMaxLength.lookup field = some limit ∧ limit < value.length)

section Checks
variable (env : ParseEnv)

def Within (low high : Int) (raw : String) : Prop :=
  ∃ n, env.py.parseInt raw = some n ∧ low ≤ n ∧ n ≤ high

structure Acceptable (kept : String → Option String) : Prop where
  vers : ∀ v ∈ kept "vers", Within env (-99) 10000000 v
  imsi : ∀ v ∈ kept "imsi", digitsMatch env v = true ∧ 5 ≤ v.length ∧ v.length ≤ 15
  imei : ∀ v ∈ kept "imei", digitsMatch env v = true ∧ 14 ≤ v.length ∧ v.length ≤ 16
  imeisv : ∀ v ∈ kept "imeisv", digitsMatch env v = true ∧ 14 ≤ v.length ∧ v.length ≤ 16
  msisdn : ∀ v ∈ kept "msisdn", ∃ msisdn, normaliseMsisdn env.py env.settings v = some msisdn
  otp : ∀ v ∈ kept "otp", env.isAlnum (env.py.strip v) = true
  smsPort : ∀ v ∈ kept "sms_port", Within env 0 65535 v
  defaultSmsApp : ∀ v ∈ kept "default_sms_app", Within env (-4) 99 v
  defaultVvmApp : ∀ v ∈ kept "default_vvm_app", Within env (-4) 99 v
  rcsState : ∀ v ∈ kept "rcs_state", Within env (-4) 99 v

variable {env}

theorem asInt_ok {raw field : String} {low high : Int} :
    (∃ n, asInt env raw field low high = .ok n) ↔ Within env low high raw := by
  unfold asInt Within
  cases env.py.parseInt raw with
  | none => simp
  | some n =>
    dsimp only
    split_ifs with hlow hhigh
    · simp only [exists_false, Option.some.injEq, false_iff]
      rintro ⟨_, rfl, hle, -⟩
      omega
    · simp only [exists_false, Option.some.injEq, false_iff]
      rintro ⟨_, rfl, -, hle⟩
      omega
    · exact ⟨fun _ => ⟨n, rfl, by omega, by omega⟩, fun _ => ⟨n, rfl⟩⟩

theorem checkImsi_ok {raw : String} : (∃ n, checkImsi env raw = .ok n) ↔
    digitsMatch env raw = true ∧ 5 ≤ raw.length ∧ raw.length ≤ 15 := by
  unfold checkImsi
  split_ifs with h
  · simp only [exists_false, false_iff]
    rintro ⟨hdigits, hlow, hhigh⟩
    simp [hdigits, hlow, hhigh] at h
  · simpa using h

theorem checkDevice_ok {field raw : String} : (∃ n, checkDevice env field raw = .ok n) ↔
    digitsMatch env raw = true ∧ 14 ≤ raw.length ∧ raw.length ≤ 16 := by
  unfold checkDevice
  split_ifs with h
  · simp only [exists_false, false_iff]
    rintro ⟨hdigits, hlow, hhigh⟩
    simp [hdigits, hlow, hhigh] at h
  · simpa using h

theorem checkMsisdn_ok {raw : String} : (∃ n, checkMsisdn env raw = .ok n) ↔
    ∃ msisdn, normaliseMsisdn env.py env.settings raw = some msisdn := by
  unfold checkMsisdn
  cases normaliseMsisdn env.py env.settings raw <;> simp

theorem checkOtp_ok {raw : String} :
    (∃ n, checkOtp env raw = .ok n) ↔ env.isAlnum (env.py.strip raw) = true := by
  unfold checkOtp
  split_ifs with h <;> simp [h]

theorem checked_ok {α : Type} {check : String → Except MalformedRequest α} {raw : Option String} :
    (∃ n, checked check raw = .ok n) ↔ ∀ v ∈ raw, ∃ n, check v = .ok n := by
  cases raw with
  | none => simp [checked]
  | some v =>
    cases hv : check v <;> simp [checked, hv, Except.map]

theorem validate_ok {userAgent : String} {g : Gathered} :
    (∃ q, validate env userAgent g = .ok q) ↔ Acceptable env (g.raw.lookup ·) := by
  constructor
  · rintro ⟨q, h⟩
    unfold validate at h
    simp only [Except.bind_eq_ok] at h
    obtain ⟨vers, hvers, imsi, himsi, imei, himei, imeisv, himeisv, msisdn, hmsisdn, otp, hotp,
      smsPort, hsmsPort, smsApp, hsmsApp, vvmApp, hvvmApp, state, hstate, -⟩ := h
    exact {
      vers := fun v hv => asInt_ok.mp (checked_ok.mp ⟨_, hvers⟩ v hv)
      imsi := fun v hv => checkImsi_ok.mp (checked_ok.mp ⟨_, himsi⟩ v hv)
      imei := fun v hv => checkDevice_ok.mp (checked_ok.mp ⟨_, himei⟩ v hv)
      imeisv := fun v hv => checkDevice_ok.mp (checked_ok.mp ⟨_, himeisv⟩ v hv)
      msisdn := fun v hv => checkMsisdn_ok.mp (checked_ok.mp ⟨_, hmsisdn⟩ v hv)
      otp := fun v hv => checkOtp_ok.mp (checked_ok.mp ⟨_, hotp⟩ v hv)
      smsPort := fun v hv => asInt_ok.mp (checked_ok.mp ⟨_, hsmsPort⟩ v hv)
      defaultSmsApp := fun v hv => asInt_ok.mp (checked_ok.mp ⟨_, hsmsApp⟩ v hv)
      defaultVvmApp := fun v hv => asInt_ok.mp (checked_ok.mp ⟨_, hvvmApp⟩ v hv)
      rcsState := fun v hv => asInt_ok.mp (checked_ok.mp ⟨_, hstate⟩ v hv) }
  · intro h
    obtain ⟨vers, hvers⟩ := checked_ok.mpr fun v hv => (@asInt_ok _ _ "vers" _ _).mpr (h.vers v hv)
    obtain ⟨imsi, himsi⟩ := checked_ok.mpr fun v hv => checkImsi_ok.mpr (h.imsi v hv)
    obtain ⟨imei, himei⟩ :=
      checked_ok.mpr fun v hv => (@checkDevice_ok _ "IMEI" _).mpr (h.imei v hv)
    obtain ⟨imeisv, himeisv⟩ :=
      checked_ok.mpr fun v hv => (@checkDevice_ok _ "IMEISV" _).mpr (h.imeisv v hv)
    obtain ⟨msisdn, hmsisdn⟩ := checked_ok.mpr fun v hv => checkMsisdn_ok.mpr (h.msisdn v hv)
    obtain ⟨otp, hotp⟩ := checked_ok.mpr fun v hv => checkOtp_ok.mpr (h.otp v hv)
    obtain ⟨smsPort, hsmsPort⟩ :=
      checked_ok.mpr fun v hv => (@asInt_ok _ _ "SMS_port" _ _).mpr (h.smsPort v hv)
    obtain ⟨smsApp, hsmsApp⟩ :=
      checked_ok.mpr fun v hv => (@asInt_ok _ _ "default_sms_app" _ _).mpr (h.defaultSmsApp v hv)
    obtain ⟨vvmApp, hvvmApp⟩ :=
      checked_ok.mpr fun v hv => (@asInt_ok _ _ "default_vvm_app" _ _).mpr (h.defaultVvmApp v hv)
    obtain ⟨state, hstate⟩ :=
      checked_ok.mpr fun v hv => (@asInt_ok _ _ "rcs_state" _ _).mpr (h.rcsState v hv)
    unfold validate
    rw [hvers, himsi, himei, himeisv, hmsisdn, hotp, hsmsPort, hsmsApp, hvvmApp, hstate]
    exact ⟨_, rfl⟩

end Checks

section Loop
variable {maxValueLength : Nat} {g g' : Gathered}

def Stops (maxValueLength : Nat) : String × List String → Prop
  | (wireName, values) => wireName ∈ singleValueOnly ∧ 1 < values.length ∨
    ∃ field, parameterAliases.lookup wireName = some field ∧
      (maxValueLength < (values.headD "").length ∨
        ∃ limit, fieldMaxLength.lookup field = some limit ∧ limit < (values.headD "").length)

def addField (raw : List (String × String)) : String × List String → List (String × String)
  | (wireName, values) =>
    match parameterAliases.lookup wireName with
    | none => raw
    | some field => setDefault raw field (values.headD "")

theorem gather_spec (g : Gathered) {group : String × List String} (hfilled : group.2 ≠ []) :
    (Stops maxValueLength group → ∃ e, gather maxValueLength g group = .error e) ∧
      (¬ Stops maxValueLength group →
        ∃ g', gather maxValueLength g group = .ok g' ∧ g'.raw = addField g.raw group) := by
  obtain ⟨wireName, values⟩ := group
  have hknown : ∀ w ∈ singleValueOnly, (parameterAliases.lookup w).isSome ∧ w ≠ "app" := by decide
  have happ : parameterAliases.lookup "app" = none := by decide
  rw [gather, if_neg hfilled]
  by_cases hwire : wireName = "app"
  · rw [if_pos hwire]
    -- `app` has no field, and may be repeated
    refine ⟨?_, fun _ => ⟨_, rfl, by rw [addField, hwire, happ]⟩⟩
    rintro (⟨hmem, -⟩ | ⟨field, hfield, -⟩)
    · exact absurd hwire (hknown _ hmem).2
    · rw [hwire, happ] at hfield
      cases hfield
  · rw [if_neg hwire]
    cases hfield : parameterAliases.lookup wireName with
    | none =>
      -- nor has a name that the parser does not know
      refine ⟨?_, fun _ => ⟨_, rfl, by rw [addField, hfield]⟩⟩
      rintro (⟨hmem, -⟩ | ⟨field, hsome, -⟩)
      · have hsome := (hknown _ hmem).1
        rw [hfield] at hsome
        cases hsome
      · cases hfield.symm.trans hsome
    | some field =>
      -- what is left to stop the loop are the checks that `one` makes, in its order
      have hstops : Stops maxValueLength (wireName, values) ↔
          (1 < values.length ∧ wireName ∈ singleValueOnly) ∨
            maxValueLength < (values.headD "").length ∨
              ∃ limit, fieldMaxLength.lookup field = some limit ∧
                limit < (values.headD "").length := by
        unfold Stops
        dsimp only
        rw [hfield]
        simp [and_comm]
      rw [hstops, addField, hfield]
      dsimp only
      unfold one
      by_cases hone : 1 < values.length ∧ wireName ∈ singleValueOnly
      · rw [if_pos (by simpa using hone)]
        exact ⟨fun _ => ⟨_, rfl⟩, fun hnot => absurd (Or.inl hone) hnot⟩
      · rw [if_neg (by simpa using hone)]
        dsimp only [bind, Except.bind]
        by_cases hmax : maxValueLength < (values.headD "").length
        · rw [if_pos hmax]
          exact ⟨fun _ => ⟨_, rfl⟩, fun hnot => absurd (Or.inr (Or.inl hmax)) hnot⟩
        · rw [if_neg hmax]
          cases hlimit : fieldMaxLength.lookup field with
          | none =>
            refine ⟨fun h => ?_, fun _ => ⟨_, rfl, rfl⟩⟩
            rcases h with h | h | ⟨_, heq, -⟩
            · exact absurd h hone
            · exact absurd h hmax
            · cases heq
          | some limit =>
            dsimp only
            by_cases hlong : limit < (values.headD "").length
            · rw [if_pos hlong]
              exact ⟨fun _ => ⟨_, rfl⟩,
                fun hnot => absurd (Or.inr (Or.inr ⟨limit, rfl, hlong⟩)) hnot⟩
            · rw [if_neg hlong]
              refine ⟨fun h => ?_, fun _ => ⟨_, rfl, rfl⟩⟩
              rcases h with h | h | ⟨_, heq, h⟩
              · exact absurd h hone
              · exact absurd h hmax
              · cases heq
                exact absurd h hlong

theorem lookup_setDefault (raw : List (String × String)) (field value f : String) :
    (setDefault raw field value).lookup f =
      (raw.lookup f).or (if f = field then some value else none) := by
  unfold setDefault
  split_ifs with hsome hf hf
  · subst hf
    obtain ⟨v, hv⟩ := Option.isSome_iff_exists.mp hsome
    rw [hv]
    rfl
  · rw [Option.or_none]
  · subst hf
    rw [List.lookup_append]
    simp
  · have hother : (f == field) = false := beq_eq_false_iff_ne.mpr hf
    rw [List.lookup_append]
    simp [List.lookup_cons, hother]

theorem foldlM_gather {groups : List (String × List String)}
    (hfilled : ∀ group ∈ groups, group.2 ≠ []) :
    ((∃ group ∈ groups, Stops maxValueLength group) →
      ∃ e, groups.foldlM (gather maxValueLength) g = .error e) ∧
    ((∀ group ∈ groups, ¬ Stops maxValueLength group) →
      ∃ g', groups.foldlM (gather maxValueLength) g = .ok g' ∧ ∀ f, g'.raw.lookup f =
        (g.raw.lookup f).or ((groups.find? (parameterAliases.lookup ·.1 = some f)).map
          (·.2.headD ""))) := by
  induction groups generalizing g with
  | nil => exact ⟨nofun, fun _ => ⟨g, rfl, fun f => by simp⟩⟩
  | cons group groups ih =>
    obtain ⟨hgroup, hrest⟩ := List.forall_mem_cons.mp hfilled
    obtain ⟨hstop, hgo⟩ := @gather_spec maxValueLength g _ hgroup
    rw [List.foldlM_cons]
    by_cases hstops : Stops maxValueLength group
    · obtain ⟨e, he⟩ := hstop hstops
      rw [he]
      exact ⟨fun _ => ⟨e, rfl⟩, fun hnone => absurd hstops (hnone _ List.mem_cons_self)⟩
    · obtain ⟨g₁, hg₁, hraw⟩ := hgo hstops
      obtain ⟨herror, hok⟩ := ih (g := g₁) hrest
      rw [hg₁]
      refine ⟨fun ⟨other, hmem, hother⟩ => herror ⟨other, ?_, hother⟩, fun hnone => ?_⟩
      · exact (List.mem_cons.mp hmem).resolve_left fun heq => hstops (heq ▸ hother)
      · obtain ⟨g', hg', hlookup⟩ := hok fun other hother => hnone other (List.mem_cons_of_mem _ hother)
        refine ⟨g', hg', fun f => ?_⟩
        obtain ⟨wireName, values⟩ := group
        rw [hlookup f, hraw, addField]
        cases hfield : parameterAliases.lookup wireName with
        | none => rw [List.find?_cons_of_neg (by simp [hfield])]
        | some field =>
          dsimp only
          rw [lookup_setDefault, Option.or_assoc]
          by_cases hf : f = field
          · rw [if_pos hf, List.find?_cons_of_pos (by simp [hfield, hf])]
            rfl
          · rw [if_neg hf, List.find?_cons_of_neg (by simp [hfield, Ne.symm hf])]
            rfl

end Loop

/-! ### Duplicates -/

section Duplicates
variable {items : List (String × String)} {maxValueLength : Nat}

def identityFields : List String := ["vers", "imsi", "imei", "msisdn", "token", "otp"]

/-- More than one value in all for one of them, whatever the spellings. -/
def Duplicated (items : List (String × String)) : Prop :=
  ∃ field ∈ identityFields,
    1 < items.countP fun item => parameterAliases.lookup item.1 = some field

theorem length_valuesOf (items : List (String × String)) (wireName : String) :
    (valuesOf items wireName).length = items.countP (·.1 = wireName) := by
  rw [valuesOf, List.length_map, List.countP_eq_length_filter]

theorem head_valuesOf (items : List (String × String)) (wireName : String) :
    (valuesOf items wireName).head? = firstOf items (· = wireName) := by
  rw [valuesOf, firstOf, List.head?_map, List.head?_filter]

/-- A group stops the loop when a spelling is repeated or its first value too long. -/
theorem stops_iff :
    (∃ group ∈ grouped items, Stops maxValueLength group) ↔
      Repeated items ∨ TooLong maxValueLength items := by
  have hgroups := groupedBy_grouped items
  constructor
  · rintro ⟨⟨wireName, values⟩, hmem, hstops⟩
    obtain ⟨rfl, hne⟩ := (hgroups.values _ _).mp hmem
    rcases hstops with ⟨hsingle, hmany⟩ | ⟨field, hfield, hlong⟩
    · exact Or.inl ⟨wireName, hsingle, length_valuesOf items wireName ▸ hmany⟩
    · obtain ⟨value, rest, hvalues⟩ := List.exists_cons_of_ne_nil hne
      have hfirst : firstOf items (· = wireName) = some value := by
        rw [← head_valuesOf, hvalues]
        rfl
      rw [hvalues] at hlong
      exact Or.inr ⟨wireName, value, field, hfirst, hfield, hlong⟩
  · rintro (⟨wireName, hsingle, hmany⟩ | ⟨wireName, value, field, hfirst, hfield, hlong⟩)
    · rw [← length_valuesOf] at hmany
      have hne : valuesOf items wireName ≠ [] := List.ne_nil_of_length_pos (by omega)
      exact ⟨_, (hgroups.values _ _).mpr ⟨rfl, hne⟩, Or.inl ⟨hsingle, hmany⟩⟩
    · rw [← head_valuesOf] at hfirst
      obtain ⟨rest, hvalues⟩ := List.head?_eq_some_iff.mp hfirst
      refine ⟨_, (hgroups.values _ _).mpr ⟨rfl, by rw [hvalues]; exact List.cons_ne_nil _ _⟩,
        Or.inr ⟨field, hfield, ?_⟩⟩
      rw [hvalues]
      exact hlong

theorem error_iff {α ε : Type} (x : Except ε α) : (∃ e, x = .error e) ↔ ¬ ∃ a, x = .ok a := by
  cases x <;> simp

/-- A request is refused for a repeated spelling, a value that is too long, or one that its field's
check refuses. -/
theorem refused_iff (env : ParseEnv) (r : ConfigRequest) :
    (∃ e, parseRequest env r = .error e) ↔ Repeated r.supplied ∨
      TooLong env.maxValueLength r.supplied ∨ ¬ Acceptable env (kept r.supplied) := by
  have hgroups := groupedBy_grouped r.supplied
  have hfilled : ∀ group ∈ grouped r.supplied, group.2 ≠ [] :=
    fun group hmem => ((hgroups.values group.1 group.2).mp hmem).2
  obtain ⟨herror, hok⟩ := @foldlM_gather env.maxValueLength {} _ hfilled
  rw [← or_assoc, ← stops_iff]
  unfold parseRequest parseConfigQuery multiItems
  by_cases hstops : ∃ group ∈ grouped r.supplied, Stops env.maxValueLength group
  · obtain ⟨e, he⟩ := herror hstops
    rw [he]
    exact ⟨fun _ => Or.inl hstops, fun _ => ⟨e, rfl⟩⟩
  · obtain ⟨g, hg, hlookup⟩ := hok fun group hmem h => hstops ⟨group, hmem, h⟩
    have hkept : (g.raw.lookup ·) = kept r.supplied := by
      funext field
      exact (hlookup field).trans (hgroups.first (parameterAliases.lookup · = some field))
    rw [hg, ← hkept, ← @validate_ok _ r.userAgent _, ← error_iff]
    exact ⟨Or.inr, fun h => h.resolve_left hstops⟩

/-- A request with two values for an identity field is refused only if one spelling is repeated that
must not be, or if it would be refused with one value too. -/
theorem duplicate_refused_iff (env : ParseEnv) (r : ConfigRequest) :
    (Duplicated r.supplied → ∃ e, parseRequest env r = .error e) ↔
      ¬ Duplicated r.supplied ∨ Repeated r.supplied ∨
        TooLong env.maxValueLength r.supplied ∨ ¬ Acceptable env (kept r.supplied) := by
  rw [refused_iff, imp_iff_not_or]

/-- Two IMSIs under its two spellings: the first one counts. -/
theorem two_spellings_accepted :
    ¬ ∀ (env : ParseEnv) (r : ConfigRequest), Duplicated r.supplied →
      ∃ e, parseRequest env r = .error e := by
  intro h
  have hrun : (parseRequest ⟨asciiText, fun _ => true, {}, 256⟩
      { query := [("IMSI", "450051234567890"), ("imsi", "450059999999999")] }).isOk = true := by
    decide +kernel
  obtain ⟨e, he⟩ := h ⟨asciiText, fun _ => true, {}, 256⟩
    { query := [("IMSI", "450051234567890"), ("imsi", "450059999999999")] }
    ⟨"imsi", by decide, by decide⟩
  rw [he] at hrun
  cases hrun

end Duplicates
end Acs.Parameters
