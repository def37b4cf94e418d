import Mathlib
import Acs.Protocol.Document
import Acs.Protocol.Identity
import Acs.Protocol.Request

/-! Building OMA-CP provisioning documents from the catalogue. -/

namespace Acs

inductive ParmType
  | chr
  | int
  | bool01
  | enum
deriving DecidableEq

structure CatalogEntry where
  path : String
  parm : String
  type : ParmType := .chr
  default : String := ""
  required : Bool := false
  profiles : List String := []

namespace CatalogEntry

def key (e : CatalogEntry) : String := e.path ++ "/" ++ e.parm

def segments (e : CatalogEntry) : List String := (e.path.toList.splitOn '/').map String.ofList

def head (e : CatalogEntry) : String := e.segments.headD ""

def applicationOf (head : String) : Option String :=
  if "APPLICATION:".toList.isPrefixOf head.toList then some (String.ofList (head.toList.drop 12))
  else none

def appId (e : CatalogEntry) : Option String := applicationOf e.head

def appliesTo (e : CatalogEntry) (profile : String) : Bool :=
  e.profiles.isEmpty || e.profiles.contains profile

end CatalogEntry

/-- The entry lies in an application other than the DM account, which only
`dm_account_characteristic` writes, or in a characteristic of a type that the builder does not use
itself. -/
def CatalogEntry.Placeable (e : CatalogEntry) : Prop :=
  e.appId ≠ some appIdDmAccount ∧ (e.appId = none → e.head ∉ ["APPLICATION", "VERS", "TOKEN"])

/-- A loaded catalogue, of entries as those of the files of `catalog/omacp`. -/
structure Catalog where
  entries : List CatalogEntry
  apps : ∀ e ∈ entries, e.Placeable

/-- What the builder takes from outside the modelled code: Python's text functions,
`string.Formatter.vformat` with unknown fields left as they are, and the catalogue files. -/
structure BuildEnv where
  py : PyText
  vformat : String → List (String × String) → Except PyError String
  getCatalog : String → Except PyError Catalog

namespace Builder
variable (env : BuildEnv)

structure BuildContext where
  imsi : String
  values : List (String × String)

def BuildContext.create (imsi msisdn deviceId profile acsHost : String) :
    Except PyError BuildContext := do
  let identity ← deriveIdentity env.py imsi msisdn
  return {
    imsi
    values := identity.asContext ++
      [("msisdn", msisdn), ("msisdn_national", String.ofList (msisdn.toList.dropWhile (· = '+'))),
       ("device_id", deviceId), ("profile", profile), ("acs_host", acsHost)] }

def BuildContext.render (context : BuildContext) (template : String) : Except PyError String :=
  if !template.toList.contains '{' then .ok template else env.vformat template context.values

/-- `_ensure_path(doc, path).add_parm(name, value)` -/
def addParmAt (doc : ProvisioningDoc) (segments : List String) (name value : String) :
    ProvisioningDoc :=
  let head := segments.headD ""
  let add := Characteristic.addParmAt name value segments.tail
  match CatalogEntry.applicationOf head with
  | some appId =>
    { doc with
      characteristics := editFirst (·.isApplication appId) add
        (Characteristic.addParm { type := "APPLICATION" } "AppID" appId) doc.characteristics }
  | none =>
    { doc with
      characteristics := editFirst (·.type = head) add { type := head } doc.characteristics }

def coerceValue (entry : CatalogEntry) (raw : String) : String :=
  if entry.type = .bool01 then if raw ∈ ["1", "true", "True", "yes"] then "1" else "0" else raw

def versCharacteristic (version validity : Int) : Characteristic :=
  ((Characteristic.addParm { type := "VERS" } "version" (toString version)).addParm
    "validity" (toString validity))

def tokenCharacteristic (token : String) : Characteristic :=
  Characteristic.addParm { type := "TOKEN" } "token" token

/-- The OMA-CP `w7` APPLICATION characteristic: the bridge from the OMA-CP document to the
OMA-DM plane. -/
def dmAccountCharacteristic (settings : Settings) (context : BuildContext) (dmPassword : String) :
    Characteristic where
  type := "APPLICATION"
  parms :=
    [⟨"AppID", appIdDmAccount⟩, ⟨"PROVIDER-ID", settings.dmServerId⟩,
     ⟨"NAME", settings.serviceName ++ " device management"⟩, ⟨"ADDR", settings.dmAccountUri⟩,
     ⟨"AAUTHTYPE", if settings.dmAuthScheme = .md5 then "DIGEST" else "BASIC"⟩,
     ⟨"AAUTHNAME", context.imsi⟩, ⟨"AAUTHSECRET", dmPassword⟩,
     ⟨"AAUTHDATA", settings.dmServerId⟩, ⟨"INIT", "1"⟩]

def selectedEntries (catalog : Catalog) (profile : String) (wantedApps : List String) :
    List CatalogEntry :=
  (catalog.entries.filter (·.appliesTo profile)).filter fun entry =>
    match entry.appId with
    | some appId => wantedApps.isEmpty || wantedApps.contains appId
    | none => true

/-- The parameter an entry adds to the document, unless it is empty and not mandatory. -/
def addEntry (context : BuildContext) (overrides : List (String × String)) (doc : ProvisioningDoc)
    (entry : CatalogEntry) : Except PyError ProvisioningDoc := do
  let raw := (overrides.lookup entry.key).getD entry.default
  if raw = "" && !entry.required then return doc
  else
    let value := coerceValue entry (← context.render env raw)
    return addParmAt doc entry.segments entry.parm value

def denyMessaging (services : Characteristic) : Characteristic :=
  { services with
    parms := services.parms.map fun p =>
      if p.name ∈ ["standaloneMsgAuth", "ChatAuth", "GroupChatAuth"] then { p with value := "0" }
      else p }

/-- Disable messaging authorisations when the client is not the default SMS app. -/
def applyDefaultSmsAppPolicy (doc : ProvisioningDoc) (query : ConfigQuery) : ProvisioningDoc :=
  if query.defaultSmsApp = some 0 then
    { doc with
      characteristics := updateFirst (·.isApplication appIdRcs)
        (fun rcs => { rcs with
          children := updateFirst (·.type = "SERVICES") denyMessaging rcs.children })
        doc.characteristics }
  else doc

def buildDocument (settings : Settings) (query : ConfigQuery) (imsi msisdn : String)
    (version validity : Int) (profile token : String) (overrides : List (String × String))
    (dmPassword : String) : Except PyError ProvisioningDoc := do
  let resolvedProfile :=
    if profile ≠ "" then profile else orElseText query.rcsProfile settings.defaultRcsProfile
  let catalog ← env.getCatalog resolvedProfile
  let context ← BuildContext.create env imsi msisdn query.deviceKey resolvedProfile
    settings.dmAccountUri
  let doc := ProvisioningDoc.add {} (versCharacteristic version validity)
  let doc := if token ≠ "" then doc.add (tokenCharacteristic token) else doc
  let doc ← (selectedEntries catalog resolvedProfile query.apps).foldlM
    (addEntry env context overrides) doc
  let doc := applyDefaultSmsAppPolicy doc query
  if settings.dmBootstrapInCp && settings.dmEnabled && (dmPassword ≠ "" : Bool) then
    return doc.add (dmAccountCharacteristic settings context dmPassword)
  else return doc

def buildVersOnlyDocument (version validity : Int) : ProvisioningDoc :=
  ProvisioningDoc.add {} (versCharacteristic version validity)

def NoAccount (cs : List Characteristic) : Prop := ∀ c ∈ cs, c.isApplication appIdDmAccount = false

theorem findParm_addParmAt (name value : String) (segments : List String) {c : Characteristic}
    {p : Parm} (h : c.findParm "AppID" = some p) :
    (Characteristic.addParmAt name value segments c).findParm "AppID" = some p := by
  unfold Characteristic.findParm at h ⊢
  cases segments with
  | nil => simp [Characteristic.addParmAt, Characteristic.addParm, h]
  | cons segment segments => exact h

theorem isApplication_eq_false {c : Characteristic} {appId : String} (h : c.isApplication appId = true)
    (hne : appId ≠ appIdDmAccount) : c.isApplication appIdDmAccount = false := by
  unfold Characteristic.isApplication at h ⊢
  simp only [Bool.and_eq_true, decide_eq_true_eq] at h
  simp [h.1, h.2, hne]

theorem isApplication_addParmAt (name value : String) (segments : List String) {c : Characteristic}
    {appId : String} (h : c.isApplication appId = true) :
    (Characteristic.addParmAt name value segments c).isApplication appId = true := by
  unfold Characteristic.isApplication at h ⊢
  simp only [Bool.and_eq_true, decide_eq_true_eq, Option.map_eq_some_iff] at h ⊢
  obtain ⟨htype, p, hp, hv⟩ := h
  exact ⟨(Characteristic.addParmAt_type name value segments c).trans htype, p,
    findParm_addParmAt name value segments hp, hv⟩

theorem forall_editFirst {α : Type} {P : α → Prop} {p : α → Bool} {f : α → α} {new : α} {l : List α}
    (h : ∀ x ∈ l, P x) (hf : ∀ x, p x = true → P (f x)) (hnew : P (f new)) :
    ∀ x ∈ editFirst p f new l, P x := by
  induction l with
  | nil => simpa [editFirst] using hnew
  | cons x xs ih =>
    rw [List.forall_mem_cons] at h
    unfold editFirst
    split_ifs with hx
    · exact List.forall_mem_cons.mpr ⟨hf x hx, h.2⟩
    · exact List.forall_mem_cons.mpr ⟨h.1, ih h.2⟩

theorem forall_updateFirst {α : Type} {P : α → Prop} {p : α → Bool} {f : α → α} {l : List α}
    (h : ∀ x ∈ l, P x) (hf : ∀ x, P x → P (f x)) : ∀ x ∈ updateFirst p f l, P x := by
  induction l with
  | nil => simp [updateFirst]
  | cons x xs ih =>
    rw [List.forall_mem_cons] at h
    unfold updateFirst
    split_ifs
    · exact List.forall_mem_cons.mpr ⟨hf x h.1, h.2⟩
    · exact List.forall_mem_cons.mpr ⟨h.1, ih h.2⟩

variable {env}

theorem addParmAt_noAccount {doc : ProvisioningDoc} {entry : CatalogEntry} (name value : String)
    (happ : entry.Placeable) (hdoc : NoAccount doc.characteristics) :
    NoAccount (addParmAt doc entry.segments name value).characteristics := by
  obtain ⟨hne, hother⟩ := happ
  unfold addParmAt
  cases hhead : CatalogEntry.applicationOf (entry.segments.headD "") with
  | some appId =>
    have happ : entry.appId = some appId := hhead
    have hid : appId ≠ appIdDmAccount := fun h => hne (h ▸ happ)
    simp only [hhead]
    refine forall_editFirst hdoc (fun c hc => ?_) ?_
    · exact isApplication_eq_false (isApplication_addParmAt _ _ _ hc) hid
    · have hnew : (Characteristic.addParm { type := "APPLICATION" } "AppID" appId).isApplication
          appId = true := by simp [Characteristic.isApplication, Characteristic.addParm,
            Characteristic.findParm]
      exact isApplication_eq_false (isApplication_addParmAt _ _ _ hnew) hid
  | none =>
    simp only [hhead]
    have hhead : entry.head ≠ "APPLICATION" := fun h => hother hhead (by simp [h])
    have hfalse : ∀ c : Characteristic, c.type = entry.head →
        (Characteristic.addParmAt name value entry.segments.tail c).isApplication appIdDmAccount =
          false := by
      intro c hc
      simp [Characteristic.isApplication, hc, hhead]
    exact forall_editFirst hdoc (fun c hc => hfalse c (of_decide_eq_true hc))
      (hfalse { type := entry.head } rfl)

theorem addEntry_noAccount {context : BuildContext} {overrides : List (String × String)}
    {doc doc' : ProvisioningDoc} {entry : CatalogEntry} (happ : entry.Placeable)
    (h : addEntry env context overrides doc entry = .ok doc') (hdoc : NoAccount doc.characteristics) :
    NoAccount doc'.characteristics := by
  unfold addEntry at h
  dsimp only at h
  split_ifs at h with hempty
  · rw [Except.pure_eq_ok] at h
    exact h ▸ hdoc
  · obtain ⟨value, -, h⟩ := Except.bind_eq_ok.mp h
    rw [Except.pure_eq_ok] at h
    exact h ▸ addParmAt_noAccount _ _ happ hdoc

theorem foldlM_noAccount {context : BuildContext} {overrides : List (String × String)}
    {entries : List CatalogEntry} {doc doc' : ProvisioningDoc}
    (happs : ∀ e ∈ entries, e.Placeable)
    (h : entries.foldlM (addEntry env context overrides) doc = .ok doc')
    (hdoc : NoAccount doc.characteristics) : NoAccount doc'.characteristics := by
  induction entries generalizing doc with
  | nil =>
    rw [List.foldlM_nil, Except.pure_eq_ok] at h
    exact h ▸ hdoc
  | cons e entries ih =>
    rw [List.foldlM_cons, Except.bind_eq_ok] at h
    obtain ⟨next, hnext, h⟩ := h
    rw [List.forall_mem_cons] at happs
    exact ih happs.2 h (addEntry_noAccount happs.1 hnext hdoc)

theorem policy_noAccount {doc : ProvisioningDoc} (query : ConfigQuery)
    (hdoc : NoAccount doc.characteristics) :
    NoAccount (applyDefaultSmsAppPolicy doc query).characteristics := by
  unfold applyDefaultSmsAppPolicy
  split_ifs
  · exact forall_updateFirst hdoc fun c hc => hc
  · exact hdoc

theorem account_of_buildDocument {settings : Settings} {query : ConfigQuery} {imsi msisdn : String}
    {version validity : Int} {profile token : String} {overrides : List (String × String)}
    {dmPassword : String} {doc : ProvisioningDoc}
    (h : buildDocument env settings query imsi msisdn version validity profile token overrides
      dmPassword = .ok doc) :
    ∀ c ∈ doc.characteristics, c.isApplication appIdDmAccount = true →
      dmPassword ≠ "" ∧ ∃ values, c = dmAccountCharacteristic settings ⟨imsi, values⟩ dmPassword := by
  unfold buildDocument at h
  simp only [Except.bind_eq_ok] at h
  obtain ⟨catalog, -, context, hcontext, base, hbase, h⟩ := h
  have himsi : ∃ values, context = ⟨imsi, values⟩ := by
    unfold BuildContext.create at hcontext
    obtain ⟨identity, -, hcontext⟩ := Except.bind_eq_ok.mp hcontext
    rw [Except.pure_eq_ok] at hcontext
    exact ⟨_, hcontext.symm⟩
  have happs : ∀ profile, ∀ e ∈ selectedEntries catalog profile query.apps, e.Placeable :=
    fun _ e he => catalog.apps e (List.mem_filter.mp (List.mem_filter.mp he).1).1
  have hstart : NoAccount (if token ≠ "" then (ProvisioningDoc.add {}
      (versCharacteristic version validity)).add (tokenCharacteristic token) else
        ProvisioningDoc.add {} (versCharacteristic version validity)).characteristics := by
    split_ifs <;> simp [NoAccount, ProvisioningDoc.add, versCharacteristic, tokenCharacteristic,
      Characteristic.isApplication, Characteristic.addParm]
  have hnone := policy_noAccount query (foldlM_noAccount (happs _) hbase hstart)
  intro c hc haccount
  split_ifs at h with hdm
  · rw [Except.pure_eq_ok] at h
    subst h
    rcases List.mem_append.mp hc with hc | hc
    · rw [hnone c hc] at haccount
      cases haccount
    · obtain ⟨values, rfl⟩ := himsi
      simp only [Bool.and_eq_true, decide_eq_true_eq] at hdm
      exact ⟨hdm.2, values, List.mem_singleton.mp hc⟩
  · rw [Except.pure_eq_ok] at h
    subst h
    rw [hnone c hc] at haccount
    cases haccount

end Builder
end Acs
