import Acs.Protocol.Catalog
import Acs.Protocol.Placements
import Acs.Protocol.Rendering

/-! The configuration document holds what the catalogue says, where it says so, and nothing else. -/

namespace Acs
open Builder ProvisioningDoc List

/-! ### What the catalogue says -/

/-- Every brace belongs to a placeholder of the context. -/
inductive KnownOnly (values : List (String × String)) : List Char → Prop
  | nil : KnownOnly values []
  | char {c : Char} {cs : List Char} :
    Formatter.isBrace c = false → KnownOnly values cs → KnownOnly values (c :: cs)
  | field {name : String} {cs : List Char} : (values.lookup name).isSome → KnownOnly values cs →
    KnownOnly values ('{' :: (name.toList ++ '}' :: cs))

structure Spells (path : String) (address : List String) : Prop where
  ne_nil : address ≠ []
  no_slash : ∀ segment ∈ address, '/' ∉ segment.toList
  joined : "/".intercalate address = path

def rawOf (overrides : List (String × String)) (e : CatalogEntry) : String :=
  (overrides.lookup (e.path ++ "/" ++ e.parm)).getD e.default

/-- An entry is for its profiles, or for all when it names none, and an application is left out
when the request lists others only. -/
structure Selected (profile : String) (apps : List String) (e : CatalogEntry) : Prop where
  profile : e.profiles = [] ∨ profile ∈ e.profiles
  app : apps ≠ [] → ∀ appId types, Spells e.path (("APPLICATION:" ++ appId) :: types) →
    appId ∈ apps

/-- An empty value is left out unless the entry is required. -/
structure Wanted (profile : String) (apps : List String) (overrides : List (String × String))
    (e : CatalogEntry) : Prop extends Selected profile apps e where
  value : rawOf overrides e ≠ "" ∨ e.required = true

def messagingParms : List String := ["standaloneMsgAuth", "ChatAuth", "GroupChatAuth"]

/-- The entry is a messaging authorisation, and the client is not the default SMS app. -/
structure Denies (query : ConfigQuery) (e : CatalogEntry) : Prop where
  query : query.defaultSmsApp = some 0
  path : e.path = "APPLICATION:ap2002/SERVICES"
  parm : e.parm ∈ messagingParms

/-- The parameter that an entry puts in the document. -/
structure Entered (query : ConfigQuery) (values overrides : List (String × String))
    (e : CatalogEntry) (p : Parm) : Prop where
  name : p.name = e.parm
  denied : Denies query e → p.value = "0"
  bool01 : ¬ Denies query e → e.type = .bool01 → (p.value = "0" ∨ p.value = "1") ∧
    (p.value = "1" ↔ replaced values (rawOf overrides e) ∈ ["1", "true", "True", "yes"])
  text : ¬ Denies query e → e.type ≠ .bool01 → p.value = replaced values (rawOf overrides e)

/-- What the builder writes itself: the revision, the token, the DM account, and the AppID of every
other application. -/
inductive WritesItself (settings : Settings) (context : BuildContext) (version validity : Int)
    (token dmPassword : String) : List String → List Parm → Prop
  | vers : WritesItself settings context version validity token dmPassword ["VERS"]
      [⟨"version", toString version⟩, ⟨"validity", toString validity⟩]
  | token : WritesItself settings context version validity token dmPassword ["TOKEN"]
      [⟨"token", token⟩]
  | account : WritesItself settings context version validity token dmPassword ["APPLICATION:w7"]
      (dmAccountCharacteristic settings context dmPassword).parms
  | application {appId : String} : appId ≠ "w7" →
    WritesItself settings context version validity token dmPassword ["APPLICATION:" ++ appId]
      [⟨"AppID", appId⟩]
  | nothing {address : List String} : address ≠ ["VERS"] → address ≠ ["TOKEN"] →
    (∀ appId, address ≠ ["APPLICATION:" ++ appId]) →
    WritesItself settings context version validity token dmPassword address []

/-- The addresses of the document: those on the way to its entries, the revision's, and those of the
token and of the DM account where there is one. -/
inductive Occurs (settings : Settings) (token dmPassword : String) (wanted : List CatalogEntry) :
    List String → Prop
  | vers : Occurs settings token dmPassword wanted ["VERS"]
  | token : token ≠ "" → Occurs settings token dmPassword wanted ["TOKEN"]
  | account : settings.dmBootstrapInCp = true → settings.dmEnabled = true → dmPassword ≠ "" →
    Occurs settings token dmPassword wanted ["APPLICATION:w7"]
  | entry {e : CatalogEntry} {address types : List String} : e ∈ wanted → address ≠ [] →
    Spells e.path (address ++ types) → Occurs settings token dmPassword wanted address

/-! ### Which entries the builder places, and with which values -/

theorem spells_iff {e : CatalogEntry} {address : List String} :
    Spells e.path address ↔ e.segments = address := by
  have hslash : "/".toList = ['/'] := rfl
  constructor
  · rintro ⟨hne, hslashes, hjoined⟩
    have hlist := congrArg String.toList hjoined
    rw [String.toList_intercalate, hslash] at hlist
    unfold CatalogEntry.segments
    rw [← hlist, splitOn_intercalate '/' _ (by simpa using hne), map_map]
    · exact map_id'' (fun _ => String.ofList_toList) address
    · intro cs hcs
      obtain ⟨segment, hsegment, rfl⟩ := mem_map.mp hcs
      exact hslashes segment hsegment
  · rintro rfl
    have hparts : e.segments.map String.toList = e.path.toList.splitOn '/' := by
      unfold CatalogEntry.segments
      rw [map_map]
      exact map_id'' (fun _ => String.toList_ofList) _
    refine ⟨?_, fun segment hsegment => ?_, ?_⟩
    · simp [CatalogEntry.segments, splitOn_ne_nil]
    · have hpart : segment.toList ∈ e.path.toList.splitOn '/' := hparts ▸ mem_map_of_mem hsegment
      exact not_mem_of_mem_splitOn hpart
    · apply String.toList_inj.mp
      rw [String.toList_intercalate, hslash, hparts, intercalate_splitOn]

theorem appId_eq_some_iff {e : CatalogEntry} {appId : String} :
    e.appId = some appId ↔ ∃ types, Spells e.path (("APPLICATION:" ++ appId) :: types) := by
  obtain ⟨head, path, hsegments⟩ : ∃ head path, e.segments = head :: path :=
    exists_cons_of_ne_nil (by simp [CatalogEntry.segments, splitOn_ne_nil])
  have happ : e.appId = CatalogEntry.applicationOf head := by
    rw [CatalogEntry.appId, CatalogEntry.head, hsegments]
    rfl
  simp only [happ, applicationOf_eq_some, spells_iff, hsegments, cons.injEq, exists_and_left,
    exists_eq', and_true]

theorem selected_iff {profile : String} {apps : List String} {e : CatalogEntry} :
    Selected profile apps e ↔ e.appliesTo profile = true ∧
      (match e.appId with
        | some appId => apps.isEmpty || apps.contains appId
        | none => true) = true := by
  have hprofile : e.appliesTo profile = true ↔ e.profiles = [] ∨ profile ∈ e.profiles := by
    simp [CatalogEntry.appliesTo]
  rw [hprofile]
  constructor
  · rintro ⟨h, happ⟩
    refine ⟨h, ?_⟩
    cases hid : e.appId with
    | none => rfl
    | some appId =>
      obtain ⟨types, hspells⟩ := appId_eq_some_iff.mp hid
      by_cases hnone : apps = []
      · simp [hnone]
      · simpa using Or.inr (happ hnone appId types hspells)
  · rintro ⟨h, hfilter⟩
    refine ⟨h, fun hne appId types hspells => ?_⟩
    rw [appId_eq_some_iff.mpr ⟨types, hspells⟩] at hfilter
    simpa [hne] using hfilter

instance (profile : String) (apps : List String) :
    DecidablePred (Selected profile apps) := fun _ => decidable_of_iff _ selected_iff.symm

theorem mem_selectedEntries {catalog : Catalog} {profile : String} {apps : List String}
    {e : CatalogEntry} : e ∈ selectedEntries catalog profile apps ↔
      e ∈ catalog.entries ∧ Selected profile apps e := by
  rw [selected_iff, selectedEntries, mem_filter, mem_filter]
  exact and_assoc

theorem wanted_iff {profile : String} {apps : List String} {overrides : List (String × String)}
    {e : CatalogEntry} : Wanted profile apps overrides e ↔
      Selected profile apps e ∧ (rawOf overrides e ≠ "" ∨ e.required = true) :=
  ⟨fun h => ⟨h.toSelected, h.value⟩, fun h => ⟨h.1, h.2⟩⟩

instance (profile : String) (apps : List String) (overrides : List (String × String)) :
    DecidablePred (Wanted profile apps overrides) := fun _ => decidable_of_iff _ wanted_iff.symm

instance (path : String) : DecidablePred (Spells path) := fun address =>
  decidable_of_iff (address ≠ [] ∧ (∀ segment ∈ address, '/' ∉ segment.toList) ∧
    "/".intercalate address = path) ⟨fun h => ⟨h.1, h.2.1, h.2.2⟩, fun h => ⟨h.1, h.2, h.3⟩⟩

def wantedEntries (catalog : Catalog) (profile : String) (apps : List String)
    (overrides : List (String × String)) : List CatalogEntry :=
  catalog.entries.filter (Wanted profile apps overrides ·)

def isKept (overrides : List (String × String)) (e : CatalogEntry) : Bool :=
  rawOf overrides e ≠ "" || e.required

theorem filter_isKept {catalog : Catalog} {profile : String} {apps : List String}
    {overrides : List (String × String)} :
    (selectedEntries catalog profile apps).filter (isKept overrides) =
      wantedEntries catalog profile apps overrides := by
  unfold selectedEntries wantedEntries
  rw [filter_filter, filter_filter]
  refine filter_congr fun e _ => Bool.eq_iff_iff.mpr ?_
  rw [decide_eq_true_eq, wanted_iff, selected_iff]
  simp only [Bool.and_eq_true, isKept, Bool.or_eq_true, decide_eq_true_eq]
  tauto

def servicesAddress : List String := ["APPLICATION:ap2002", "SERVICES"]

def denied (query : ConfigQuery) (address : List String) (p : Parm) : Parm :=
  if query.defaultSmsApp = some 0 ∧ address = servicesAddress ∧ p.name ∈ messagingParms then
    { p with value := "0" }
  else p

def placementOf (context : BuildContext) (overrides : List (String × String)) (e : CatalogEntry) :
    Placement where
  segments := e.segments
  parm := ⟨e.parm, coerceValue e (replaced context.values (rawOf overrides e))⟩

theorem denies_iff {query : ConfigQuery} {e : CatalogEntry} : Denies query e ↔
    query.defaultSmsApp = some 0 ∧ e.segments = servicesAddress ∧ e.parm ∈ messagingParms := by
  have hpath : e.path = "APPLICATION:ap2002/SERVICES" ↔ e.segments = servicesAddress := by
    rw [← spells_iff]
    constructor
    · intro h
      exact h ▸ ⟨by decide, by decide, rfl⟩
    · intro h
      exact h.joined.symm
  rw [← hpath]
  exact ⟨fun h => ⟨h.query, h.path, h.parm⟩, fun h => ⟨h.1, h.2.1, h.2.2⟩⟩

theorem entered_placementOf (query : ConfigQuery) (context : BuildContext)
    (overrides : List (String × String)) (e : CatalogEntry) :
    Entered query context.values overrides e
      (denied query e.segments (placementOf context overrides e).parm) := by
  by_cases hdenies : Denies query e
  · have hzero : denied query e.segments (placementOf context overrides e).parm = ⟨e.parm, "0"⟩ :=
      if_pos (denies_iff.mp hdenies)
    rw [hzero]
    exact ⟨rfl, fun _ => rfl, fun h => absurd hdenies h, fun h => absurd hdenies h⟩
  · have hsame : denied query e.segments (placementOf context overrides e).parm =
        (placementOf context overrides e).parm := if_neg fun h => hdenies (denies_iff.mpr h)
    rw [hsame]
    refine ⟨rfl, fun h => absurd h hdenies, fun _ htype => ?_, fun _ htype => if_neg htype⟩
    have hvalue : (placementOf context overrides e).parm.value =
        if replaced context.values (rawOf overrides e) ∈ ["1", "true", "True", "yes"] then "1"
        else "0" := if_pos htype
    rw [hvalue]
    split_ifs with htrue
    · exact ⟨.inr rfl, fun _ => htrue, fun _ => rfl⟩
    · exact ⟨.inl rfl, fun h => absurd h (by decide), fun h => absurd h htrue⟩

def ownParms (settings : Settings) (context : BuildContext) (version validity : Int)
    (token dmPassword : String) (address : List String) : List Parm :=
  if address = ["VERS"] then (versCharacteristic version validity).parms
  else if address = ["TOKEN"] then (tokenCharacteristic token).parms
  else if address = ["APPLICATION:" ++ appIdDmAccount] then
    (dmAccountCharacteristic settings context dmPassword).parms
  else freshParms address

theorem writesItself_ownParms (settings : Settings) (context : BuildContext)
    (version validity : Int) (token dmPassword : String) (address : List String) :
    WritesItself settings context version validity token dmPassword address
      (ownParms settings context version validity token dmPassword address) := by
  unfold ownParms
  split_ifs with hvers htoken haccount
  · exact hvers ▸ .vers
  · exact htoken ▸ .token
  · exact haccount ▸ .account
  · by_cases happ : ∃ appId, address = ["APPLICATION:" ++ appId]
    · obtain ⟨appId, rfl⟩ := happ
      have hfresh : freshParms ["APPLICATION:" ++ appId] = [⟨"AppID", appId⟩] := by
        show (freshTop _).parms = _
        unfold freshTop
        rw [applicationOf_eq_some.mpr rfl]
        rfl
      rw [hfresh]
      exact .application fun h => haccount (h ▸ rfl)
    · have hfresh : freshParms address = [] := by
        match address with
        | [] => rfl
        | [head] =>
          show (freshTop head).parms = []
          unfold freshTop
          cases hhead : CatalogEntry.applicationOf head with
          | none => rfl
          | some appId => exact absurd ⟨appId, by rw [applicationOf_eq_some.mp hhead]⟩ happ
        | _ :: _ :: _ => rfl
      rw [hfresh]
      exact .nothing hvers htoken fun appId h => happ ⟨appId, h⟩

/-- The document is the catalogue's: the entries that belong in it, each once and in order, beside
what the builder writes itself. -/
structure Exact (settings : Settings) (query : ConfigQuery) (context : BuildContext)
    (version validity : Int) (token : String) (overrides : List (String × String))
    (dmPassword : String) (catalog : Catalog) (profile : String) (doc : ProvisioningDoc) :
    Prop where
  distinct : doc.Distinct
  occurs : ∀ address, (∃ c, doc.Holds address c) ↔ Occurs settings token dmPassword
    (wantedEntries catalog profile query.apps overrides) address
  placed : ∀ e ∈ catalog.entries, Wanted profile query.apps overrides e →
    ∃ address c p, Spells e.path address ∧ doc.Holds address c ∧
      c.parms.filter (·.name = e.parm) = [p] ∧ Entered query context.values overrides e p
  only : ∀ address c, doc.Holds address c → ∃ own entered,
    WritesItself settings context version validity token dmPassword address own ∧
      Forall₂ (Entered query context.values overrides)
        ((wantedEntries catalog profile query.apps overrides).filter (Spells ·.path address))
        entered ∧
      c.parms = own ++ entered
  messaging : query.defaultSmsApp = some 0 → ∀ c, doc.Holds ["APPLICATION:ap2002", "SERVICES"] c →
    ∀ p ∈ c.parms, p.name ∈ messagingParms → p.value = "0"

section Entries
variable {digits : Formatter.Digits} {runtime : Runtime} {env : BuildEnv} {context : BuildContext}
  {overrides : List (String × String)} {entries : List CatalogEntry}

theorem render_ok (hformat : env.vformat = SafeFormatter.vformat digits runtime) {template : String}
    (h : Placeholders digits template) :
    context.render env template = .ok (replaced context.values template) := by
  have hrendered := (@rendered_of_placeholders _ runtime env _ h).1 context
  rw [← hformat] at hrendered
  exact hrendered

theorem addEntry_ok (hformat : env.vformat = SafeFormatter.vformat digits runtime)
    {e : CatalogEntry} (h : Placeholders digits (rawOf overrides e)) (doc : ProvisioningDoc) :
    addEntry env context overrides doc e =
      .ok (if isKept overrides e then place doc (placementOf context overrides e) else doc) := by
  have hrender : context.render env (rawOf overrides e) = _ := render_ok hformat h
  have hempty : (decide (rawOf overrides e = "") && !e.required) = !isKept overrides e := by
    by_cases hraw : rawOf overrides e = "" <;> simp [isKept, hraw]
  show (if (decide (rawOf overrides e = "") && !e.required) = true then Except.ok doc
    else do
      let value := coerceValue e (← context.render env (rawOf overrides e))
      return addParmAt doc e.segments e.parm value) = _
  rw [hempty, hrender]
  cases isKept overrides e <;> rfl

theorem foldlM_addEntry (hformat : env.vformat = SafeFormatter.vformat digits runtime)
    (h : ∀ e ∈ entries, Placeholders digits (rawOf overrides e)) (doc : ProvisioningDoc) :
    entries.foldlM (addEntry env context overrides) doc =
      .ok (((entries.filter (isKept overrides)).map (placementOf context overrides)).foldl
        place doc) := by
  induction entries generalizing doc with
  | nil => rfl
  | cons e entries ih =>
    obtain ⟨he, hentries⟩ := forall_mem_cons.mp h
    rw [foldlM_cons, addEntry_ok hformat he]
    show entries.foldlM _ _ = _
    rw [ih hentries]
    by_cases hkept : isKept overrides e = true
    · rw [filter_cons_of_pos hkept, if_pos hkept]
      rfl
    · rw [filter_cons_of_neg hkept, if_neg hkept]

end Entries

def contextKeys : List String :=
  ["imsi", "mcc", "mnc", "ims_domain", "impi", "impu", "acs_fqdn", "msisdn", "msisdn_national",
   "device_id", "profile", "acs_host"]

theorem keys_of_create {env : BuildEnv} {imsi msisdn deviceId profile acsHost : String}
    {context : BuildContext}
    (h : BuildContext.create env imsi msisdn deviceId profile acsHost = .ok context) :
    context.values.map Prod.fst = contextKeys := by
  obtain ⟨identity, -, h⟩ := Except.bind_eq_ok.mp h
  rw [Except.pure_eq_ok] at h
  subst h
  rfl

theorem named_contextKeys {digits : Formatter.Digits} {key : String} (h : key ∈ contextKeys) :
    Formatter.Named digits key.toList := by
  have hkeys : ∀ key ∈ contextKeys,
      (match key.toList with
        | c :: _ => decide (c.toNat < 128) && !c.isDigit
        | [] => false) = true ∧
      (key.toList.all fun c => c ∉ ['{', '}', ':', '!', '.', '[']) = true := by
    decide +kernel
  obtain ⟨hfirst, hall⟩ := hkeys key h
  have hchars : ∀ c ∈ key.toList, c ∉ ['{', '}', ':', '!', '.', '['] := fun c hc =>
    of_decide_eq_true (all_eq_true.mp hall c hc)
  clear hall
  generalize key.toList = name at hfirst hchars
  cases name with
  | nil => cases hfirst
  | cons c cs =>
    simp only [Bool.and_eq_true, decide_eq_true_eq, Bool.not_eq_true'] at hfirst
    refine ⟨cons_ne_nil c cs, hchars, ?_⟩
    have hdecimal : digits.decimal c = none := by
      rw [digits.ascii c hfirst.1, hfirst.2]
      rfl
    rw [Formatter.getInteger, if_neg (cons_ne_nil c cs), Formatter.integerFrom, hdecimal]

theorem mem_keys_of_lookup {values : List (String × String)} {key value : String}
    (h : values.lookup key = some value) : key ∈ values.map Prod.fst := by
  induction values with
  | nil => cases h
  | cons pair values ih =>
    rw [lookup_cons] at h
    split at h
    · next heq => exact mem_cons.mpr (.inl (by simpa using heq))
    · exact mem_cons_of_mem _ (ih h)

theorem placeholders_of_knownOnly {digits : Formatter.Digits} {values : List (String × String)}
    {template : String} (hkeys : values.map Prod.fst = contextKeys)
    (h : KnownOnly values template.toList) : Placeholders digits template := by
  right
  generalize template.toList = cs at h ⊢
  induction h with
  | nil => exact .nil
  | char hc _ ih => exact .char hc ih
  | @field name cs hname _ ih =>
    refine .field (named_contextKeys ?_) ih
    rw [← hkeys]
    obtain ⟨value, hvalue⟩ := Option.isSome_iff_exists.mp hname
    exact mem_keys_of_lookup hvalue

theorem heading_dmAccount (settings : Settings) (context : BuildContext) (dmPassword : String) :
    (dmAccountCharacteristic settings context dmPassword).heading =
      "APPLICATION:" ++ appIdDmAccount := by
  simp [Characteristic.heading, dmAccountCharacteristic, Characteristic.findParm]

def startDocument (version validity : Int) (token : String) : ProvisioningDoc :=
  let doc := ProvisioningDoc.add {} (versCharacteristic version validity)
  if token ≠ "" then doc.add (tokenCharacteristic token) else doc

section Start
variable {version validity : Int} {token : String}

theorem mem_startDocument {c : Characteristic} :
    c ∈ (startDocument version validity token).characteristics ↔
      c = versCharacteristic version validity ∨ token ≠ "" ∧ c = tokenCharacteristic token := by
  unfold startDocument
  split_ifs with htoken
  · simp [ProvisioningDoc.add, htoken]
  · simp [ProvisioningDoc.add, htoken]

theorem headed_startDocument :
    ∀ c ∈ (startDocument version validity token).characteristics, Headed c := by
  intro c hc
  rcases mem_startDocument.mp hc with rfl | ⟨-, rfl⟩
  · exact ⟨fun h => absurd (show "VERS" = "APPLICATION" from h) (by decide),
      fun _ => show CatalogEntry.applicationOf "VERS" = none by decide⟩
  · exact ⟨fun h => absurd (show "TOKEN" = "APPLICATION" from h) (by decide),
      fun _ => show CatalogEntry.applicationOf "TOKEN" = none by decide⟩

theorem distinct_startDocument : (startDocument version validity token).Distinct := by
  constructor
  · unfold startDocument
    split_ifs <;> simp [ProvisioningDoc.add, Characteristic.heading, versCharacteristic,
      tokenCharacteristic, Characteristic.addParm]
  · intro c hc
    rcases mem_startDocument.mp hc with rfl | ⟨-, rfl⟩ <;> exact Characteristic.distinct_leaf _ _

theorem parmsAt_startDocument {address : List String} {parms : List Parm} :
    (startDocument version validity token).parmsAt address = some parms ↔
      address = ["VERS"] ∧ parms = (versCharacteristic version validity).parms ∨
        token ≠ "" ∧ address = ["TOKEN"] ∧ parms = (tokenCharacteristic token).parms := by
  constructor
  · intro h
    obtain ⟨d, ⟨c, hc, types, rfl, hd⟩, rfl⟩ := holds_of_parmsAt h
    rcases mem_startDocument.mp hc with rfl | ⟨htoken, rfl⟩
    · cases hd with
      | here => exact .inl ⟨rfl, rfl⟩
      | child hchild => cases hchild
    · cases hd with
      | here => exact .inr ⟨htoken, rfl, rfl⟩
      | child hchild => cases hchild
  · rintro (⟨rfl, rfl⟩ | ⟨htoken, rfl, rfl⟩)
    · have hholds : (startDocument version validity token).Holds ["VERS"]
          (versCharacteristic version validity) :=
        ⟨_, mem_startDocument.mpr (.inl rfl), [], rfl, .here _⟩
      exact hholds.parmsAt distinct_startDocument
    · have hholds : (startDocument version validity token).Holds ["TOKEN"]
          (tokenCharacteristic token) :=
        ⟨_, mem_startDocument.mpr (.inr ⟨htoken, rfl⟩), [], rfl, .here _⟩
      exact hholds.parmsAt distinct_startDocument

end Start

/-! ### The client that is not the default SMS app -/

theorem denied_of_ne {query : ConfigQuery} {address : List String} (h : address ≠ servicesAddress) :
    denied query address = id := by
  funext p
  exact if_neg fun hp => h hp.2.1

theorem denied_of_default {query : ConfigQuery} (h : query.defaultSmsApp ≠ some 0)
    (address : List String) : denied query address = id := by
  funext p
  exact if_neg fun hp => h hp.1

def denyServices (rcs : Characteristic) : Characteristic :=
  { rcs with children := updateFirst (·.type = "SERVICES") denyMessaging rcs.children }

theorem heading_denyServices (c : Characteristic) : (denyServices c).heading = c.heading := rfl

theorem parmsAt_denyServices {query : ConfigQuery} (hquery : query.defaultSmsApp = some 0)
    (c : Characteristic) (types : List String) :
    (denyServices c).parmsAt types =
      (c.parmsAt types).map (map (denied query (("APPLICATION:" ++ appIdRcs) :: types))) := by
  match types with
  | [] =>
    rw [denied_of_ne (by decide), map_id_fun]
    rfl
  | type :: types =>
    by_cases htype : type = "SERVICES"
    · subst htype
      have hfind := find?_updateFirst (p := fun d : Characteristic => d.type = "SERVICES")
        (f := denyMessaging) (l := c.children) fun d => rfl
      simp only [Characteristic.parmsAt, Characteristic.find, denyServices, hfind]
      cases c.children.find? (·.type = "SERVICES") with
      | none => rfl
      | some services =>
        cases types with
        | nil =>
          have hdenied : denied query ["APPLICATION:" ++ appIdRcs, "SERVICES"] = fun p =>
              if p.name ∈ messagingParms then { p with value := "0" } else p := by
            funext p
            simp only [denied, hquery, servicesAddress, appIdRcs, true_and]
            exact if_congr (and_iff_right rfl) rfl rfl
          simp only [Option.map_some, Option.bind_some, Characteristic.find, hdenied]
          rfl
        | cons next types =>
          rw [denied_of_ne (by simp [servicesAddress]), map_id_fun, Option.map_id_fun]
          rfl
    · have hfind := find?_updateFirst_of_ne (p := fun d : Characteristic => d.type = "SERVICES")
        (q := fun d : Characteristic => d.type = type) (f := denyMessaging) (l := c.children)
        (fun d => rfl) fun d hd => by
          simp only [decide_eq_true_eq, decide_eq_false_iff_not] at hd ⊢
          exact fun h => htype (h.symm.trans hd)
      have hne : ("APPLICATION:" ++ appIdRcs) :: type :: types ≠ servicesAddress := by
        simp [servicesAddress, htype]
      rw [denied_of_ne hne, map_id_fun, Option.map_id_fun]
      simp only [Characteristic.parmsAt, Characteristic.find, denyServices, hfind, id]

theorem characteristics_policy {doc : ProvisioningDoc} {query : ConfigQuery}
    (hdoc : ∀ c ∈ doc.characteristics, Headed c) (hquery : query.defaultSmsApp = some 0) :
    (applyDefaultSmsAppPolicy doc query).characteristics =
      updateFirst (·.heading = "APPLICATION:" ++ appIdRcs) denyServices doc.characteristics := by
  unfold applyDefaultSmsAppPolicy
  rw [if_pos hquery]
  have hcongr : ∀ {l : List Characteristic} {f : Characteristic → Characteristic},
      (∀ c ∈ l, Headed c) → updateFirst (·.isApplication appIdRcs) f l =
        updateFirst (·.heading = "APPLICATION:" ++ appIdRcs) f l := by
    intro l f hl
    induction l with
    | nil => rfl
    | cons c l ih =>
      obtain ⟨hc, hl⟩ := forall_mem_cons.mp hl
      have happ : c.isApplication appIdRcs = decide (c.heading = "APPLICATION:" ++ appIdRcs) :=
        Bool.eq_iff_iff.mpr ((isApplication_iff hc).trans decide_eq_true_iff.symm)
      simp only [updateFirst, happ, ih hl]
  exact hcongr hdoc

theorem parmsAt_policy {doc : ProvisioningDoc} (query : ConfigQuery)
    (hdoc : ∀ c ∈ doc.characteristics, Headed c) (address : List String) :
    (applyDefaultSmsAppPolicy doc query).parmsAt address =
      (doc.parmsAt address).map (map (denied query address)) := by
  by_cases hquery : query.defaultSmsApp = some 0
  · cases address with
    | nil => rfl
    | cons head types =>
      simp only [ProvisioningDoc.parmsAt, characteristics_policy hdoc hquery]
      by_cases hhead : head = "APPLICATION:" ++ appIdRcs
      · subst hhead
        have hfind := find?_updateFirst
          (p := fun c : Characteristic => c.heading = "APPLICATION:" ++ appIdRcs)
          (f := denyServices) (l := doc.characteristics) fun c => rfl
        rw [hfind]
        cases doc.characteristics.find? (·.heading = "APPLICATION:" ++ appIdRcs) with
        | none => rfl
        | some c => exact parmsAt_denyServices hquery c types
      · have hfind := find?_updateFirst_of_ne
          (p := fun c : Characteristic => c.heading = "APPLICATION:" ++ appIdRcs)
          (q := fun c : Characteristic => c.heading = head)
          (f := denyServices) (l := doc.characteristics) (fun c => rfl) fun c hc => by
            simp only [decide_eq_true_eq, decide_eq_false_iff_not] at hc ⊢
            exact fun h => hhead (h.symm.trans hc)
        have hne : head :: types ≠ servicesAddress := fun h => hhead (cons.inj h).1
        rw [hfind, denied_of_ne hne, map_id_fun, Option.map_id_fun]
        rfl
  · rw [denied_of_default hquery, map_id_fun, Option.map_id_fun]
    unfold applyDefaultSmsAppPolicy
    rw [if_neg hquery]
    rfl

theorem distinct_denyServices {c : Characteristic} (h : c.Distinct) : (denyServices c).Distinct := by
  intro types d hd
  cases hd with
  | here =>
    show (map Characteristic.type (updateFirst _ _ _)).Nodup
    rw [map_updateFirst (f := denyMessaging) fun _ => rfl]
    exact h [] c (.here c)
  | child hchild hd =>
    rcases mem_updateFirst hchild with hchild | ⟨x, hx, rfl⟩
    · exact h _ _ (.child hchild hd)
    · cases hd with
      | here =>
        show (map Characteristic.type x.children).Nodup
        exact h _ x (.child hx (.here x))
      | child hbelow hd => exact h _ _ (.child hx (.child hbelow hd))

theorem distinct_policy {doc : ProvisioningDoc} (query : ConfigQuery)
    (hdoc : ∀ c ∈ doc.characteristics, Headed c) (h : doc.Distinct) :
    (applyDefaultSmsAppPolicy doc query).Distinct := by
  by_cases hquery : query.defaultSmsApp = some 0
  · constructor
    · rw [characteristics_policy hdoc hquery, map_updateFirst heading_denyServices]
      exact h.top
    · rw [characteristics_policy hdoc hquery]
      intro c hc
      rcases mem_updateFirst hc with hc | ⟨d, hd, rfl⟩
      · exact h.below c hc
      · exact distinct_denyServices (h.below d hd)
  · unfold applyDefaultSmsAppPolicy
    rw [if_neg hquery]
    exact h

section Add
variable {doc : ProvisioningDoc} {account : Characteristic}

theorem parmsAt_add (h : ∀ c ∈ doc.characteristics, c.heading ≠ account.heading)
    (head : String) (types : List String) :
    (doc.add account).parmsAt (head :: types) =
      if head = account.heading then account.parmsAt types else doc.parmsAt (head :: types) := by
  simp only [ProvisioningDoc.parmsAt, ProvisioningDoc.add, find?_append]
  by_cases hhead : head = account.heading
  · subst hhead
    have hnone : doc.characteristics.find? (·.heading = account.heading) = none :=
      find?_eq_none.mpr fun c hc => by simpa using h c hc
    simp [hnone]
  · have hother : (decide (account.heading = head)) = false :=
      decide_eq_false fun h => hhead h.symm
    simp [hhead, hother]

theorem distinct_add (h : ∀ c ∈ doc.characteristics, c.heading ≠ account.heading)
    (hdoc : doc.Distinct) (haccount : account.Distinct) : (doc.add account).Distinct := by
  constructor
  · rw [ProvisioningDoc.add, map_append, map_singleton]
    refine nodup_append.mpr ⟨hdoc.top, nodup_singleton _, fun a ha b hb hab => ?_⟩
    obtain ⟨c, hc, rfl⟩ := mem_map.mp ha
    exact h c hc (hab.trans (mem_singleton.mp hb))
  · intro c hc
    rcases mem_append.mp hc with hc | hc
    · exact hdoc.below c hc
    · exact mem_singleton.mp hc ▸ haccount

end Add

/-! ### The whole document -/

section Entry
variable {e : CatalogEntry} {entries : List CatalogEntry}

theorem path_of_segments {e' : CatalogEntry} (h : e'.segments = e.segments) : e'.path = e.path := by
  have hsplit : e'.path.toList.splitOn '/' = e.path.toList.splitOn '/' :=
    map_injective_iff.mpr (fun _ _ h => String.ofList_injective h) h
  have hjoin := congrArg (fun parts => ['/'].intercalate parts) hsplit
  simp only [intercalate_splitOn] at hjoin
  exact String.toList_inj.mp hjoin

theorem filter_segments_parm (hnodup : (entries.map CatalogEntry.key).Nodup) (he : e ∈ entries) :
    entries.filter (fun x => x.segments = e.segments && x.parm = e.parm) = [e] := by
  induction entries with
  | nil => cases he
  | cons x entries ih =>
    obtain ⟨hx, hentries⟩ := nodup_cons.mp (map_cons (f := CatalogEntry.key) ▸ hnodup)
    have hkey : ∀ y : CatalogEntry, (y.segments = e.segments && y.parm = e.parm : Bool) = true →
        y.key = e.key := by
      intro y hy
      simp only [Bool.and_eq_true, decide_eq_true_eq] at hy
      rw [CatalogEntry.key, CatalogEntry.key, path_of_segments hy.1, hy.2]
    rcases mem_cons.mp he with rfl | he
    · rw [filter_cons_of_pos (by simp), filter_eq_nil_iff.mpr]
      intro y hy hsame
      exact hx (hkey y hsame ▸ mem_map_of_mem hy)
    · rw [filter_cons_of_neg, ih hentries he]
      intro hsame
      exact hx (hkey x hsame ▸ mem_map_of_mem he)

theorem usable_head (h : e.Placeable) :
    ∃ head path, e.segments = head :: path ∧ Usable head ∧ head ≠ "VERS" ∧ head ≠ "TOKEN" ∧
      head ≠ "APPLICATION:" ++ appIdDmAccount := by
  obtain ⟨head, path, hsegments⟩ : ∃ head path, e.segments = head :: path :=
    exists_cons_of_ne_nil (by simp [CatalogEntry.segments, splitOn_ne_nil])
  have happ : e.appId = CatalogEntry.applicationOf head := by
    rw [CatalogEntry.appId, CatalogEntry.head, hsegments]
    rfl
  have hhead : e.head = head := by
    rw [CatalogEntry.head, hsegments]
    rfl
  obtain ⟨haccount, hother⟩ := h
  rw [happ] at haccount hother
  rw [hhead] at hother
  refine ⟨head, path, hsegments, fun hnone h => hother hnone (by simp [h]), ?_, ?_, ?_⟩
  · rintro rfl
    exact hother (by decide) (by decide)
  · rintro rfl
    exact hother (by decide) (by decide)
  · intro h
    exact haccount (applicationOf_eq_some.mpr h)

theorem fits_placementOf (h : e.Placeable) (hparm : e.parm ≠ "AppID") (context : BuildContext)
    (overrides : List (String × String)) : (placementOf context overrides e).Fits := by
  obtain ⟨head, path, hsegments, hhead, -⟩ := usable_head h
  exact ⟨hparm, head, path, hsegments, hhead⟩

end Entry

theorem denied_freshParms (query : ConfigQuery) (address address' : List String) :
    (freshParms address).map (denied query address') = freshParms address := by
  match address with
  | [] => rfl
  | [head] =>
    show (freshTop head).parms.map _ = (freshTop head).parms
    unfold freshTop
    cases CatalogEntry.applicationOf head with
    | none => rfl
    | some appId =>
      have hparm : denied query address' ⟨"AppID", appId⟩ = ⟨"AppID", appId⟩ :=
        if_neg fun h => absurd (show "AppID" ∈ messagingParms from h.2.2) (by decide)
      simp [Characteristic.addParm, hparm]
  | _ :: _ :: _ => rfl

section Document
variable {settings : Settings} {query : ConfigQuery} {context : BuildContext}
  {version validity : Int} {token dmPassword : String} {overrides : List (String × String)}
  {catalog : Catalog} {profile : String} {kept : List CatalogEntry} {doc : ProvisioningDoc}
  {address : List String} {parms : List Parm}

/-- What lies at an address once the entries are placed: at the heads of entries the entries, in
order, and elsewhere what the document started with. -/
theorem placedAt_kept (hkept : ∀ e ∈ kept, e.Placeable)
    (h : placedAt (startDocument version validity token)
      (kept.map (placementOf context overrides)) address = some parms) :
    (∃ head types, address = head :: types ∧ head ≠ "VERS" ∧ head ≠ "TOKEN" ∧
      head ≠ "APPLICATION:" ++ appIdDmAccount ∧ parms = freshParms address ++
        (kept.filter (·.segments = address)).map fun e => (placementOf context overrides e).parm) ∨
    kept.filter (·.segments = address) = [] ∧
      (address = ["VERS"] ∧ parms = (versCharacteristic version validity).parms ∨
        token ≠ "" ∧ address = ["TOKEN"] ∧ parms = (tokenCharacteristic token).parms) := by
  have hfilter : ((kept.map (placementOf context overrides)).filter (·.segments = address)).map
      Placement.parm = (kept.filter (·.segments = address)).map
        fun e => (placementOf context overrides e).parm := by
    rw [filter_map, map_map]
    rfl
  -- either some entry lies at the address or below it, or none does
  by_cases hthrough : ∃ p ∈ kept.map (placementOf context overrides), address <+: p.segments
  · left
    have hne : address ≠ [] := by
      rintro rfl
      simp only [placedAt, ne_eq, not_true_eq_false, false_and, if_false,
        ProvisioningDoc.parmsAt, reduceCtorEq] at h
    obtain ⟨p, hp, hprefix⟩ := hthrough
    obtain ⟨e, he, rfl⟩ := mem_map.mp hp
    obtain ⟨head, path, hsegments, -, hvers, htoken, haccount⟩ := usable_head (hkept e he)
    obtain ⟨first, types, rfl⟩ := exists_cons_of_ne_nil hne
    have hfirst : first = head := by
      have hcons : first :: types <+: head :: path := hsegments ▸ hprefix
      exact (cons_prefix_cons.mp hcons).1
    subst hfirst
    have hstart : (startDocument version validity token).parmsAt (first :: types) = none := by
      cases hstart : (startDocument version validity token).parmsAt (first :: types) with
      | none => rfl
      | some parms =>
        rcases parmsAt_startDocument.mp hstart with ⟨heq, -⟩ | ⟨-, heq, -⟩
        · exact absurd (cons.inj heq).1 hvers
        · exact absurd (cons.inj heq).1 htoken
    rw [placedAt_of_through hne ⟨_, hp, hprefix⟩, hstart, hfilter, Option.getD_none] at h
    exact ⟨first, types, rfl, hvers, htoken, haccount, (Option.some.inj h).symm⟩
  · right
    obtain ⟨hplaced, hnone⟩ :=
      placedAt_of_not_through (startDocument version validity token) hthrough
    rw [hplaced] at h
    rw [hnone] at hfilter
    exact ⟨map_eq_nil_iff.mp hfilter.symm, parmsAt_startDocument.mp h⟩

theorem occurs_placedAt : (∃ parms, placedAt (startDocument version validity token)
      (kept.map (placementOf context overrides)) address = some parms) ↔
    Occurs settings token "" kept address := by
  by_cases hthrough : address ≠ [] ∧ ∃ p ∈ kept.map (placementOf context overrides),
      address <+: p.segments
  · obtain ⟨hne, p, hp, hprefix⟩ := hthrough
    rw [placedAt_of_through hne ⟨p, hp, hprefix⟩]
    obtain ⟨e, he, rfl⟩ := mem_map.mp hp
    obtain ⟨types, htypes⟩ := hprefix
    exact iff_of_true ⟨_, rfl⟩ (.entry he hne (spells_iff.mpr htypes.symm))
  · have hstart : placedAt (startDocument version validity token)
        (kept.map (placementOf context overrides)) address =
          (startDocument version validity token).parmsAt address := if_neg hthrough
    rw [hstart]
    constructor
    · rintro ⟨parms, hparms⟩
      rcases parmsAt_startDocument.mp hparms with ⟨rfl, -⟩ | ⟨htoken, rfl, -⟩
      · exact .vers
      · exact .token htoken
    · intro h
      cases h with
      | vers => exact ⟨_, parmsAt_startDocument.mpr (.inl ⟨rfl, rfl⟩)⟩
      | token htoken => exact ⟨_, parmsAt_startDocument.mpr (.inr ⟨htoken, rfl, rfl⟩)⟩
      | account _ _ hpassword => exact absurd rfl hpassword
      | entry he hne hspells =>
        exact absurd ⟨hne, _, mem_map_of_mem he, _, (spells_iff.mp hspells).symm⟩ hthrough

theorem occurs_iff : Occurs settings token dmPassword kept address ↔
    Occurs settings token "" kept address ∨
      (settings.dmBootstrapInCp && settings.dmEnabled && (dmPassword ≠ "" : Bool)) = true ∧
        address = ["APPLICATION:w7"] := by
  simp only [Bool.and_eq_true, decide_eq_true_eq]
  constructor
  · intro h
    cases h with
    | vers => exact .inl .vers
    | token htoken => exact .inl (.token htoken)
    | account hbootstrap henabled hpassword => exact .inr ⟨⟨⟨hbootstrap, henabled⟩, hpassword⟩, rfl⟩
    | entry he hne hspells => exact .inl (.entry he hne hspells)
  · rintro (h | ⟨⟨⟨hbootstrap, henabled⟩, hpassword⟩, rfl⟩)
    · cases h with
      | vers => exact .vers
      | token htoken => exact .token htoken
      | account _ _ hpassword => exact absurd rfl hpassword
      | entry he hne hspells => exact .entry he hne hspells
    · exact .account hbootstrap henabled hpassword

theorem occurs_add
    (hfree : ∀ c ∈ doc.characteristics, c.heading ≠ "APPLICATION:" ++ appIdDmAccount)
    (haccount : (settings.dmBootstrapInCp && settings.dmEnabled && (dmPassword ≠ "" : Bool)) = true)
    (h : ∀ address, (∃ parms, doc.parmsAt address = some parms) ↔
      Occurs settings token "" kept address) (address : List String) :
    (∃ parms, (doc.add (dmAccountCharacteristic settings context dmPassword)).parmsAt address =
      some parms) ↔ Occurs settings token dmPassword kept address := by
  rw [occurs_iff, ← h address, and_iff_right haccount]
  have hheading := heading_dmAccount settings context dmPassword
  cases address with
  | nil => simp [ProvisioningDoc.parmsAt]
  | cons head types =>
    rw [parmsAt_add (hheading ▸ hfree), hheading]
    by_cases hhead : head = "APPLICATION:" ++ appIdDmAccount
    · have hnone : doc.parmsAt (head :: types) = none := by
        rw [ProvisioningDoc.parmsAt, find?_eq_none.mpr]
        · rfl
        · intro c hc heq
          exact hfree c hc ((of_decide_eq_true heq).trans hhead)
      rw [if_pos hhead, hnone]
      subst hhead
      cases types with
      | nil => exact iff_of_true ⟨_, rfl⟩ (.inr rfl)
      | cons type types => simp [Characteristic.parmsAt, Characteristic.find,
          dmAccountCharacteristic]
    · have hne : head :: types ≠ ["APPLICATION:w7"] := fun heq => hhead (cons.inj heq).1
      rw [if_neg hhead, or_iff_left hne]

/-- What lies at an address of a document is what the builder writes there itself, and the entries
of that address in the order of the catalogue. -/
def Filled (settings : Settings) (query : ConfigQuery) (context : BuildContext)
    (version validity : Int) (token dmPassword : String) (overrides : List (String × String))
    (kept : List CatalogEntry) (doc : ProvisioningDoc) : Prop :=
  ∀ {address parms}, doc.parmsAt address = some parms →
    parms = ownParms settings context version validity token dmPassword address ++
      (kept.filter (·.segments = address)).map
        fun e => denied query address (placementOf context overrides e).parm

theorem filled_of_grown (hkept : ∀ e ∈ kept, e.Placeable)
    (h : Grown (startDocument version validity token)
      (kept.map (placementOf context overrides)) doc) :
    Filled settings query context version validity token dmPassword overrides kept
      (applyDefaultSmsAppPolicy doc query) := by
  intro address parms hparms
  rw [parmsAt_policy query h.headed, h.parms, Option.map_eq_some_iff] at hparms
  obtain ⟨before, hbefore, rfl⟩ := hparms
  rcases placedAt_kept hkept hbefore with
    ⟨head, types, rfl, hvers, htoken, haccount, rfl⟩ | ⟨hnone, ⟨rfl, rfl⟩ | ⟨-, rfl, rfl⟩⟩
  · have hown : ownParms settings context version validity token dmPassword (head :: types) =
        freshParms (head :: types) := by
      unfold ownParms
      rw [if_neg fun h => hvers (cons.inj h).1, if_neg fun h => htoken (cons.inj h).1,
        if_neg fun h => haccount (cons.inj h).1]
    rw [map_append, denied_freshParms, hown, map_map]
    rfl
  · rw [hnone, map_nil, append_nil, denied_of_ne (by decide), map_id_fun]
    rfl
  · rw [hnone, map_nil, append_nil, denied_of_ne (by decide), map_id_fun]
    rfl

theorem heading_of_grown (hkept : ∀ e ∈ kept, e.Placeable)
    (h : Grown (startDocument version validity token)
      (kept.map (placementOf context overrides)) doc) :
    ∀ c ∈ (applyDefaultSmsAppPolicy doc query).characteristics,
      c.heading ≠ "APPLICATION:" ++ appIdDmAccount := by
  intro c hc heq
  have hholds : (applyDefaultSmsAppPolicy doc query).Holds [c.heading] c :=
    ⟨c, hc, [], rfl, .here c⟩
  have hparms := hholds.parmsAt (distinct_policy query h.headed h.distinct)
  rw [parmsAt_policy query h.headed, h.parms, Option.map_eq_some_iff] at hparms
  obtain ⟨before, hbefore, -⟩ := hparms
  rcases placedAt_kept hkept hbefore with
    ⟨head, types, hhead, -, -, haccount, -⟩ | ⟨-, ⟨hhead, -⟩ | ⟨-, hhead, -⟩⟩
  · exact haccount ((cons.inj hhead).1.symm.trans heq)
  · exact absurd (heq.symm.trans (cons.inj hhead).1) (by decide)
  · exact absurd (heq.symm.trans (cons.inj hhead).1) (by decide)

theorem filled_add (hkept : ∀ e ∈ kept, e.Placeable)
    (hfree : ∀ c ∈ doc.characteristics, c.heading ≠ "APPLICATION:" ++ appIdDmAccount)
    (h : Filled settings query context version validity token dmPassword overrides kept doc) :
    Filled settings query context version validity token dmPassword overrides kept
      (doc.add (dmAccountCharacteristic settings context dmPassword)) := by
  intro address parms hparms
  rw [← heading_dmAccount settings context dmPassword] at hfree
  cases address with
  | nil => cases hparms
  | cons head types =>
    rw [parmsAt_add hfree, heading_dmAccount] at hparms
    split_ifs at hparms with hhead
    · subst hhead
      cases types with
      | cons type types => cases hparms
      | nil =>
        have hnone : kept.filter (·.segments = ["APPLICATION:" ++ appIdDmAccount]) = [] := by
          refine filter_eq_nil_iff.mpr fun e he heq => ?_
          obtain ⟨head, path, hsegments, -, -, -, hne⟩ := usable_head (hkept e he)
          rw [hsegments] at heq
          exact hne (cons.inj (of_decide_eq_true heq)).1
        rw [hnone, map_nil, append_nil]
        exact (Option.some.inj hparms).symm
    · exact h hparms

theorem name_denied (address : List String) (p : Parm) : (denied query address p).name = p.name := by
  unfold denied
  split_ifs <;> rfl

theorem name_freshParms {p : Parm} (hp : p ∈ freshParms address) : p.name = "AppID" := by
  match address, hp with
  | [head], hp =>
    have hp : p ∈ (freshTop head).parms := hp
    unfold freshTop at hp
    cases happ : CatalogEntry.applicationOf head with
    | none =>
      rw [happ] at hp
      cases hp
    | some appId =>
      rw [happ] at hp
      rw [mem_singleton.mp hp]

theorem filter_name {e : CatalogEntry} (hnodup : (kept.map CatalogEntry.key).Nodup)
    (he : e ∈ kept) (hplaceable : e.Placeable) (hparm : e.parm ≠ "AppID") :
    (ownParms settings context version validity token dmPassword e.segments ++
      (kept.filter (·.segments = e.segments)).map
        fun x => denied query e.segments (placementOf context overrides x).parm).filter
          (·.name = e.parm) =
      [denied query e.segments (placementOf context overrides e).parm] := by
  obtain ⟨head, path, hsegments, -, hvers, htoken, haccount⟩ := usable_head hplaceable
  have hown : (ownParms settings context version validity token dmPassword e.segments).filter
      (·.name = e.parm) = [] := by
    have hfresh : ownParms settings context version validity token dmPassword e.segments =
        freshParms e.segments := by
      unfold ownParms
      rw [hsegments, if_neg fun h => hvers (cons.inj h).1, if_neg fun h => htoken (cons.inj h).1,
        if_neg fun h => haccount (cons.inj h).1]
    rw [hfresh]
    exact filter_eq_nil_iff.mpr fun p hp hname =>
      hparm ((of_decide_eq_true hname).symm.trans (name_freshParms hp))
  have hsame : kept.filter (fun x => decide ((denied query e.segments
      (placementOf context overrides x).parm).name = e.parm) && decide (x.segments = e.segments)) =
        [e] := by
    rw [← filter_segments_parm hnodup he]
    refine filter_congr fun x _ => ?_
    rw [name_denied, Bool.and_comm]
    rfl
  rw [filter_append, hown, nil_append, filter_map, filter_filter]
  exact congrArg (map _) hsame

theorem exact_of_filled (hkept : ∀ e ∈ kept, e.Placeable)
    (hnodup : (kept.map CatalogEntry.key).Nodup) (hparms : ∀ e ∈ kept, e.parm ≠ "AppID")
    (hdistinct : doc.Distinct)
    (hoccurs : ∀ address, (∃ parms, doc.parmsAt address = some parms) ↔
      Occurs settings token dmPassword kept address)
    (h : Filled settings query context version validity token dmPassword overrides kept doc)
    (hwanted : wantedEntries catalog profile query.apps overrides = kept) :
    Exact settings query context version validity token overrides dmPassword catalog profile doc where
  distinct := hdistinct
  occurs address := by
    rw [hwanted, ← hoccurs address]
    constructor
    · rintro ⟨c, hc⟩
      exact ⟨c.parms, hc.parmsAt hdistinct⟩
    · rintro ⟨parms, hparmsAt⟩
      obtain ⟨c, hc, -⟩ := holds_of_parmsAt hparmsAt
      exact ⟨c, hc⟩
  placed e he hwants := by
    have hmem : e ∈ kept := hwanted ▸ mem_filter.mpr ⟨he, decide_eq_true hwants⟩
    have hspells : Spells e.path (e.segments ++ []) := spells_iff.mpr (append_nil _).symm
    obtain ⟨parms, hparmsAt⟩ := (hoccurs e.segments).mpr (.entry hmem
      (spells_iff.mpr rfl : Spells e.path e.segments).ne_nil hspells)
    obtain ⟨c, hc, -⟩ := holds_of_parmsAt hparmsAt
    refine ⟨e.segments, c, _, spells_iff.mpr rfl, hc, ?_, entered_placementOf query context overrides e⟩
    rw [h (hc.parmsAt hdistinct)]
    exact filter_name hnodup hmem (hkept e hmem) (hparms e hmem)
  only address c hc := by
    refine ⟨_, _, writesItself_ownParms settings context version validity token dmPassword address,
      ?_, h (hc.parmsAt hdistinct)⟩
    have hspelled : (wantedEntries catalog profile query.apps overrides).filter
        (Spells ·.path address) = kept.filter (·.segments = address) := by
      rw [hwanted]
      exact filter_congr fun e _ => decide_eq_decide.mpr spells_iff
    rw [hspelled, forall₂_map_right_iff, forall₂_same]
    intro e he
    obtain rfl : e.segments = address := of_decide_eq_true (mem_filter.mp he).2
    exact entered_placementOf query context overrides e
  messaging hquery c hc p hp hname := by
    rw [h (hc.parmsAt hdistinct), mem_append] at hp
    rcases hp with hp | hp
    · exact absurd hp (by simp [ownParms, freshParms, appIdDmAccount])
    · obtain ⟨e, -, rfl⟩ := mem_map.mp hp
      rw [name_denied] at hname
      unfold denied
      rw [if_pos ⟨hquery, rfl, hname⟩]

theorem exact_of_grown (hkept : ∀ e ∈ kept, e.Placeable)
    (hnodup : (kept.map CatalogEntry.key).Nodup) (hparms : ∀ e ∈ kept, e.parm ≠ "AppID")
    (h : Grown (startDocument version validity token) (kept.map (placementOf context overrides)) doc)
    (hwanted : wantedEntries catalog profile query.apps overrides = kept) :
    Exact settings query context version validity token overrides dmPassword catalog profile
      (if settings.dmBootstrapInCp && settings.dmEnabled && (dmPassword ≠ "" : Bool) then
          (applyDefaultSmsAppPolicy doc query).add
            (dmAccountCharacteristic settings context dmPassword)
        else applyDefaultSmsAppPolicy doc query) := by
  have hdistinct := distinct_policy query h.headed h.distinct
  have hfilled : Filled settings query context version validity token dmPassword overrides kept
      (applyDefaultSmsAppPolicy doc query) := filled_of_grown hkept h
  have hoccurs : ∀ address, (∃ parms, (applyDefaultSmsAppPolicy doc query).parmsAt address =
      some parms) ↔ Occurs settings token "" kept address := by
    intro address
    rw [← @occurs_placedAt settings context version validity token overrides, ← h.parms,
      parmsAt_policy query h.headed]
    cases doc.parmsAt address with
    | none => simp
    | some parms => simp
  have hfree : ∀ c ∈ (applyDefaultSmsAppPolicy doc query).characteristics,
      c.heading ≠ "APPLICATION:" ++ appIdDmAccount := heading_of_grown hkept h
  split_ifs with haccount
  · have hne := heading_dmAccount settings context dmPassword ▸ hfree
    exact exact_of_filled hkept hnodup hparms
      (distinct_add hne hdistinct (Characteristic.distinct_leaf _ _))
      (occurs_add hfree haccount hoccurs) (filled_add hkept hfree hfilled) hwanted
  · refine exact_of_filled hkept hnodup hparms hdistinct (fun address => ?_) hfilled hwanted
    exact (hoccurs address).trans (occurs_iff.trans (or_iff_left fun h => haccount h.1)).symm

end Document

def filledDocument (catalog : Catalog) (profile : String) (query : ConfigQuery)
    (context : BuildContext) (version validity : Int) (token : String)
    (overrides : List (String × String)) : ProvisioningDoc :=
  ((wantedEntries catalog profile query.apps overrides).map (placementOf context overrides)).foldl
    place (startDocument version validity token)

section Build
variable {digits : Formatter.Digits} {runtime : Runtime} {env : BuildEnv} {catalog : Catalog}
  {settings : Settings} {query : ConfigQuery} {profile : String} {imsi msisdn : String}

theorem buildDocument_error
    (hcatalog : env.getCatalog (resolvedProfile settings query profile) = .ok catalog)
    {e : PyError} (hcontext : BuildContext.create env imsi msisdn query.deviceKey
      (resolvedProfile settings query profile) settings.dmAccountUri = .error e)
    (version validity : Int) (token : String) (overrides : List (String × String))
    (dmPassword : String) :
    buildDocument env settings query imsi msisdn version validity profile token overrides
      dmPassword = .error e := by
  unfold buildDocument
  change (env.getCatalog (resolvedProfile settings query profile) >>= _) = _
  rw [hcatalog]
  change (BuildContext.create env imsi msisdn query.deviceKey
    (resolvedProfile settings query profile) settings.dmAccountUri >>= _) = _
  rw [hcontext]
  rfl

theorem buildDocument_ok
    (hcatalog : env.getCatalog (resolvedProfile settings query profile) = .ok catalog)
    (hformat : env.vformat = SafeFormatter.vformat digits runtime) {context : BuildContext}
    (hcontext : BuildContext.create env imsi msisdn query.deviceKey
      (resolvedProfile settings query profile) settings.dmAccountUri = .ok context)
    {overrides : List (String × String)}
    (h : ∀ e ∈ selectedEntries catalog (resolvedProfile settings query profile) query.apps,
      Placeholders digits (rawOf overrides e))
    (version validity : Int) (token : String) (dmPassword : String) :
    buildDocument env settings query imsi msisdn version validity profile token overrides
      dmPassword = .ok (
        if settings.dmBootstrapInCp && settings.dmEnabled && (dmPassword ≠ "" : Bool) then
          (applyDefaultSmsAppPolicy (filledDocument catalog (resolvedProfile settings query profile)
            query context version validity token overrides) query).add
              (dmAccountCharacteristic settings context dmPassword)
        else applyDefaultSmsAppPolicy (filledDocument catalog
          (resolvedProfile settings query profile) query context version validity token overrides)
            query) := by
  unfold buildDocument
  change (env.getCatalog (resolvedProfile settings query profile) >>= _) = _
  rw [hcatalog]
  change (BuildContext.create env imsi msisdn query.deviceKey
    (resolvedProfile settings query profile) settings.dmAccountUri >>= _) = _
  rw [hcontext]
  change ((selectedEntries catalog (resolvedProfile settings query profile) query.apps).foldlM
    (addEntry env context overrides) (startDocument version validity token) >>= _) = _
  rw [foldlM_addEntry hformat h, filter_isKept]
  show (if _ then _ else _) = _
  split_ifs <;> rfl

end Build

/-- The configuration document is exactly what the catalogue says. -/
theorem buildDocument_exact {text : LoadText} {files : CatalogFiles} {root : Location}
    {digits : Formatter.Digits} {runtime : Runtime} {env : BuildEnv} {catalog : Catalog}
    {settings : Settings} {query : ConfigQuery} {profile : String}
    (hload : (loadCatalog text files root (resolvedProfile settings query profile)).2 =
      .ok catalog.entries)
    (hparms : ∀ e ∈ catalog.entries, e.parm ≠ "AppID")
    (hcatalog : env.getCatalog (resolvedProfile settings query profile) = .ok catalog)
    (hformat : env.vformat = SafeFormatter.vformat digits runtime)
    (imsi msisdn : String) (version validity : Int) (token : String)
    (overrides : List (String × String)) (dmPassword : String) :
    match BuildContext.create env imsi msisdn query.deviceKey
        (resolvedProfile settings query profile) settings.dmAccountUri with
    | .error e => buildDocument env settings query imsi msisdn version validity profile token
        overrides dmPassword = .error e
    | .ok context =>
      (∀ e ∈ catalog.entries,
        Selected (resolvedProfile settings query profile) query.apps e →
          KnownOnly context.values (rawOf overrides e).toList) →
      ∃ doc, buildDocument env settings query imsi msisdn version validity profile token overrides
          dmPassword = .ok doc ∧
        Exact settings query context version validity token overrides dmPassword catalog
          (resolvedProfile settings query profile) doc := by
  cases hcontext : BuildContext.create env imsi msisdn query.deviceKey
      (resolvedProfile settings query profile) settings.dmAccountUri with
  | error e => exact buildDocument_error hcatalog hcontext version validity token overrides dmPassword
  | ok context =>
    intro hknown
    have hsublist : wantedEntries catalog (resolvedProfile settings query profile) query.apps
        overrides <+ catalog.entries := filter_sublist
    have hfits : ∀ p ∈ (wantedEntries catalog (resolvedProfile settings query profile) query.apps
        overrides).map (placementOf context overrides), p.Fits := by
      intro p hp
      obtain ⟨e, he, rfl⟩ := mem_map.mp hp
      have hmem := hsublist.subset he
      exact fits_placementOf (catalog.apps e hmem) (hparms e hmem) _ _
    have hstart : Grown (startDocument version validity token) []
        (startDocument version validity token) :=
      grown_start headed_startDocument distinct_startDocument
    have hplaceholders : ∀ e ∈ selectedEntries catalog (resolvedProfile settings query profile)
        query.apps, Placeholders digits (rawOf overrides e) := by
      intro e he
      obtain ⟨hmem, hselected⟩ := mem_selectedEntries.mp he
      exact placeholders_of_knownOnly (keys_of_create hcontext) (hknown e hmem hselected)
    exact ⟨_, buildDocument_ok hcatalog hformat hcontext hplaceholders version validity token
        dmPassword,
      exact_of_grown (fun e he => catalog.apps e (hsublist.subset he))
        ((loadCatalog_nodup hload).sublist (hsublist.map _))
        (fun e he => hparms e (hsublist.subset he)) (hstart.foldl hfits) rfl⟩

def fourEntries : CatalogFiles where
  entries :=
    [(["omacp"], .directory), (["omacp", "base.yaml"], .file (some (.mapping "" [(.str "entries",
      .list "" [
        .mapping "" [(.str "path", .str "APPLICATION:ap2002/SERVICES"), (.str "parm", .str "ChatAuth"),
          (.str "type", .str "bool01"), (.str "default", .str "1")],
        .mapping "" [(.str "path", .str "APPLICATION:ap2002/EXT"), (.str "parm", .str "Identity"),
          (.str "default", .str "\x7bimpi\x7d")],
        .mapping "" [(.str "path", .str "APPLICATION:ap2001"), (.str "parm", .str "Template"),
          (.str "default", .str "\x7b")],
        .mapping "" [(.str "path", .str "APPLICATION:ap2002"), (.str "parm", .str "Template"),
          (.str "default", .str "\x7b"), (.str "profiles", .list "" [.str "UP_1.0"])]])])))]
  nameMax := 255

def fourEntriesCatalog : Catalog where
  entries :=
    [{ path := "APPLICATION:ap2002/SERVICES", parm := "ChatAuth", type := .bool01, default := "1" },
     { path := "APPLICATION:ap2002/EXT", parm := "Identity", default := "\x7bimpi\x7d" },
     { path := "APPLICATION:ap2001", parm := "Template", default := "\x7b" },
     { path := "APPLICATION:ap2002", parm := "Template", default := "\x7b",
       profiles := ["UP_1.0"] }]
  apps := by
    simp only [forall_mem_cons]
    refine ⟨?_, ?_, ?_, ?_, fun _ h => nomatch h⟩ <;> exact ⟨by decide +kernel, by decide +kernel⟩

def fourEntriesEnv : BuildEnv where
  py := asciiText
  vformat := SafeFormatter.vformat Formatter.asciiDigits bareRuntime
  getCatalog _ := .ok fourEntriesCatalog

def rcsQuery : ConfigQuery := { defaultSmsApp := some 0, apps := ["ap2002"] }

theorem buildDocument_exact_fourEntries :
    ∃ context doc, BuildContext.create fourEntriesEnv "001010000000001" "" "unknown" "UP_2.4"
        ({} : Settings).dmAccountUri = .ok context ∧
      buildDocument fourEntriesEnv {} rcsQuery "001010000000001" "" 1 3600 "UP_2.4" ""
        [("APPLICATION:ap2002/SERVICES/ChatAuth", "true")] "secret" = .ok doc ∧
      Exact {} rcsQuery context 1 3600 "" [("APPLICATION:ap2002/SERVICES/ChatAuth", "true")] "secret"
        fourEntriesCatalog "UP_2.4" doc := by
  have h := @buildDocument_exact { asciiText with repr := id } fourEntries ["omacp"] _ _
    fourEntriesEnv fourEntriesCatalog {} rcsQuery "UP_2.4" rfl (by decide +kernel) rfl rfl
    "001010000000001" "" 1 3600 "" [("APPLICATION:ap2002/SERVICES/ChatAuth", "true")] "secret"
  obtain ⟨context, hcontext⟩ : ∃ context, BuildContext.create fourEntriesEnv "001010000000001" ""
      "unknown" "UP_2.4" ({} : Settings).dmAccountUri = .ok context := ⟨_, rfl⟩
  have hresolved : resolvedProfile {} rcsQuery "UP_2.4" = "UP_2.4" := by decide
  have hdevice : rcsQuery.deviceKey = "unknown" := rfl
  have himpi : (context.values.lookup "impi").isSome := by
    cases hcontext
    rfl
  rw [hresolved, hdevice, hcontext] at h
  obtain ⟨doc, hbuild, hexact⟩ := h fun e he hselected => by
    simp only [fourEntriesCatalog, mem_cons, not_mem_nil, or_false] at he
    rcases he with rfl | rfl | rfl | rfl
    · exact .char (by decide) (.char (by decide) (.char (by decide) (.char (by decide) .nil)))
    · exact KnownOnly.field himpi .nil
    · exact absurd (hselected.app (by decide) "ap2001" [] ⟨by decide, by decide, rfl⟩) (by decide)
    · exact absurd hselected.profile (by decide)
  exact ⟨context, doc, hcontext, hbuild, hexact⟩

end Acs
