import Acs.Data.FileSystem
import Acs.Data.SplitOn
import Acs.Data.Yaml
import Acs.Protocol.Builder
import Acs.Protocol.DocumentTree

/-! Loading the provisioning catalogue, and which files are opened for it. -/

namespace Acs
open Location

variable (text : LoadText)

def ParmType.parse : String → Option ParmType
  | "chr" => some .chr
  | "int" => some .int
  | "bool01" => some .bool01
  | "enum" => some .enum
  | _ => none

/-- `_PATH_RE`, whose `$` also stands before a newline at the end. -/
def isCatalogPath (path : String) : Bool :=
  let cs := path.toList
  ((if cs.getLast? = some '\n' then cs.dropLast else cs).splitOn '/').all fun segment =>
    segment ≠ [] && segment.all fun c => c.isAlphanum || ['_', ':', '-', '.'].contains c

def hasPlaceholder : List Char → Bool
  | [] => false
  | c :: cs =>
    let name := cs.takeWhile fun c => ('a' ≤ c && c ≤ 'z') || c = '_'
    (c = '{' && name ≠ [] && (cs.drop name.length).head? = some '}') || hasPlaceholder cs

def textsOf (key : String) (raw : Yaml) : Except LoadError (List String) :=
  match raw.getTruthy key with
  | some values => values.iterate.map (List.map Yaml.text)
  | none => .ok []

def coerceEntry (source : String) (raw : Yaml) : Except LoadError CatalogEntry := do
  let missing := fun key => LoadError.catalogError
    (source ++ ": entry missing required key '" ++ key ++ "'")
  let path := text.strip (← raw.subscript (missing "path") "path").text
  let parm := text.strip (← raw.subscript (missing "parm") "parm").text
  if !isCatalogPath path then
    .error (.catalogError (source ++ ": invalid characteristic path " ++ text.repr path))
  else if parm = "" then
    .error (.catalogError (source ++ ": empty parm name at " ++ path))
  else
    let parmType := raw.getText "type" "chr"
    match ParmType.parse parmType with
    | none => .error (.catalogError
        (source ++ ": unknown type " ++ text.repr parmType ++ " for " ++ path ++ "/" ++ parm))
    | some type =>
      let default := match raw.get "default" with
        | none | some .null => ""
        | some value => value.text
      let values ← textsOf "values" raw
      if type = .enum ∧ values = [] then
        .error (.catalogError (source ++ ": enum " ++ path ++ "/" ++ parm ++ " declares no values"))
      else if type = .bool01 ∧ default ≠ "" ∧ default ∉ ["0", "1"] then
        .error (.catalogError
          (source ++ ": bool01 " ++ path ++ "/" ++ parm ++ " default must be 0 or 1"))
      else if type = .int ∧ default ≠ "" ∧ hasPlaceholder default.toList = false ∧
          text.parseInt default = none then
        .error (.catalogError
          (source ++ ": int " ++ path ++ "/" ++ parm ++ " default is not an integer"))
      else
        let profiles ← textsOf "profiles" raw
        return {
          path, parm, type, default, profiles
          required := ((raw.get "required").map Yaml.truthy).getD false }

/-- The entries of `base.yaml`; no two have one key. -/
def coerceEntries (source : String) : List Yaml → List String →
    Except LoadError (List CatalogEntry)
  | [], _ => .ok []
  | raw :: raws, seen => do
    let entry ← coerceEntry text source raw
    if entry.key ∈ seen then
      .error (.catalogError (source ++ ": duplicate entry " ++ entry.key))
    else
      let entries ← coerceEntries source raws (entry.key :: seen)
      return entry :: entries

def checkMeta (base : Yaml) : Except LoadError Unit :=
  match base.getTruthy "meta" with
  | some info => info.checkDict
  | none => .ok ()

def baseEntries (base : Yaml) : Except LoadError (List CatalogEntry) := do
  checkMeta base
  match base.getTruthy "entries" with
  | some (.list _ raws) => coerceEntries text "base.yaml" raws []
  | _ => .error (.catalogError "base.yaml declares no entries")

/-- An entry of an overlay takes the place of the one with its key, or the last place. -/
def mergeEntry (entry : CatalogEntry) (entries : List CatalogEntry) : List CatalogEntry :=
  editFirst (·.key = entry.key) (fun _ => entry) entry entries

def overlayEntry (source : String) (entries : List CatalogEntry) (raw : Yaml) :
    Except LoadError (List CatalogEntry) := do
  let field := fun name => do return ((← raw.getOf name).map Yaml.text).getD "None"
  let key := (← field "path") ++ "/" ++ (← field "parm")
  if (raw.getTruthy "remove").isSome then return entries.filter (·.key ≠ key)
  else return mergeEntry (← coerceEntry text source raw) entries

def overlayEntries (source : String) (entries : List CatalogEntry) (overlay : Yaml) :
    Except LoadError (List CatalogEntry) := do
  match overlay.getTruthy "entries" with
  | none => return entries
  | some raws => (← raws.iterate).foldlM (overlayEntry text source) entries

/-! ### Files -/

abbrev CatalogFiles := FileSystem (Option Yaml)

/-- Loading, with the files opened on the way. -/
abbrev Load (α : Type) := List Location × Except LoadError α

variable (files : CatalogFiles)

def fileAt (path : List String) : Except LoadError (Option (Location × Option Yaml)) :=
  (files.fileAt path).mapError fun _ => .unreadable

def readYaml (name : String) (content : Option Yaml) : Except LoadError Yaml :=
  match content with
  | none => .error .unreadable
  | some data =>
    if data.isMapping then .ok data
    else .error (.catalogError (name ++ ": top level must be a mapping"))

def pathText (path : List String) : String := "/" ++ "/".intercalate path

def basePath (root : Location) : List String := join root "base.yaml"

def overlayPath (root : Location) (profile : String) : List String :=
  join (join root "profiles") (profile ++ ".yaml")

def loadBase (root : Location) : Load (List CatalogEntry) :=
  match fileAt files (basePath root) with
  | .error e => ([], .error e)
  | .ok none =>
    ([], .error (.catalogError ("catalogue file not found: " ++ pathText (basePath root))))
  | .ok (some (place, content)) =>
    ([place], readYaml "base.yaml" content >>= baseEntries text)

def loadCatalog (root : Location) (profile : String) : Load (List CatalogEntry) :=
  match loadBase text files root with
  | (opened, .error e) => (opened, .error e)
  | (opened, .ok entries) =>
    if profile = "" then (opened, .ok entries)
    else
      match fileAt files (overlayPath root profile) with
      | .error e => (opened, .error e)
      | .ok none => (opened, .ok entries)
      | .ok (some (place, content)) =>
        let name := (overlayPath root profile).getLastD ""
        (opened ++ [place], readYaml name content >>= overlayEntries text name entries)

def availableProfiles (root : Location) : List String :=
  let profiles := join root "profiles"
  if files.isDir profiles then
    (((files.children profiles).filter fun name => ".yaml".toList.isSuffixOf name.toList).map
      stem).insertionSort (· ≤ ·)
  else []

section Loaded
variable {text : LoadText} {files : CatalogFiles} {root : Location} {source profile : String}
  {raw : Yaml} {raws : List Yaml} {seen : List String} {entries entries' : List CatalogEntry}

theorem coerceEntries_nodup (h : coerceEntries text source raws seen = .ok entries) :
    (entries.map CatalogEntry.key).Nodup ∧ ∀ e ∈ entries, e.key ∉ seen := by
  induction raws generalizing seen entries with
  | nil =>
    obtain rfl : [] = entries := Except.ok.inj h
    simp
  | cons raw raws ih =>
    obtain ⟨entry, -, h⟩ := Except.bind_eq_ok.mp h
    split_ifs at h with hseen
    obtain ⟨rest, hrest, h⟩ := Except.bind_eq_ok.mp h
    rw [Except.pure_eq_ok] at h
    subst h
    obtain ⟨hnodup, hfresh⟩ := ih hrest
    have hnot : entry.key ∉ rest.map CatalogEntry.key := by
      intro hmem
      obtain ⟨e, he, heq⟩ := List.mem_map.mp hmem
      exact hfresh e he (heq ▸ List.mem_cons_self)
    refine ⟨List.nodup_cons.mpr ⟨hnot, hnodup⟩, List.forall_mem_cons.mpr ⟨hseen, fun e he => ?_⟩⟩
    exact fun hmem => hfresh e he (List.mem_cons_of_mem _ hmem)

theorem overlayEntry_nodup (h : overlayEntry text source entries raw = .ok entries')
    (hnodup : (entries.map CatalogEntry.key).Nodup) : (entries'.map CatalogEntry.key).Nodup := by
  unfold overlayEntry at h
  obtain ⟨path, -, h⟩ := Except.bind_eq_ok.mp h
  obtain ⟨parm, -, h⟩ := Except.bind_eq_ok.mp h
  split_ifs at h
  · rw [Except.pure_eq_ok] at h
    subst h
    exact hnodup.sublist (List.filter_sublist.map _)
  · obtain ⟨entry, -, h⟩ := Except.bind_eq_ok.mp h
    rw [Except.pure_eq_ok] at h
    subst h
    refine nodup_map_editFirst hnodup (fun e he => (of_decide_eq_true he).symm) fun e _ he => ?_
    exact decide_eq_true he

theorem foldlM_overlayEntry_nodup {items : List Yaml}
    (h : items.foldlM (overlayEntry text source) entries = .ok entries')
    (hnodup : (entries.map CatalogEntry.key).Nodup) : (entries'.map CatalogEntry.key).Nodup := by
  induction items generalizing entries with
  | nil =>
    rw [List.foldlM_nil, Except.pure_eq_ok] at h
    exact h ▸ hnodup
  | cons item items ih =>
    rw [List.foldlM_cons, Except.bind_eq_ok] at h
    obtain ⟨next, hnext, h⟩ := h
    exact ih h (overlayEntry_nodup hnext hnodup)

theorem overlayEntries_nodup {overlay : Yaml}
    (h : overlayEntries text source entries overlay = .ok entries')
    (hnodup : (entries.map CatalogEntry.key).Nodup) : (entries'.map CatalogEntry.key).Nodup := by
  unfold overlayEntries at h
  split at h
  · rw [Except.pure_eq_ok] at h
    exact h ▸ hnodup
  · obtain ⟨items, -, h⟩ := Except.bind_eq_ok.mp h
    exact foldlM_overlayEntry_nodup h hnodup

theorem loadBase_nodup (h : (loadBase text files root).2 = .ok entries) :
    (entries.map CatalogEntry.key).Nodup := by
  unfold loadBase at h
  split at h
  · cases h
  · cases h
  · obtain ⟨data, -, h⟩ := Except.bind_eq_ok.mp h
    obtain ⟨-, -, h⟩ := Except.bind_eq_ok.mp h
    split at h
    · exact (coerceEntries_nodup h).1
    · cases h

theorem loadCatalog_nodup (h : (loadCatalog text files root profile).2 = .ok entries) :
    (entries.map CatalogEntry.key).Nodup := by
  have hbase : ∀ base, (loadBase text files root).2 = .ok base →
      (base.map CatalogEntry.key).Nodup := fun _ h => loadBase_nodup h
  unfold loadCatalog at h
  generalize loadBase text files root = loaded at h hbase
  obtain ⟨opened, base⟩ := loaded
  cases base with
  | error e => cases h
  | ok base =>
    have hnodup := hbase base rfl
    dsimp only at h
    split_ifs at h
    · exact Except.ok.inj h ▸ hnodup
    · split at h
      · cases h
      · exact Except.ok.inj h ▸ hnodup
      · obtain ⟨overlay, -, h⟩ := Except.bind_eq_ok.mp h
        exact overlayEntries_nodup h hnodup

end Loaded

/-! ### The files that a profile leads to -/

section Confined
variable {text : LoadText} {files : CatalogFiles} {root : Location} {profile : String}

/-- The file lies in the profiles directory itself, under a name that `available_profiles`
lists. -/
def IsOverlay (files : CatalogFiles) (root place : Location) : Prop :=
  ∃ name, place = join root "profiles" ++ [name] ∧ stem name ∈ availableProfiles files root

/-- The catalogue of the profile is the base alone or the base with an overlay of the profiles
directory, and no other file is opened after the base. -/
structure Confined (text : LoadText) (files : CatalogFiles) (root : Location) (profile : String) :
    Prop where
  opened : ∃ rest, (loadCatalog text files root profile).1 = (loadBase text files root).1 ++ rest ∧
    ∀ place ∈ rest, IsOverlay files root place
  merged : ∀ entries, (loadCatalog text files root profile).2 = .ok entries →
    (loadBase text files root).2 = .ok entries ∨
    ∃ place content base overlay, IsOverlay files root place ∧
      files.find place = some (.file content) ∧ (loadBase text files root).2 = .ok base ∧
      readYaml (place.getLastD "") content = .ok overlay ∧
      overlayEntries text (place.getLastD "") base overlay = .ok entries

/-- There is nothing to merge, or the path of the overlay ends directly below the profiles
directory once its dots are resolved. -/
def Leads (text : LoadText) (files : CatalogFiles) (root : Location) (profile : String) : Prop :=
  (∃ e, (loadBase text files root).2 = .error e) ∨ profile = "" ∨
    (∀ file, fileAt files (overlayPath root profile) ≠ .ok (some file)) ∨
    ∃ name, normal [] (overlayPath root profile) = join root "profiles" ++ [name]

theorem parts_append (path : String) {extension : String} (hslash : '/' ∉ extension.toList)
    (hlong : 1 < extension.toList.length) :
    ∃ init name, parts (path ++ extension) = init ++ [name] ∧
      extension.toList <:+ name.toList := by
  obtain ⟨init, last, hsplit⟩ := List.splitOn_append_of_not_mem path.toList hslash
  have hname : extension.toList <:+ (String.ofList (last ++ extension.toList)).toList := by
    rw [String.toList_ofList]
    exact List.suffix_append _ _
  have hkept : isPart (String.ofList (last ++ extension.toList)) = true := by
    have hle := hname.length_le
    rw [isPart, Bool.and_eq_true, decide_eq_true_eq, decide_eq_true_eq]
    constructor <;> intro hs <;> rw [hs] at hle <;> exact absurd (hlong.trans_le hle) (by decide)
  refine ⟨(init.map String.ofList).filter isPart, _, ?_, hname⟩
  unfold parts
  rw [String.toList_append, hsplit, List.map_append, List.filter_append, List.map_singleton,
    List.filter_cons_of_pos hkept, List.filter_nil]

theorem overlayPath_concat (root : Location) (profile : String) :
    ∃ path name, overlayPath root profile = path ++ [name] ∧ ".yaml".toList <:+ name.toList := by
  obtain ⟨init, name, hparts, hname⟩ := parts_append profile
    (show '/' ∉ ".yaml".toList by decide) (by decide)
  unfold overlayPath
  rw [join, hparts]
  split_ifs
  · exact ⟨init, name, rfl, hname⟩
  · exact ⟨join root "profiles" ++ init, name, (List.append_assoc ..).symm, hname⟩

theorem fileAt_eq_ok {path : List String} {found : Option (Location × Option Yaml)} :
    Acs.fileAt files path = .ok found ↔ files.fileAt path = .ok found := by
  unfold Acs.fileAt
  cases files.fileAt path with
  | error e => exact ⟨fun h => (nomatch h), fun h => nomatch h⟩
  | ok found' => exact ⟨fun h => congrArg _ (Except.ok.inj h), fun h => congrArg _ (Except.ok.inj h)⟩

theorem isOverlay_of_fileAt {place : Location} {content : Option Yaml} {name : String}
    (h : files.fileAt (overlayPath root profile) = .ok (some (place, content)))
    (hplace : place = join root "profiles" ++ [name]) : IsOverlay files root place := by
  obtain ⟨hwalk, hfind⟩ := FileSystem.fileAt_ok h
  obtain ⟨path, last, hpath, hlast⟩ := overlayPath_concat root profile
  have hdots : last ≠ ".." := by
    rintro rfl
    exact absurd hlast (by decide)
  rw [hpath] at hwalk
  obtain ⟨parent, hdir, hparent⟩ := FileSystem.walk_concat hwalk hdots
  have hconcat : join root "profiles" ++ [name] = parent ++ [last] := hplace.symm.trans hparent
  obtain ⟨hjoin, hname⟩ := List.append_inj' hconcat rfl
  cases hname
  refine ⟨name, hplace, ?_⟩
  unfold availableProfiles
  rw [hjoin, if_pos hdir, List.mem_insertionSort]
  refine List.mem_map_of_mem (List.mem_filter.mpr ⟨FileSystem.mem_children ?_, ?_⟩)
  · rw [← hparent, hfind]
    exact Option.some_ne_none _
  · exact List.isSuffixOf_iff_suffix.mpr hlast

theorem getLastD_of_fileAt {place : Location} {content : Option Yaml}
    (h : files.fileAt (overlayPath root profile) = .ok (some (place, content))) :
    (overlayPath root profile).getLastD "" = place.getLastD "" := by
  obtain ⟨hwalk, -⟩ := FileSystem.fileAt_ok h
  obtain ⟨path, last, hpath, hlast⟩ := overlayPath_concat root profile
  have hdots : last ≠ ".." := by
    rintro rfl
    exact absurd hlast (by decide)
  rw [hpath] at hwalk ⊢
  obtain ⟨parent, -, hparent⟩ := FileSystem.walk_concat hwalk hdots
  rw [hparent, List.getLastD_concat, List.getLastD_concat]

theorem loadCatalog_of_base {base : List CatalogEntry}
    (hbase : (loadBase text files root).2 = .ok base) (hprofile : profile ≠ "") :
    loadCatalog text files root profile =
      match fileAt files (overlayPath root profile) with
      | .error e => ((loadBase text files root).1, .error e)
      | .ok none => ((loadBase text files root).1, .ok base)
      | .ok (some (place, content)) =>
        let name := (overlayPath root profile).getLastD ""
        ((loadBase text files root).1 ++ [place],
          readYaml name content >>= overlayEntries text name base) := by
  unfold loadCatalog
  generalize loadBase text files root = loaded at hbase
  obtain ⟨opened, entries⟩ := loaded
  subst hbase
  dsimp only
  rw [if_neg hprofile]

theorem loadCatalog_eq_base (h : (∃ e, (loadBase text files root).2 = .error e) ∨ profile = "" ∨
    fileAt files (overlayPath root profile) = .ok none) :
    loadCatalog text files root profile = loadBase text files root := by
  unfold loadCatalog
  generalize loadBase text files root = loaded at h
  obtain ⟨opened, entries⟩ := loaded
  cases entries with
  | error e => rfl
  | ok entries =>
    rcases h with ⟨e, he⟩ | hprofile | hfile
    · cases he
    · exact if_pos hprofile
    · dsimp only
      split_ifs
      · rfl
      · rw [hfile]

theorem confined_of_eq_base (h : loadCatalog text files root profile = loadBase text files root) :
    Confined text files root profile where
  opened := ⟨[], by rw [h, List.append_nil], fun _ h => nomatch h⟩
  merged entries hentries := .inl (h ▸ hentries)

def resolvedProfile (settings : Settings) (query : ConfigQuery) (profile : String) : String :=
  if profile ≠ "" then profile else orElseText query.rcsProfile settings.defaultRcsProfile

/-- The catalogue of a document stays in the profiles directory exactly when its profile leads
nowhere else. -/
theorem confined_iff (text : LoadText) (files : CatalogFiles) (root : Location)
    (settings : Settings) (query : ConfigQuery) (profile : String) :
    Confined text files root (resolvedProfile settings query profile) ↔
      Leads text files root (resolvedProfile settings query profile) := by
  generalize resolvedProfile settings query profile = profile
  constructor
  · intro h
    cases hbase : (loadBase text files root).2 with
    | error e => exact .inl ⟨e, hbase⟩
    | ok base =>
      by_cases hprofile : profile = ""
      · exact .inr (.inl hprofile)
      -- what was opened behind the base is the file at the end of the path
      · by_cases hfile : ∃ file, fileAt files (overlayPath root profile) = .ok (some file)
        · obtain ⟨⟨place, content⟩, hfile⟩ := hfile
          obtain ⟨rest, hopened, hrest⟩ := h.opened
          rw [loadCatalog_of_base hbase hprofile, hfile] at hopened
          obtain rfl : [place] = rest := List.append_cancel_left hopened
          obtain ⟨name, hplace, -⟩ := hrest place List.mem_cons_self
          obtain ⟨hwalk, -⟩ := FileSystem.fileAt_ok (fileAt_eq_ok.mp hfile)
          exact .inr (.inr (.inr ⟨name, (FileSystem.walk_ok hwalk).symm.trans hplace⟩))
        · exact .inr (.inr (.inl fun file hfound => hfile ⟨file, hfound⟩))
  · intro h
    cases hbase : (loadBase text files root).2 with
    | error e => exact confined_of_eq_base (loadCatalog_eq_base (.inl ⟨e, hbase⟩))
    | ok base =>
      by_cases hprofile : profile = ""
      · exact confined_of_eq_base (loadCatalog_eq_base (.inr (.inl hprofile)))
      · have hload := loadCatalog_of_base hbase hprofile
        cases hfile : fileAt files (overlayPath root profile) with
        | error e =>
          rw [hfile] at hload
          exact ⟨⟨[], by rw [hload, List.append_nil], fun _ h => nomatch h⟩,
            fun entries hentries => by rw [hload] at hentries; cases hentries⟩
        | ok found =>
          cases found with
          | none =>
            exact confined_of_eq_base (loadCatalog_eq_base (.inr (.inr hfile)))
          | some file =>
            obtain ⟨place, content⟩ := file
            have hfound := fileAt_eq_ok.mp hfile
            obtain ⟨hwalk, hfind⟩ := FileSystem.fileAt_ok hfound
            rw [hfile] at hload
            -- the file is an overlay because the path leads to one
            have hoverlay : IsOverlay files root place := by
              rcases h with ⟨e, he⟩ | hempty | hnone | ⟨name, hname⟩
              · rw [hbase] at he
                cases he
              · exact absurd hempty hprofile
              · exact absurd hfile (hnone _)
              · exact isOverlay_of_fileAt hfound ((FileSystem.walk_ok hwalk).trans hname)
            refine ⟨⟨[place], by rw [hload], ?_⟩, fun entries hentries => .inr ?_⟩
            · exact fun p hp => List.mem_singleton.mp hp ▸ hoverlay
            · rw [hload] at hentries
              dsimp only at hentries
              rw [getLastD_of_fileAt hfound] at hentries
              obtain ⟨overlay, hoverlayYaml, hentries⟩ := Except.bind_eq_ok.mp hentries
              exact ⟨place, content, base, overlay, hoverlay, hfind, hbase, hoverlayYaml, hentries⟩

def shippedFiles : CatalogFiles where
  entries :=
    [(["acs"], .directory), (["acs", "catalog"], .directory),
     (["acs", "catalog", "omacp"], .directory),
     (["acs", "catalog", "omacp", "base.yaml"], .file (some (.mapping "" [(.str "entries",
       .list "" [.mapping "" [(.str "path", .str "MSG"), (.str "parm", .str "title")]])]))),
     (["acs", "catalog", "omacp", "profiles"], .directory),
     (["acs", "catalog", "omadm"], .directory),
     (["acs", "catalog", "omadm", "01-devinfo.yaml"], .file (some (.mapping "" [])))]
  nameMax := 255

/-- A client that asks for a profile with dots has a file of the DM side opened. -/
theorem confined_dots :
    (loadCatalog { asciiText with repr := id } shippedFiles ["acs", "catalog", "omacp"]
      (resolvedProfile {} { rcsProfile := some "../../omadm/01-devinfo" } "")).1 =
      [["acs", "catalog", "omacp", "base.yaml"], ["acs", "catalog", "omadm", "01-devinfo.yaml"]] ∧
    ¬ Confined { asciiText with repr := id } shippedFiles ["acs", "catalog", "omacp"]
      (resolvedProfile {} { rcsProfile := some "../../omadm/01-devinfo" } "") := by
  have hopened : (loadCatalog { asciiText with repr := id } shippedFiles
      ["acs", "catalog", "omacp"]
      (resolvedProfile {} { rcsProfile := some "../../omadm/01-devinfo" } "")).1 =
      [["acs", "catalog", "omacp", "base.yaml"], ["acs", "catalog", "omadm", "01-devinfo.yaml"]] := by
    decide +kernel
  refine ⟨hopened, fun h => ?_⟩
  obtain ⟨rest, hrest, hall⟩ := h.opened
  have hbase : (loadBase { asciiText with repr := id } shippedFiles
      ["acs", "catalog", "omacp"]).1 = [["acs", "catalog", "omacp", "base.yaml"]] := by
    decide +kernel
  rw [hopened, hbase] at hrest
  obtain rfl : [["acs", "catalog", "omadm", "01-devinfo.yaml"]] = rest := (List.cons.inj hrest).2
  obtain ⟨name, hplace, -⟩ := hall _ List.mem_cons_self
  have hjoin : join ["acs", "catalog", "omacp"] "profiles" =
      ["acs", "catalog", "omacp", "profiles"] := by decide +kernel
  rw [hjoin] at hplace
  exact absurd hplace (by simp)

end Confined
end Acs
