import Mathlib
import Acs.Data.Yaml
import Acs.Omadm.MoTree

/-! Loading the management objects, and when the tree that they make is well formed. -/

namespace Acs.Omadm
variable (text : LoadText)

def validFormats : List String := ["chr", "int", "bool", "b64", "node", "xml"]

def defaultType (format : String) : String := if format = "node" then "node" else "text/plain"

/-- `_URI_RE`, whose `$` also stands before a newline at the end. -/
def isUri (uri : String) : Bool :=
  match uri.toList with
  | '.' :: '/' :: rest =>
    (if rest.getLast? = some '\n' then rest.dropLast else rest).all fun c =>
      c.isAlphanum || ['_', '-', '.', '/'].contains c
  | _ => false

def coerceNode (raw : Yaml) (sourceFile root : String) : Except LoadError MoNode := do
  let declared ← raw.subscript (.catalogError (sourceFile ++ ": node missing 'uri'")) "uri"
  let uri := text.strip declared.text
  if !isUri uri then
    .error (.catalogError (sourceFile ++ ": invalid node URI " ++ text.repr uri))
  else if ¬ (uri = root ∨ (dropTrailingSlashes root).toList ++ ['/'] <+: uri.toList) then
    .error (.catalogError (sourceFile ++ ": node " ++ uri ++ " is outside MO root " ++ root))
  else
    let format := raw.getText "format" "chr"
    if format ∉ validFormats then
      .error (.catalogError (sourceFile ++ ": unknown format " ++ text.repr format ++ " for " ++ uri))
    else
      let source := raw.getText "source" "server"
      if source ∉ ["device", "server"] then
        .error (.catalogError
          (sourceFile ++ ": unknown source " ++ text.repr source ++ " for " ++ uri))
      else
        let default := match raw.get "default" with
          | none | some .null => ""
          | some value => value.text
        if format = "int" ∧ default ≠ "" ∧ !default.toList.contains '{' ∧
            text.parseInt default = none then
          .error (.catalogError (sourceFile ++ ": int node " ++ uri ++ " default is not an integer"))
        else if format = "bool" ∧ default ≠ "" ∧ default ∉ ["true", "false"] then
          .error (.catalogError
            (sourceFile ++ ": bool node " ++ uri ++ " default must be 'true' or 'false'"))
        else
          let _access ← ((raw.get "access").getD (.list "('Get',)" [.str "Get"])).iterate
          return {
            uri, format, source, default
            type := raw.getText "type" (defaultType format)
            feature := raw.getText "feature" "" }

def loadNodes (sourceFile root : String) : List Yaml → List String → Except LoadError (List MoNode)
  | [], _ => .ok []
  | raw :: raws, seen => do
    let node ← coerceNode text raw sourceFile root
    if node.uri ∈ seen then
      .error (.catalogError (sourceFile ++ ": duplicate node " ++ node.uri))
    else
      let nodes ← loadNodes sourceFile root raws (node.uri :: seen)
      return node :: nodes

def required (sourceFile key : String) (info : Yaml) : Except LoadError Yaml := do
  match (← info.getOf key).filter Yaml.truthy with
  | some value => return value
  | none => .error (.catalogError (sourceFile ++ ": meta." ++ key ++ " is required"))

/-- `_load_object`, of a file that `yaml.safe_load` reads as that document if it can. -/
def loadObject (file : String × Option Yaml) : Except LoadError ManagementObject :=
  match file.2 with
  | none => .error .unreadable
  | some data =>
    if !data.isMapping then .error (.catalogError (file.1 ++ ": top level must be a mapping"))
    else do
      let info := (data.getTruthy "meta").getD (.mapping "{}" [])
      let _id ← required file.1 "id" info
      let _urn ← required file.1 "urn" info
      let declared ← required file.1 "root" info
      let root := dropTrailingSlashes declared.text
      match data.getTruthy "nodes" with
      | none => .error (.catalogError (file.1 ++ ": declares no nodes"))
      | some rawNodes =>
        let raws ← rawNodes.iterate
        let nodes ← loadNodes text file.1 root raws []
        return { nodes, root }

def yamlFiles (entries : List (String × Option Yaml)) : List (String × Option Yaml) :=
  (entries.filter fun file => ".yaml".toList.isSuffixOf file.1.toList).insertionSort
    fun a b => a.1 ≤ b.1

def loadTree (base : String) (directory : Option (List (String × Option Yaml))) :
    Except LoadError MoTree := do
  match directory with
  | none => .error (.catalogError ("OMA-DM catalogue directory not found: " ++ base))
  | some entries =>
    let files := yamlFiles entries
    if files.isEmpty then
      .error (.catalogError ("no management objects declared in " ++ base))
    else
      let objects ← files.mapM (loadObject text)
      if ¬ (objects.map ManagementObject.root).Nodup then
        .error (.catalogError "two management objects declare the same root URI")
      else return { objects }

/-! ### What the files declare -/

def declaredUri (raw : Yaml) : String := text.strip (((raw.get "uri").map Yaml.text).getD "")

def declaredUris (file : String × Option Yaml) : List String :=
  let nodes := (file.2.bind (·.getTruthy "nodes")).bind fun rawNodes => rawNodes.iterate.toOption
  (nodes.getD []).map (declaredUri text)

def declaredRoot (file : String × Option Yaml) : String :=
  let root := (file.2.bind (·.getTruthy "meta")).bind (·.get "root")
  dropTrailingSlashes ((root.map Yaml.text).getD "")

def Under (root uri : String) : Prop := uri = root ∨ root.toList ++ ['/'] <+: uri.toList

def Nested (root root' : String) : Prop :=
  root.toList ++ ['/'] <+: root'.toList ∨ root'.toList ++ ['/'] <+: root.toList

section Loaded
variable {text : LoadText} {raw : Yaml} {raws : List Yaml} {sourceFile root base : String}
  {node : MoNode} {nodes : List MoNode} {seen : List String} {file : String × Option Yaml}
  {object : ManagementObject} {entries : List (String × Option Yaml)} {tree : MoTree}

theorem coerceNode_ok (h : coerceNode text raw sourceFile root = .ok node) :
    node.uri = declaredUri text raw ∧
      (node.uri = root ∨ (dropTrailingSlashes root).toList ++ ['/'] <+: node.uri.toList) := by
  obtain ⟨declared, hdeclared, h⟩ := Except.bind_eq_ok.mp h
  have huri : raw.get "uri" = some declared := by
    unfold Yaml.subscript at hdeclared
    split at hdeclared
    · split at hdeclared
      · rename_i value hvalue
        rw [hvalue, Except.ok.inj hdeclared]
      · cases hdeclared
    · cases hdeclared
  dsimp only at h
  split_ifs at h with _ hunder
  obtain ⟨_, _, h⟩ := Except.bind_eq_ok.mp h
  rw [Except.pure_eq_ok] at h
  subst h
  refine ⟨?_, hunder⟩
  simp only [declaredUri, huri, Option.map_some, Option.getD_some]

theorem loadNodes_ok (h : loadNodes text sourceFile root raws seen = .ok nodes) :
    nodes.map MoNode.uri = raws.map (declaredUri text) ∧ (nodes.map MoNode.uri).Nodup ∧
      (∀ n ∈ nodes, n.uri ∉ seen) ∧
      ∀ n ∈ nodes, n.uri = root ∨ (dropTrailingSlashes root).toList ++ ['/'] <+: n.uri.toList := by
  induction raws generalizing seen nodes with
  | nil =>
    obtain rfl : [] = nodes := Except.ok.inj h
    simp
  | cons raw raws ih =>
    obtain ⟨node, hnode, h⟩ := Except.bind_eq_ok.mp h
    split_ifs at h with hseen
    obtain ⟨rest, hrest, h⟩ := Except.bind_eq_ok.mp h
    rw [Except.pure_eq_ok] at h
    subst h
    obtain ⟨huri, hunder⟩ := coerceNode_ok hnode
    obtain ⟨huris, hnodup, hfresh, hall⟩ := ih hrest
    have hnot : node.uri ∉ rest.map MoNode.uri := by
      intro hmem
      obtain ⟨n, hn, heq⟩ := List.mem_map.mp hmem
      exact hfresh n hn (heq ▸ List.mem_cons_self)
    refine ⟨?_, ?_, ?_, ?_⟩
    · rw [List.map_cons, List.map_cons, huris, huri]
    · rw [List.map_cons]
      exact List.nodup_cons.mpr ⟨hnot, hnodup⟩
    · exact List.forall_mem_cons.mpr ⟨hseen, fun n hn hmem => hfresh n hn (List.mem_cons_of_mem _ hmem)⟩
    · exact List.forall_mem_cons.mpr ⟨hunder, hall⟩

theorem required_ok {key : String} {info value : Yaml} (h : required sourceFile key info = .ok value) :
    info.get key = some value := by
  obtain ⟨found, hfound, h⟩ := Except.bind_eq_ok.mp h
  unfold Yaml.getOf at hfound
  split_ifs at hfound
  obtain rfl : info.get key = found := Except.ok.inj hfound
  split at h
  · rename_i v hv
    obtain rfl : v = value := Except.ok.inj h
    exact (Option.filter_eq_some_iff.mp hv).1
  · cases h

/-- What one file gives the tree: the URIs that it declares, each once, all of them at its root or
below it. -/
structure Loads (text : LoadText) (file : String × Option Yaml) (object : ManagementObject) :
    Prop where
  uris : object.nodes.map MoNode.uri = declaredUris text file
  root : object.root = declaredRoot file
  nodup : (declaredUris text file).Nodup
  under : ∀ uri ∈ declaredUris text file, Under (declaredRoot file) uri

theorem loadObject_ok (h : loadObject text file = .ok object) : Loads text file object := by
  obtain ⟨name, _ | data⟩ := file
  · cases h
  · unfold loadObject at h
    dsimp only at h
    split_ifs at h
    obtain ⟨_, _, h⟩ := Except.bind_eq_ok.mp h
    obtain ⟨_, _, h⟩ := Except.bind_eq_ok.mp h
    obtain ⟨declared, hroot, h⟩ := Except.bind_eq_ok.mp h
    split at h
    · cases h
    · rename_i rawNodes hnodes
      obtain ⟨raws, hraws, h⟩ := Except.bind_eq_ok.mp h
      obtain ⟨nodes, hload, h⟩ := Except.bind_eq_ok.mp h
      rw [Except.pure_eq_ok] at h
      subst h
      obtain ⟨huris, hnodup, -, hunder⟩ := loadNodes_ok hload
      have hdeclared : declaredUris text (name, some data) = raws.map (declaredUri text) := by
        simp [declaredUris, hnodes, hraws, Except.toOption]
      have hmeta : declaredRoot (name, some data) = dropTrailingSlashes declared.text := by
        have hget := required_ok hroot
        cases hinfo : data.getTruthy "meta" with
        | none =>
          rw [hinfo] at hget
          cases hget
        | some info =>
          rw [hinfo] at hget
          simp [declaredRoot, hinfo, show info.get "root" = some declared from hget]
      refine ⟨huris.trans hdeclared.symm, hmeta.symm, ?_, ?_⟩
      · rw [hdeclared, ← huris]
        exact hnodup
      · intro uri huri
        rw [hdeclared, ← huris] at huri
        obtain ⟨n, hn, rfl⟩ := List.mem_map.mp huri
        have hn := hunder n hn
        rw [dropTrailingSlashes_idem] at hn
        rw [hmeta]
        exact hn

theorem loads_of_mapM {files : List (String × Option Yaml)} {objects : List ManagementObject}
    (h : files.mapM (loadObject text) = .ok objects) : List.Forall₂ (Loads text) files objects := by
  induction files generalizing objects with
  | nil =>
    obtain rfl : [] = objects := Except.ok.inj h
    exact .nil
  | cons file files ih =>
    rw [List.mapM_cons] at h
    obtain ⟨object, hobject, htail⟩ := Except.bind_eq_ok.mp h
    obtain ⟨rest, hrest, hcons⟩ := Except.bind_eq_ok.mp htail
    rw [Except.pure_eq_ok] at hcons
    subst hcons
    exact .cons (loadObject_ok hobject) (ih hrest)

theorem loadTree_ok (h : loadTree text base (some entries) = .ok tree) :
    List.Forall₂ (Loads text) (yamlFiles entries) tree.objects ∧
      (tree.objects.map ManagementObject.root).Nodup := by
  unfold loadTree at h
  dsimp only at h
  split_ifs at h
  obtain ⟨objects, hobjects, h⟩ := Except.bind_eq_ok.mp h
  split_ifs at h with hroots
  obtain rfl := Except.ok.inj h
  exact ⟨loads_of_mapM hobjects, hroots⟩

end Loaded

/-! ### Well-formed trees -/

/-- A tree that names every node by its URI, asks and pushes nothing twice, and knows a value that
it asked for. -/
structure MoTree.WellFormed (tree : MoTree) : Prop where
  distinct : (tree.allNodes.map MoNode.uri).Nodup
  found : ∀ n ∈ tree.allNodes, tree.node n.uri = some n
  queried : tree.deviceQueryUris.Nodup
  pushed : ∀ features uris, uris.Sublist ((tree.serverNodes features).map MoNode.uri) →
    (tree.interiorNodesFor uris ++ uris).Nodup
  recognised : ∀ uri ∈ tree.deviceQueryUris,
    ∃ n, tree.node uri = some n ∧ n.uri = uri ∧ n.source = "device"

/-- No two files with nested roots declare one URI, and no URI ends in a slash. -/
structure Separate (text : LoadText) (files : List (String × Option Yaml)) : Prop where
  apart : files.Pairwise fun f g => Nested (declaredRoot f) (declaredRoot g) →
    List.Disjoint (declaredUris text f) (declaredUris text g)
  bare : ∀ f ∈ files, ∀ uri ∈ declaredUris text f, uri.toList.getLast? ≠ some '/'

theorem dropTrailingSlashes_eq_self (uri : String) :
    dropTrailingSlashes uri = uri ↔ uri.toList.getLast? ≠ some '/' := by
  have hchars : dropTrailingSlashes uri = uri ↔
      uri.toList.rdropWhile (· = '/') = uri.toList := by
    rw [← String.toList_inj]
    change (String.ofList (uri.toList.rdropWhile (· = '/'))).toList = _ ↔ _
    rw [String.toList_ofList]
  rw [hchars, List.rdropWhile_eq_self_iff]
  constructor
  · intro h hlast
    obtain ⟨hne, hslash⟩ := List.mem_getLast?_eq_getLast hlast
    exact h hne (by simpa using hslash.symm)
  · intro h hne hslash
    exact h (by rw [List.getLast?_eq_some_getLast hne]; simpa using hslash)

theorem nested_of_under {root root' uri : String} (h : Under root uri) (h' : Under root' uri) :
    root = root' ∨ Nested root root' := by
  rcases h with rfl | h
  · rcases h' with rfl | h'
    · exact .inl rfl
    · exact .inr (.inr h')
  · rcases h' with rfl | h'
    · exact .inr (.inl h)
    · rcases List.prefix_or_prefix_of_prefix h h' with hle | hle
      · rcases List.prefix_concat_iff.mp hle with heq | hle
        · left
          exact String.toList_inj.mp (List.append_cancel_right heq)
        · exact .inr (.inl hle)
      · rcases List.prefix_concat_iff.mp hle with heq | hle
        · left
          exact String.toList_inj.mp (List.append_cancel_right heq).symm
        · exact .inr (.inr hle)

section Tree
variable {tree : MoTree}

theorem wellFormed_of_distinct (hdistinct : (tree.allNodes.map MoNode.uri).Nodup)
    (hbare : ∀ n ∈ tree.allNodes, n.uri.toList.getLast? ≠ some '/') : tree.WellFormed := by
  have hinj : ∀ n ∈ tree.allNodes, ∀ m ∈ tree.allNodes, n.uri = m.uri → n = m :=
    List.inj_on_of_nodup_map hdistinct
  have hfound : ∀ n ∈ tree.allNodes, tree.node n.uri = some n := by
    intro n hn
    unfold MoTree.node
    rw [(dropTrailingSlashes_eq_self n.uri).mpr (hbare n hn)]
    cases hfind : tree.allNodes.reverse.find? (·.uri = n.uri) with
    | none =>
      have hno := List.find?_eq_none.mp hfind n (List.mem_reverse.mpr hn)
      simp at hno
    | some m =>
      have hm := List.mem_reverse.mp (List.mem_of_find?_eq_some hfind)
      have huri : m.uri = n.uri := by simpa using List.find?_some hfind
      rw [hinj m hm n hn huri]
  refine ⟨hdistinct, hfound, ?_, ?_, ?_⟩
  · exact hdistinct.sublist ((List.filter_sublist ..).map _)
  · intro features uris hsub
    have huris : uris.Nodup :=
      hdistinct.sublist (hsub.trans ((List.filter_sublist ..).map _))
    refine List.nodup_append.mpr ⟨nodup_interiorNodesFor tree uris, huris, ?_⟩
    rintro u hu v hv rfl
    -- an interior node is never pushed
    obtain ⟨-, n, hn, hinterior, huri⟩ := mem_interiorNodesFor.mp hu
    obtain ⟨m, hm, hmuri⟩ := List.mem_map.mp (hsub.subset hv)
    obtain ⟨hm, hserver⟩ := List.mem_filter.mp hm
    obtain rfl := hinj n hn m hm (huri.trans hmuri.symm)
    simp [hinterior] at hserver
  · intro uri huri
    obtain ⟨n, hn, rfl⟩ := List.mem_map.mp huri
    obtain ⟨hn, hdevice⟩ := List.mem_filter.mp hn
    simp only [Bool.and_eq_true, decide_eq_true_eq] at hdevice
    exact ⟨n, hfound n hn, rfl, hdevice.1⟩

end Tree

section Loaded
variable {text : LoadText} {base : String} {entries : List (String × Option Yaml)} {tree : MoTree}
  {files : List (String × Option Yaml)} {objects : List ManagementObject}

theorem uris_of_loads (h : List.Forall₂ (Loads text) files objects) :
    (MoTree.allNodes ⟨objects⟩).map MoNode.uri = files.flatMap (declaredUris text) := by
  induction h with
  | nil => rfl
  | cons hfile _ ih =>
    simp only [MoTree.allNodes, List.flatMap_cons, List.map_append, hfile.uris] at ih ⊢
    rw [ih]

theorem roots_of_loads (h : List.Forall₂ (Loads text) files objects) :
    objects.map ManagementObject.root = files.map declaredRoot := by
  induction h with
  | nil => rfl
  | cons hfile _ ih => rw [List.map_cons, List.map_cons, hfile.root, ih]

theorem file_of_loads (h : List.Forall₂ (Loads text) files objects) :
    ∀ file ∈ files, ∃ object, Loads text file object := by
  induction h with
  | nil => simp
  | cons hfile _ ih => exact List.forall_mem_cons.mpr ⟨⟨_, hfile⟩, ih⟩

theorem apart_iff (h : List.Forall₂ (Loads text) files objects)
    (hroots : (objects.map ManagementObject.root).Nodup) :
    (files.flatMap (declaredUris text)).Nodup ↔
      files.Pairwise fun f g => Nested (declaredRoot f) (declaredRoot g) →
        List.Disjoint (declaredUris text f) (declaredUris text g) := by
  have hfiles := file_of_loads h
  rw [roots_of_loads h, List.Nodup, List.pairwise_map] at hroots
  rw [List.nodup_flatMap]
  constructor
  · rintro ⟨-, hdisjoint⟩
    refine hdisjoint.imp ?_
    intro f g hfg _
    exact hfg
  · intro hapart
    refine ⟨fun f hf => (hfiles f hf).elim fun _ hloads => hloads.nodup, ?_⟩
    refine (hapart.and hroots).imp_of_mem ?_
    rintro f g hf hg ⟨hnested, hne⟩ uri huri huri'
    obtain ⟨_, hfload⟩ := hfiles f hf
    obtain ⟨_, hgload⟩ := hfiles g hg
    rcases nested_of_under (hfload.under uri huri) (hgload.under uri huri') with heq | hroot
    · exact hne heq
    · exact hnested hroot huri huri'

/-- A tree that loads is well formed exactly when its files are separate. -/
theorem loadTree_wellFormed_iff (h : loadTree text base (some entries) = .ok tree) :
    tree.WellFormed ↔ Separate text (yamlFiles entries) := by
  obtain ⟨hloads, hroots⟩ := loadTree_ok h
  have huris : tree.allNodes.map MoNode.uri = _ := uris_of_loads hloads
  have hapart := apart_iff hloads hroots
  have hmem : ∀ uri, uri ∈ tree.allNodes.map MoNode.uri ↔
      ∃ f ∈ yamlFiles entries, uri ∈ declaredUris text f := by
    intro uri
    rw [huris, List.mem_flatMap]
  constructor
  · intro hwell
    refine ⟨hapart.mp (huris ▸ hwell.distinct), fun f hf uri huri => ?_⟩
    obtain ⟨n, hn, rfl⟩ := List.mem_map.mp ((hmem uri).mpr ⟨f, hf, huri⟩)
    -- the node was found under its URI without the slashes at the end
    have hfind := List.find?_some (hwell.found n hn)
    have heq : n.uri = dropTrailingSlashes n.uri := by simpa using hfind
    exact (dropTrailingSlashes_eq_self n.uri).mp heq.symm
  · intro hseparate
    refine wellFormed_of_distinct (huris ▸ hapart.mpr hseparate.apart) fun n hn => ?_
    obtain ⟨f, hf, huri⟩ := (hmem n.uri).mp (List.mem_map_of_mem hn)
    exact hseparate.bare f hf n.uri huri

end Loaded

namespace Lab

/-- Two management objects with nested roots, which both declare one leaf. -/
def nestedFiles : List (String × Option Yaml) :=
  let mo (root uri : String) : Option Yaml := some <| .mapping "" [
    (.str "meta", .mapping "" [(.str "id", .str "mo"), (.str "urn", .str "urn:mo"),
      (.str "root", .str root)]),
    (.str "nodes", .list "" [.mapping "" [(.str "uri", .str uri), (.str "source", .str "device")]])]
  [("a.yaml", mo "./A" "./A/B/C"), ("b.yaml", mo "./A/B" "./A/B/C")]

def nestedText : LoadText := { asciiText with repr := id }

def nestedTree : MoTree where
  objects := [{ nodes := [{ uri := "./A/B/C", source := "device" }], root := "./A" },
    { nodes := [{ uri := "./A/B/C", source := "device" }], root := "./A/B" }]

theorem loadTree_nested :
    loadTree nestedText "omadm" (some nestedFiles) = .ok nestedTree := by
  rfl

end Lab

theorem loadTree_wellFormed_iff_nested :
    Lab.nestedTree.WellFormed ↔ Separate Lab.nestedText (yamlFiles Lab.nestedFiles) :=
  loadTree_wellFormed_iff Lab.loadTree_nested

/-- One leaf under two nested roots is asked for twice. -/
theorem loadTree_malformed :
    ¬ ∀ (text : LoadText) (base : String) (entries : List (String × Option Yaml)) (tree : MoTree),
      loadTree text base (some entries) = .ok tree → tree.WellFormed := by
  intro h
  have hwell := h _ _ _ _ Lab.loadTree_nested
  exact absurd hwell.distinct (by decide)

end Acs.Omadm
