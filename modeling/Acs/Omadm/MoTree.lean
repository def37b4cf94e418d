import Mathlib
import Acs.Protocol.Identity

/-! The OMA-DM management object tree, as far as the session reads it. -/

namespace Acs.Omadm

structure MoNode where
  uri : String
  format : String := "chr"
  type : String := "text/plain"
  source : String := "server"
  default : String := ""
  feature : String := ""
deriving DecidableEq

def MoNode.isInterior (n : MoNode) : Bool := n.format = "node"

structure ManagementObject where
  nodes : List MoNode
  root : String := ""

structure MoTree where
  objects : List ManagementObject

def dropTrailingSlashes (uri : String) : String :=
  String.ofList (uri.toList.reverse.dropWhile (· = '/')).reverse

@[simp] theorem dropTrailingSlashes_idem (uri : String) :
    dropTrailingSlashes (dropTrailingSlashes uri) = dropTrailingSlashes uri := by
  simp [dropTrailingSlashes, List.dropWhile_idempotent]

namespace MoTree
variable (tree : MoTree)

def allNodes : List MoNode := tree.objects.flatMap ManagementObject.nodes

/-- `_by_uri.get(uri.rstrip("/"))`: the last node declared with that URI. -/
def node (uri : String) : Option MoNode :=
  tree.allNodes.reverse.find? (·.uri = dropTrailingSlashes uri)

def deviceQueryUris : List String :=
  (tree.allNodes.filter fun n => n.source = "device" && !n.isInterior).map MoNode.uri

/-- Nodes the server pushes, filtered by enabled features. -/
def serverNodes (features : List String) : List MoNode :=
  tree.allNodes.filter fun n =>
    n.source = "server" && !n.isInterior && (n.feature = "" || features.contains n.feature)

end MoTree

def setKey (key value : String) : List (String × String) → List (String × String)
  | [] => [(key, value)]
  | (k, v) :: rest => if k = key then (key, value) :: rest else (k, v) :: setKey key value rest

/-- `vformat` is `string.Formatter.vformat` with unknown fields left as they are. -/
def MoNode.render (vformat : String → List (String × String) → Except PyError String)
    (context overrides : List (String × String)) (n : MoNode) : Except PyError String :=
  let raw := (overrides.lookup n.uri).getD n.default
  if !raw.toList.contains '{' then .ok raw else vformat raw context

def buildContext (imsi msisdn deviceId : String) (identity : ImsIdentity)
    (extra : List (String × String)) : List (String × String) :=
  [("imsi", imsi), ("msisdn", msisdn),
   ("msisdn_national", String.ofList (msisdn.toList.dropWhile (· = '+'))),
   ("device_id", deviceId), ("ims_domain", identity.imsDomain), ("impi", identity.impi),
   ("impu", identity.impu)] ++ extra

/-- The proper ancestors of a URI from depth two on: `"/".join(parts[:depth])`. -/
def ancestors (uri : String) : List String :=
  let parts := uri.toList.splitOn '/'
  (List.range' 2 (parts.length - 2)).map fun depth =>
    String.ofList (List.intercalate ['/'] (parts.take depth))

def parentFirst (u v : String) : Prop :=
  u.toList.count '/' < v.toList.count '/' ∨ u.toList.count '/' = v.toList.count '/' ∧ u ≤ v

instance : DecidableRel parentFirst := fun u v => by unfold parentFirst; infer_instance

/-- Interior nodes that must exist before the leaves of those URIs can be written, parent-first. -/
def MoTree.interiorNodesFor (tree : MoTree) (uris : List String) : List String :=
  let declared := (tree.allNodes.filter MoNode.isInterior).map MoNode.uri
  (((uris.flatMap ancestors).filter declared.contains).dedup).insertionSort parentFirst

section
variable {tree : MoTree}

theorem mem_interiorNodesFor {uris : List String} {u : String} :
    u ∈ tree.interiorNodesFor uris ↔
      (∃ uri ∈ uris, u ∈ ancestors uri) ∧ ∃ n ∈ tree.allNodes, n.isInterior ∧ n.uri = u := by
  simp only [MoTree.interiorNodesFor, List.mem_insertionSort, List.mem_dedup, List.mem_filter,
    List.mem_flatMap, List.contains_iff_mem, List.mem_map, and_assoc]

theorem nodup_interiorNodesFor (tree : MoTree) (uris : List String) :
    (tree.interiorNodesFor uris).Nodup :=
  (List.perm_insertionSort ..).nodup_iff.mpr (List.nodup_dedup _)

end
end Acs.Omadm
