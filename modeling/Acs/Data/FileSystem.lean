import Mathlib
import Acs.Data.Except

/-! Files and directories without links, and the paths that lead to them. -/

namespace Acs

abbrev Location := List String

inductive Entry (α : Type)
  | directory
  | file (content : α)

/-- Everything on the disk but the root, and how long a name may be. -/
structure FileSystem (α : Type) where
  entries : List (Location × Entry α)
  nameMax : Nat

inductive StatError
  | notFound
  | nameTooLong
deriving DecidableEq

namespace Location

def isPart (part : String) : Bool := part ≠ "" && part ≠ "."

/-- The parts of a path's text: empty ones and single dots are dropped. -/
def parts (path : String) : List String :=
  ((path.toList.splitOn '/').map String.ofList).filter isPart

/-- `PurePath.__truediv__`: an absolute path replaces what it is joined to. -/
def join (here : List String) (path : String) : List String :=
  if path.toList.head? = some '/' then parts path else here ++ parts path

def down (here : Location) (name : String) : Location :=
  if name = ".." then here.dropLast else here ++ [name]

def normal (here : Location) (path : List String) : Location := path.foldl down here

/-- `PurePath.stem` -/
def stem (name : String) : String :=
  let suffix := name.toList.reverse.takeWhile (· ≠ '.')
  let dot := name.toList.length - suffix.length - 1
  if '.' ∈ name.toList ∧ 0 < dot ∧ suffix ≠ [] then String.ofList (name.toList.take dot) else name

end Location

namespace FileSystem
variable {α : Type} (fs : FileSystem α)
open Location

def find (place : Location) : Option (Entry α) :=
  if place = [] then some .directory
  else (fs.entries.find? fun entry => entry.1 = place).map Prod.snd

def isDir (place : Location) : Bool :=
  match fs.find place with
  | some .directory => true
  | _ => false

def walk : Location → List String → Except StatError Location
  | here, [] => .ok here
  | here, name :: names =>
    if !fs.isDir here then .error .notFound
    else if fs.nameMax < name.utf8ByteSize then .error .nameTooLong
    else walk (here.down name) names

def stat (path : List String) : Except StatError (Location × Entry α) := do
  let place ← fs.walk [] path
  match fs.find place with
  | some entry => return (place, entry)
  | none => .error .notFound

/-- The file that `Path.is_file` sees and `open` opens. A name that is too long is an error; a path
with a null character leads nowhere. -/
def fileAt (path : List String) : Except StatError (Option (Location × α)) :=
  if path.any fun name => name.toList.contains '\x00' then .ok none
  else
    match fs.stat path with
    | .ok (place, .file content) => .ok (some (place, content))
    | .ok (_, .directory) => .ok none
    | .error .notFound => .ok none
    | .error .nameTooLong => .error .nameTooLong

def children (place : Location) : List String :=
  (fs.entries.filterMap fun entry =>
    match entry.1.getLast? with
    | some name => if entry.1.dropLast = place then some name else none
    | none => none).dedup

variable {fs}

theorem walk_ok {here place : Location} {path : List String} (h : fs.walk here path = .ok place) :
    place = here.normal path := by
  induction path generalizing here with
  | nil => exact (Except.ok.inj h).symm
  | cons name path ih =>
    simp only [walk] at h
    split_ifs at h
    exact ih h

theorem walk_concat {here place : Location} {path : List String} {name : String}
    (h : fs.walk here (path ++ [name]) = .ok place) (hname : name ≠ "..") :
    ∃ parent, fs.isDir parent = true ∧ place = parent ++ [name] := by
  induction path generalizing here with
  | nil =>
    simp only [List.nil_append, walk] at h
    split_ifs at h with hdir hlong
    exact ⟨here, by simpa using hdir, by simpa [down, hname] using (Except.ok.inj h).symm⟩
  | cons first path ih =>
    simp only [List.cons_append, walk] at h
    split_ifs at h
    exact ih h

theorem fileAt_ok {path : List String} {place : Location} {content : α}
    (h : fs.fileAt path = .ok (some (place, content))) :
    fs.walk [] path = .ok place ∧ fs.find place = some (.file content) := by
  unfold fileAt at h
  split_ifs at h
  · cases h
  split at h
  · next here c hstat =>
    cases h
    obtain ⟨here, hwalk, hstat⟩ := Except.bind_eq_ok.mp hstat
    split at hstat
    · next entry hfind =>
      cases hstat
      exact ⟨hwalk, hfind⟩
    · cases hstat
  all_goals cases h

theorem mem_children {place : Location} {name : String}
    (h : fs.find (place ++ [name]) ≠ none) : name ∈ fs.children place := by
  unfold find at h
  rw [if_neg (by simp)] at h
  obtain ⟨content, hcontent⟩ := Option.ne_none_iff_exists'.mp h
  obtain ⟨entry, hentry, -⟩ := Option.map_eq_some_iff.mp hcontent
  have hplace : entry.1 = place ++ [name] := by simpa using List.find?_some hentry
  refine List.mem_dedup.mpr (List.mem_filterMap.mpr ⟨entry, List.mem_of_find?_eq_some hentry, ?_⟩)
  simp [hplace]

end FileSystem
end Acs
