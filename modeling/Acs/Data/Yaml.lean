import Acs.Data.Except
import Acs.Security.Pii

/-! Documents that `yaml.safe_load` returns, as the catalogue loaders look at them. -/

namespace Acs

/-- A value of a document. `text` is what `str` makes of a value that is no string. -/
inductive Yaml
  | null
  | str (s : String)
  | scalar (text : String) (truthy : Bool)
  | list (text : String) (items : List Yaml)
  | mapping (text : String) (entries : List (Yaml × Yaml))

/-- What a loader raises: its own error with its text, or what Python raises for a value of another
type. -/
inductive LoadError
  | catalogError (message : String)
  | typeError
  | attributeError
  | valueError
  | unreadable
deriving DecidableEq

structure LoadText extends PyText where
  repr : String → String

namespace Yaml

def text : Yaml → String
  | null => "None"
  | str s => s
  | scalar text _ => text
  | list text _ => text
  | mapping text _ => text

def truthy : Yaml → Bool
  | null => false
  | str s => s ≠ ""
  | scalar _ truthy => truthy
  | list _ items => !items.isEmpty
  | mapping _ entries => !entries.isEmpty

def isMapping : Yaml → Bool
  | mapping .. => true
  | _ => false

def get (key : String) : Yaml → Option Yaml
  | mapping _ entries =>
    (entries.find? fun entry => match entry.1 with | str s => s = key | _ => false).map Prod.snd
  | _ => none

def getText (key default : String) (y : Yaml) : String := ((y.get key).map text).getD default

def getOf (key : String) (y : Yaml) : Except LoadError (Option Yaml) :=
  if y.isMapping then .ok (y.get key) else .error .attributeError

/-- `value[key]` of what may be no mapping; a `KeyError` is answered with `missing`. -/
def subscript (missing : LoadError) (key : String) (y : Yaml) : Except LoadError Yaml :=
  if y.isMapping then
    match y.get key with
    | some value => .ok value
    | none => .error missing
  else .error .typeError

def iterate : Yaml → Except LoadError (List Yaml)
  | str s => .ok (s.toList.map fun c => str (String.singleton c))
  | list _ items => .ok items
  | mapping _ entries => .ok (entries.map Prod.fst)
  | _ => .error .typeError

def checkDict : Yaml → Except LoadError Unit
  | mapping .. => .ok ()
  | str s => if s = "" then .ok () else .error .valueError
  | list _ items => items.forM fun item => do
    match ← item.iterate with
    | [list .., _] => .error .typeError
    | [mapping .., _] => .error .typeError
    | [_, _] => .ok ()
    | _ => .error .valueError
  | _ => .error .typeError

def getTruthy (key : String) (y : Yaml) : Option Yaml := (y.get key).filter truthy

end Yaml
end Acs
