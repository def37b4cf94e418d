import Mathlib

/-! The OMA-CP document: a tree of characteristics that hold parameters in order. -/

namespace Acs

structure Parm where
  name : String
  value : String
deriving DecidableEq

structure Characteristic where
  type : String
  parms : List Parm := []
  children : List Characteristic := []

/-- `f` of the first element that `p` picks out, or of a new last one. -/
def editFirst {α : Type} (p : α → Bool) (f : α → α) (new : α) : List α → List α
  | [] => [f new]
  | x :: xs => if p x then f x :: xs else x :: editFirst p f new xs

def updateFirst {α : Type} (p : α → Bool) (f : α → α) : List α → List α
  | [] => []
  | x :: xs => if p x then f x :: xs else x :: updateFirst p f xs

namespace Characteristic

def addParm (c : Characteristic) (name value : String) : Characteristic :=
  { c with parms := c.parms ++ [⟨name, value⟩] }

def findParm (c : Characteristic) (name : String) : Option Parm := c.parms.find? (·.name = name)

/-- Add a parameter to the descendant that the segments address, creating what is missing. -/
def addParmAt (name value : String) : List String → Characteristic → Characteristic
  | [], c => c.addParm name value
  | segment :: segments, c =>
    { c with
      children := editFirst (·.type = segment) (addParmAt name value segments) { type := segment }
        c.children }

@[simp] theorem addParmAt_type (name value : String) (path : List String) (c : Characteristic) :
    (addParmAt name value path c).type = c.type := by
  cases path <;> rfl

end Characteristic

def Characteristic.isApplication (appId : String) (c : Characteristic) : Bool :=
  c.type = "APPLICATION" && (c.findParm "AppID").map Parm.value = some appId

structure ProvisioningDoc where
  version : String := "1.1"
  characteristics : List Characteristic := []

namespace ProvisioningDoc

def add (doc : ProvisioningDoc) (c : Characteristic) : ProvisioningDoc :=
  { doc with characteristics := doc.characteristics ++ [c] }

end ProvisioningDoc

def appIdRcs : String := "ap2002"

def appIdDmAccount : String := "w7"

end Acs
