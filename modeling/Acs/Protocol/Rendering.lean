import Acs.Data.Formatter
import Acs.Omadm.MoTree
import Acs.Protocol.Builder

/-! How a stored override is rendered in the configuration document and in the management
objects. -/

namespace Acs
open Formatter

/-- The objects of a Python runtime, with its strings among them. -/
structure Runtime where
  Obj : Type
  objects : Objects Obj
  ofText : List Char → Obj
  format_ofText : ∀ s, objects.format (ofText s) [] = .ok s

namespace SafeFormatter

def known (values : List (String × String)) (name : List Char) : Option (List Char) :=
  (values.lookup (String.ofList name)).map String.toList

/-- What stands for a placeholder: `kwargs.get(key, "{" + key + "}")`, or nothing for a
position. -/
def textOf (values : List (String × String)) : Key → List Char
  | .name key => (known values key).getD ('{' :: (key ++ ['}']))
  | .index _ => []

variable (digits : Digits) (runtime : Runtime)

def getValue (values : List (String × String)) (key : Key) : Except String runtime.Obj :=
  .ok (runtime.ofText (textOf values key))

def vformat (template : String) (values : List (String × String)) : Except PyError String :=
  match Formatter.vformat digits runtime.objects (getValue runtime values) template.toList with
  | .ok text => .ok (String.ofList text)
  | .error _ => .error .formatError

end SafeFormatter

open SafeFormatter Builder

/-- The template with the known placeholders replaced and every other character as it was. -/
def replaced (values : List (String × String)) (template : String) : String :=
  String.ofList (substitute (known values) template.toList)

variable (digits : Digits) (runtime : Runtime) (env : BuildEnv)

def Rendered (template : String) : Prop :=
  (∀ context : BuildContext,
    context.render { env with vformat := vformat digits runtime } template =
      .ok (replaced context.values template)) ∧
  ∀ (node : Omadm.MoNode) (context overrides : List (String × String)),
    overrides.lookup node.uri = some template →
      node.render (vformat digits runtime) context overrides = .ok (replaced context template)

/-- The override has no opening brace, or every brace of it belongs to a placeholder. -/
def Placeholders (template : String) : Prop :=
  '{' ∉ template.toList ∨ Plain digits template.toList

def bareRuntime : Runtime where
  Obj := List Char
  objects := bareObjects
  ofText s := s
  format_ofText _ := rfl

variable {digits runtime env}

theorem vformat_of_plain {template : String} (h : Plain digits template.toList)
    (values : List (String × String)) :
    vformat digits runtime template values = .ok (replaced values template) := by
  have hstands : Stands runtime.objects (getValue runtime values) (known values) :=
    fun _ => ⟨_, rfl, runtime.format_ofText _⟩
  unfold SafeFormatter.vformat
  rw [vformat_plain h hstands]
  rfl

theorem replaced_of_not_mem {template : String} (h : '{' ∉ template.toList)
    (values : List (String × String)) : replaced values template = template := by
  unfold replaced
  rw [substitute_of_not_mem h, String.ofList_toList]

theorem rendered_iff_values {template : String} :
    Rendered digits runtime env template ↔
      ∀ values, (if !template.toList.contains '{' then .ok template
        else vformat digits runtime template values) = .ok (replaced values template) := by
  constructor
  · intro h values
    exact h.1 { imsi := "", values }
  · intro h
    refine ⟨fun context => h context.values, fun node context overrides hlookup => ?_⟩
    unfold Omadm.MoNode.render
    rw [hlookup]
    exact h context

theorem rendered_of_placeholders {template : String} (h : Placeholders digits template) :
    Rendered digits runtime env template := by
  refine rendered_iff_values.mpr fun values => ?_
  rcases h with hnone | hplain
  · rw [replaced_of_not_mem hnone]
    simp [hnone]
  · rw [vformat_of_plain hplain]
    split_ifs with hcontains
    · have hnone : '{' ∉ template.toList := by simpa using hcontains
      rw [replaced_of_not_mem hnone]
    · rfl

end Acs
