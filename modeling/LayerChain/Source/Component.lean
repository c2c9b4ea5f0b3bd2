import LayerChain.Model.Basic
import LayerChain.Source.PythonLiteral

/-!
# Components

A generated module consists of components: attributes that its constructor declares and its
forward pass applies, in order. Each layer of a model gives one component for itself and, if it
has an activation, one for that. `Model.components` lists them; the components of a layer depend
on its position and on the layer alone.
-/

namespace LayerChain

/-- An attribute of a generated module. -/
structure Component where
  name : String
  /-- The class of the attribute, in the module `nn`. -/
  className : String
  /-- The arguments of its constructor: keywords and literals. -/
  arguments : List (String × String)
  /-- Whether the forward pass applies it. One that takes several inputs and gives several results
  does not fit there and is only mentioned. -/
  isApplied : Bool
deriving DecidableEq

namespace Component

/-- The line that declares a component, without its indentation. -/
def declaration (c : Component) : String :=
  "self." ++ c.name ++ " = nn." ++ c.className ++ "(" ++
    ", ".intercalate (c.arguments.map fun (keyword, literal) => keyword ++ "=" ++ literal) ++ ")"

/-- The line that applies a component, without its indentation. -/
def application (c : Component) : String :=
  if c.isApplied then "x = self." ++ c.name ++ "(x)"
  else "# x, _ = self." ++ c.name ++ "(x, x, x)"

end Component

/-! ## The component of a layer -/

namespace Kind

/-- The class of a kind's components. -/
def className : Kind → String
  | dense => "Linear"
  | spatialConv => "Conv2d"
  | spatialBatchNorm => "BatchNorm2d"
  | dropout => "Dropout"
  | multiHeadAttention => "MultiheadAttention"
  | spatialMaxPool => "MaxPool2d"
  | flatten => "Flatten"

/-- Whether a kind's components turn one tensor into one tensor. -/
def isThreaded : Kind → Bool
  | multiHeadAttention => false
  | _ => true

end Kind

namespace Component

/-- The constructor's arguments for the declared settings that are present, in canonical order.
Activations and undeclared settings are no arguments. -/
def layerArguments (descriptor : Descriptor) (settings : Settings) : List (String × String) :=
  descriptor.fields.filterMap fun field =>
    if field.role = .activation then none
    else (settings.get? field.name).map fun v => (field.argument, PythonLiteral.ofValue v)

/-- The component for a layer of a kind at a position. -/
def ofLayer (position : Nat) (kind : Kind) (settings : Settings) : Component where
  name := (Catalog.describe kind).stem ++ toString position
  className := kind.className
  arguments := layerArguments (Catalog.describe kind) settings
  isApplied := kind.isThreaded

/-! ## The component of an activation -/

/-- The activation of a layer: a choice other than the one that means none, for a kind that has
one. -/
def activation? (kind : Kind) (settings : Settings) : Option String :=
  if (Catalog.describe kind).hasActivation then
    match (settings.get? Catalog.activationKey).bind SettingValue.choice? with
    | some name => if name = Catalog.noActivation then none else some name
    | none => none
  else none

/-- Whether a character may start an identifier. -/
def startsIdentifier (c : Char) : Bool := c.isAlpha || c == '_'

/-- Whether a character may stand in an identifier. -/
def continuesIdentifier (c : Char) : Bool := c.isAlphanum || c == '_'

/-- Whether a name is an identifier: ASCII letters, digits and underscores, and no digit first. -/
def isIdentifier (name : String) : Bool :=
  match name.toList with
  | [] => false
  | c :: rest => startsIdentifier c && rest.all continuesIdentifier

/-- The constructor's arguments of an activation: those that normalise need a dimension. -/
def activationArguments (name : String) : List (String × String) :=
  if name = "Softmax" ∨ name = "LogSoftmax" then [("dim", "1")] else []

/-- The component for an activation after the layer at a position. -/
def ofActivation (position : Nat) (name : String) : Component where
  name := "act" ++ toString position
  className := name
  arguments := activationArguments name
  isApplied := true

end Component

/-! ## The components of a model -/

namespace ModelLayer

/-- The components of a layer at a position. -/
def components (layer : ModelLayer) (position : Nat) : Except Error (List Component) :=
  match Kind.ofName? layer.kind with
  | none => .error (.unsupportedKind layer.kind)
  | some kind =>
    let own := Component.ofLayer position kind layer.settings
    match Component.activation? kind layer.settings with
    | none => .ok [own]
    | some name =>
      if Component.isIdentifier name then .ok [own, .ofActivation position name]
      else .error (.invalidActivation name position)

/-- What generating a layer's components reports: that one is declared but not applied. -/
def notes (layer : ModelLayer) (position : Nat) : List Note :=
  match Kind.ofName? layer.kind with
  | some kind =>
    if kind.isThreaded then []
    else [.warn ((Component.ofLayer position kind layer.settings).name ++
      " is declared but not applied in forward()")]
  | none => []

end ModelLayer

namespace Model

/-- The components of a list of layers that starts at a position. -/
def componentsFrom (position : Nat) : List ModelLayer → Except Error (List Component)
  | [] => .ok []
  | layer :: rest => do
    let first ← layer.components position
    let others ← componentsFrom (position + 1) rest
    return first ++ others

/-- The components of a model in order, or the error of the first layer that has none. -/
def components (model : Model) : Except Error (List Component) :=
  componentsFrom 0 model.layers

/-- What generating the components of a list of layers reports, up to the first error. -/
def notesFrom (position : Nat) : List ModelLayer → List Note
  | [] => []
  | layer :: rest =>
    layer.notes position ++
      match layer.components position with
      | .ok _ => notesFrom (position + 1) rest
      | .error _ => []

end Model

end LayerChain
