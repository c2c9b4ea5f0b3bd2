import LayerChain.Source.Component

/-!
# Generated source

The source of a network module. Its constructor declares the components of the model and its
forward pass applies them, both in order; a last line makes an instance. `moduleLines` is the
layout, and `Generator.generate` joins it with the components of a model.
-/

namespace LayerChain

/-- The class name of generated modules, unless another is chosen. -/
def defaultClassName : String := "GeneratedModel"

/-- The indentation of one level. -/
def indent : String := "    "

/-- The lines of a module of the given components. -/
def moduleLines (className : String) (components : List Component) : List String :=
  [ "import torch",
    "import torch.nn as nn",
    "",
    "",
    "class " ++ className ++ "(nn.Module):",
    indent ++ "def __init__(self):",
    indent ++ indent ++ "super().__init__()"] ++
  components.map (fun c => indent ++ indent ++ c.declaration) ++
  [ "",
    indent ++ "def forward(self, x):"] ++
  components.map (fun c => indent ++ indent ++ c.application) ++
  [ indent ++ indent ++ "return x",
    "",
    "",
    "model = " ++ className ++ "()"]

/-- The text of a list of lines, each of which is ended by a line break. -/
def textOfLines (lines : List String) : String := String.join (lines.map fun line => line ++ "\n")

/-- Generates the source of models; the class name is all there is to choose. -/
structure Generator where
  className : String
deriving DecidableEq, Repr

namespace Generator

instance : Inhabited Generator := ⟨⟨defaultClassName⟩⟩

/-- The source of a model. -/
def generate (generator : Generator) (model : Model) : Except Error String :=
  model.components.map fun components => textOfLines (moduleLines generator.className components)

/-- What generating the source of a model reports. -/
def notes (_ : Generator) (model : Model) : List Note := Model.notesFrom 0 model.layers

/-- What tells this generator from others. -/
def fingerprint (generator : Generator) : String := "pytorch:" ++ generator.className

end Generator

end LayerChain
