import LayerChain.Error

/-!
# Layer kinds

The kinds of layers that a chain can hold, in the order of the catalog, and their names.
-/

namespace LayerChain

/-- A kind of layer. -/
inductive Kind where
  | dense
  | spatialConv
  | spatialBatchNorm
  | dropout
  | multiHeadAttention
  | spatialMaxPool
  | flatten
deriving DecidableEq, Repr

namespace Kind

/-- Every kind, in the order of the catalog. -/
def all : List Kind :=
  [dense, spatialConv, spatialBatchNorm, dropout, multiHeadAttention, spatialMaxPool, flatten]

/-- The name of a kind. -/
def name : Kind → String
  | dense => "Dense"
  | spatialConv => "SpatialConv"
  | spatialBatchNorm => "SpatialBatchNorm"
  | dropout => "Dropout"
  | multiHeadAttention => "MultiHeadAttention"
  | spatialMaxPool => "SpatialMaxPool"
  | flatten => "Flatten"

/-- The kind of a name. -/
def ofName? (name : String) : Option Kind := all.find? fun kind => kind.name == name

/-- The kind of a name that a user gave. -/
def ofName (name : String) : Except Error Kind :=
  match ofName? name with
  | some kind => .ok kind
  | none => .error (.unknownKind name)

/-- Every kind is in the catalog. -/
theorem mem_all (kind : Kind) : kind ∈ all := by cases kind <;> decide

/-- A kind is found by its name. -/
@[simp] theorem ofName?_name (kind : Kind) : ofName? kind.name = some kind := by
  cases kind <;> decide

end Kind

end LayerChain
