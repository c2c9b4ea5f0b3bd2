import LayerChain.Chain.Layer
import LayerChain.Note

/-!
# Shapes

What flows between layers: a feature count, or a channel count of a spatial tensor, whose extent is
not tracked. `Layer.outputShape` says what leaves a layer, `Kind.inferred` what a layer's automatic
setting becomes, and `shapesAfter` follows the shape through a list of layers.
-/

namespace LayerChain

/-- The shape of a tensor, as far as it is tracked. -/
inductive Shape where
  | scalar (features : UInt64)
  | spatial (channels : UInt64)
deriving DecidableEq, Repr

namespace Shape

/-- The feature count or the channel count. -/
def size : Shape → UInt64
  | scalar n => n
  | spatial n => n

/-- Whether the shape is spatial. -/
def isSpatial : Shape → Bool
  | scalar _ => false
  | spatial _ => true

/-- The text of a shape. -/
def display : Shape → String
  | scalar n => "Scalar(" ++ toString n.toNat ++ ")"
  | spatial n => "Spatial(channels=" ++ toString n.toNat ++ ")"

end Shape

/-- Reads a size from a document. -/
def sizeDecoder : Json.Decoder UInt64 := fun depth d =>
  (Json.Decoder.nat UInt64.size "usize" depth d).map UInt64.ofNat

/-- A size as a setting. Settings are signed, so a size beyond the greatest integer becomes that
integer. -/
def clampSize (n : UInt64) : Int64 :=
  if n.toNat ≤ Int64.maxValue.toInt.toNat then Int64.ofNat n.toNat else Int64.maxValue

/-- The size that a setting gives: an integer that is not negative. -/
def Settings.dimension? (settings : Settings) (key : String) : Option UInt64 :=
  (settings.int? key).bind fun n =>
    if 0 ≤ n.toInt then some (UInt64.ofNat n.toInt.toNat) else none

namespace Layer

/-- The shape that leaves a layer. Where the rule needs a setting that gives no size, the shape
that enters passes through. -/
def outputShape (layer : Layer) (incoming : Shape) : Shape :=
  match layer.descriptor.transfer with
  | .scalar key => ((layer.settings.dimension? key).map .scalar).getD incoming
  | .spatial key => ((layer.settings.dimension? key).map .spatial).getD incoming
  | .identity => incoming
  | .placeholder n => .scalar n

end Layer

namespace Kind

/-- The settings inferred for a layer of this kind from the shape that enters it: its automatic
setting, if it has one, becomes the size of that shape. -/
def inferred (kind : Kind) (incoming : Shape) : Settings :=
  match (Catalog.describe kind).autoField? with
  | none => .empty
  | some key => Settings.empty.insert key (.int (clampSize incoming.size))

/-- Whether a kind works on features, so that a spatial shape before it is doubtful. -/
def wantsFeatures : Kind → Bool
  | dense | multiHeadAttention => true
  | _ => false

/-- What inference reports: a spatial shape before a layer that works on features. -/
def inferenceNotes (kind : Kind) (incoming : Shape) : List Note :=
  match (Catalog.describe kind).autoField? with
  | some key =>
    if kind.wantsFeatures && incoming.isSpatial then
      [.warn (kind.name ++ " fed by a spatial shape; using channel count " ++
        toString incoming.size.toNat ++ " as " ++ key)]
    else []
  | none => []

end Kind

/-- A layer with its automatic setting inferred from the shape that enters it. -/
def Layer.refresh (layer : Layer) (incoming : Shape) : Layer :=
  { layer with settings := layer.settings.merge (layer.kind.inferred incoming) }

/-- Whether inference would change a layer's automatic setting. -/
def Layer.isStale (layer : Layer) (incoming : Shape) : Bool :=
  (layer.kind.inferred incoming).entries.any fun (key, value) =>
    layer.settings.get? key != some value

/-- The shapes that leave the layers of a list, one after the other. -/
def shapesAfter (incoming : Shape) : List Layer → List Shape
  | [] => []
  | layer :: rest => layer.outputShape incoming :: shapesAfter (layer.outputShape incoming) rest

@[simp] theorem length_shapesAfter (incoming : Shape) (layers : List Layer) :
    (shapesAfter incoming layers).length = layers.length := by
  induction layers generalizing incoming with
  | nil => rfl
  | cons layer rest ih => simp [shapesAfter, ih]

end LayerChain
