import LayerChain.Proofs.Chain.Consistency
import Mathlib.Data.List.Induction

/-!
# Chains built by appending

Automatic settings are inferred in two ways: for one layer when it is appended, and for all layers
by repropagation. The two agree. A layer that is appended and then inferred anew is the one that
would have been appended to the repropagated chain (`Chain.repropagate_append`), so a chain that was
built by appending is consistent as it is (`Chain.repropagate_built`). Its blank does not depend on
the shapes on the way, so with another input it is repropagated to the chain of that input
(`Chain.blank_built`).
-/

namespace LayerChain

namespace Chain

/-- The chain that is built by appending some kinds one after the other. -/
def built (inputDimension : UInt64) (kinds : List Kind) : Chain :=
  kinds.foldl append (new inputDimension)

lemma built_concat (inputDimension : UInt64) (kinds : List Kind) (kind : Kind) :
    built inputDimension (kinds ++ [kind]) = (built inputDimension kinds).append kind := by
  rw [built, List.foldl_append]
  rfl

/-! ## Appending and repropagating -/

/-- Inference goes on behind some layers with the shape that leaves them. -/
lemma refreshFrom_append (incoming : Shape) (layers more : List Layer) :
    refreshFrom incoming (layers ++ more) =
      refreshFrom incoming layers ++
        refreshFrom ((shapesAfter incoming (refreshFrom incoming layers)).getLastD incoming)
          more := by
  induction layers generalizing incoming with
  | nil => rfl
  | cons first rest ih =>
    rw [List.cons_append, refreshFrom, refreshFrom, ih, shapesAfter, List.getLastD_cons]
    rfl

/-- What a chain infers for a new layer is forgotten when the layer is inferred anew. -/
lemma refresh_newLayer (chain other : Chain) (hid : other.nextId = chain.nextId) (kind : Kind) :
    (chain.newLayer kind).refresh other.outputShape = other.newLayer kind := by
  rw [newLayer_eq_refresh, newLayer_eq_refresh, Layer.refresh_refresh, hid]

/-- Appending a layer and repropagating can be done in either order. -/
theorem repropagate_append (chain : Chain) (kind : Kind) :
    (chain.append kind).repropagate = chain.repropagate.append kind := by
  have hlayers : refreshFrom chain.inputShape (chain.layers ++ [chain.newLayer kind]) =
      refreshFrom chain.inputShape chain.layers ++ [chain.repropagate.newLayer kind] := by
    rw [refreshFrom_append, ← refresh_newLayer chain chain.repropagate rfl kind]
    rfl
  exact congrArg (fun ls => { chain.append kind with layers := ls }) hlayers

/-- A chain that was built by appending is left alone by repropagation. -/
theorem repropagate_built (inputDimension : UInt64) (kinds : List Kind) :
    (built inputDimension kinds).repropagate = built inputDimension kinds := by
  induction kinds using List.reverseRecOn with
  | nil => rfl
  | append_singleton kinds kind ih => rw [built_concat, repropagate_append, ih]

/-! ## Other inputs -/

/-- The blank of a new layer does not depend on the shape that enters it. -/
lemma blank_newLayer (chain : Chain) (kind : Kind) : (chain.newLayer kind).blank =
    Layer.blank ⟨chain.nextId, kind, (Catalog.describe kind).defaults, none⟩ := by
  rw [newLayer_eq_refresh, Layer.blank_refresh]

/-- What appending a layer does to the blank can be told from the blank. -/
lemma blank_append (chain : Chain) (kind : Kind) : (chain.append kind).blank =
    { chain.blank with
      layers := chain.blank.layers ++
        [Layer.blank ⟨chain.blank.nextId, kind, (Catalog.describe kind).defaults, none⟩]
      nextId := min (chain.blank.nextId + 1) maxCounter } := by
  rw [blank, append, List.map_append, List.map_singleton, blank_newLayer]
  rfl

lemma blank_append_setInputDimension (chain : Chain) (kind : Kind) (inputDimension : UInt64) :
    ((chain.append kind).setInputDimension inputDimension).blank =
      ((chain.setInputDimension inputDimension).append kind).blank := by
  have hset : ((chain.append kind).setInputDimension inputDimension).blank =
      { (chain.append kind).blank with inputDimension } := rfl
  rw [hset, blank_append, blank_append]
  rfl

/-- The blank of a chain that was built by appending shows its input, but nothing that was inferred
from it. -/
lemma blank_built (inputDimension other : UInt64) (kinds : List Kind) :
    ((built inputDimension kinds).setInputDimension other).blank = (built other kinds).blank := by
  induction kinds using List.reverseRecOn with
  | nil => rfl
  | append_singleton kinds kind ih =>
    rw [built_concat, built_concat, blank_append_setInputDimension, blank_append, ih,
      ← blank_append]

/-- What is inferred for a layer when it is appended agrees with repropagation. Appending to any
chain and repropagating can be done in either order, with the same id for the new layer. So a chain
that was built by appending is left alone by repropagation, and if its input is changed, then
repropagation gives what would have been built from the new input. -/
theorem append_agrees_with_repropagation :
    (∀ (chain : Chain) (kind : Kind),
      (chain.append kind).repropagate = chain.repropagate.append kind ∧
      chain.outcome (.append kind) = chain.repropagate.outcome (.append kind)) ∧
    ∀ (inputDimension : UInt64) (kinds : List Kind),
      (built inputDimension kinds).repropagate = built inputDimension kinds ∧
      ∀ other, ((built inputDimension kinds).setInputDimension other).repropagate =
        built other kinds := by
  refine ⟨fun chain kind => ⟨repropagate_append chain kind, rfl⟩, fun inputDimension kinds =>
    ⟨repropagate_built inputDimension kinds, fun other => ?_⟩⟩
  calc ((built inputDimension kinds).setInputDimension other).repropagate
    _ = (built other kinds).repropagate :=
      repropagate_eq_of_blank_eq (blank_built inputDimension other kinds)
    _ = built other kinds := repropagate_built other kinds

end Chain

end LayerChain
