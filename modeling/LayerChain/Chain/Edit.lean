import LayerChain.Chain.Basic

/-!
# Edits

An `Edit` is one of the ways to change a chain, as a value. `Chain.apply` carries it out, and
`Chain.editNotes` says what a successful edit reports.
-/

namespace LayerChain

/-- A change of a chain. -/
inductive Edit where
  | append (kind : Kind)
  /-- Merges a patch into the settings of a layer; a strict update takes declared keys only. -/
  | update (strict : Bool) (id : Nat) (patch : Settings)
  | remove (id : Nat)
  | setInputDimension (inputDimension : UInt64)
  | place (id : Nat) (placement : Json)
  | repropagate

namespace Chain

/-- Carries out an edit. -/
def apply (chain : Chain) : Edit → Except Error Chain
  | .append kind => .ok (chain.append kind)
  | .update strict id patch =>
    if strict then chain.updateStrict id patch else chain.update id patch
  | .remove id => chain.remove id
  | .setInputDimension n => .ok (chain.setInputDimension n)
  | .place id placement => chain.place id placement
  | .repropagate => .ok chain.repropagate

/-! ## Notes -/

/-- What inference reports for each layer in turn, and how many layers it changes. -/
def refreshNotes (incoming : Shape) : List Layer → List Note × Nat
  | [] => ([], 0)
  | layer :: rest =>
    let (notes, changed) := refreshNotes ((layer.refresh incoming).outputShape incoming) rest
    (layer.kind.inferenceNotes incoming ++ notes,
      if layer.isStale incoming then changed + 1 else changed)

/-- What a successful edit reports. -/
def editNotes (chain : Chain) : Edit → List Note
  | .append kind =>
    kind.inferenceNotes chain.outputShape ++ [
      .debug ("Appended " ++ kind.name ++ " as layer " ++ toString chain.nextId ++
        " at position " ++ toString chain.size ++ " (incoming " ++ chain.outputShape.display ++
        ")")]
  | .update _ id patch => [
      .debug ("Updated " ++ toString patch.size ++ " setting(s) on layer " ++ toString id)]
  | .remove id =>
    match chain.get? id, chain.position? id with
    | some layer, some position => [
        .debug ("Removed " ++ layer.kind.name ++ " layer " ++ toString id ++
          " from position " ++ toString position)]
    | _, _ => []
  | .setInputDimension n => [
      .debug ("Input dimension " ++ toString chain.inputDimension.toNat ++ " -> " ++
        toString n.toNat)]
  | .place _ _ => []
  | .repropagate =>
    let (notes, changed) := refreshNotes chain.inputShape chain.layers
    notes ++ [
      .debug ("Repropagated " ++ toString chain.size ++ " layer(s), " ++ toString changed ++
        " changed")]

end Chain

end LayerChain
