import LayerChain.Proofs.Chain.Building
import LayerChain.Proofs.Chain.Positions
import Mathlib.Data.List.InsertIdx

/-!
# Shapes in closed form

A layer sets the shape that leaves it, or it passes on the shape that enters it
(`Layer.outputShape_eq`). So the shape behind a position is the one that was set last up to there,
and where none was set, it is the one that enters the chain (`Chain.exists_isLastSet`). No shape
depends on a layer behind it, which is why an edit of a layer leaves the shapes before it alone
(`Chain.take_shapes_of_apply`).
-/

namespace LayerChain

/-- A setting gives a size iff it is an integer that is not negative, and then it gives that
integer. -/
lemma Settings.dimension?_eq_some_iff {settings : Settings} {key : String} {m : UInt64} :
    settings.dimension? key = some m ↔
      ∃ n : Int64, settings.get? key = some (.int n) ∧ (m.toNat : Int) = n.toInt := by
  have hint : settings.dimension? key = some m ↔
      ∃ n, settings.get? key = some (.int n) ∧ 0 ≤ n.toInt ∧ UInt64.ofNat n.toInt.toNat = m := by
    rw [dimension?, int?]
    cases settings.get? key with
    | none => simp
    | some v => cases v <;> simp [SettingValue.int?]
  have hsize : ∀ n : Int64, 0 ≤ n.toInt ∧ UInt64.ofNat n.toInt.toNat = m ↔
      (m.toNat : Int) = n.toInt := by
    intro n
    have hbound := n.toInt_lt
    have hmax : UInt64.size = 18446744073709551616 := rfl
    rw [← UInt64.toNat_inj, UInt64.toNat_ofNat_of_lt' (by omega)]
    omega
  simp only [hint, hsize]

/-! ## Layers -/

namespace Layer

/-- A layer sets the shape that leaves it: it flattens, or it has the size in the setting that its
kind has for it. -/
inductive Sets (layer : Layer) : Shape → Prop where
  | flatten (kind_eq : layer.kind = .flatten) : Sets layer (.scalar 128)
  | dense {n : Int64} {m : UInt64} (kind_eq : layer.kind = .dense)
    (setting : layer.settings.get? "outFeatures" = some (.int n))
    (size : (m.toNat : Int) = n.toInt) : Sets layer (.scalar m)
  | attention {n : Int64} {m : UInt64} (kind_eq : layer.kind = .multiHeadAttention)
    (setting : layer.settings.get? "embedDim" = some (.int n))
    (size : (m.toNat : Int) = n.toInt) : Sets layer (.scalar m)
  | convolution {n : Int64} {m : UInt64} (kind_eq : layer.kind = .spatialConv)
    (setting : layer.settings.get? "outChannels" = some (.int n))
    (size : (m.toNat : Int) = n.toInt) : Sets layer (.spatial m)

/-- The shape that a layer sets, if it sets one. -/
def setShape? (layer : Layer) : Option Shape :=
  match layer.descriptor.transfer with
  | .scalar key => (layer.settings.dimension? key).map .scalar
  | .spatial key => (layer.settings.dimension? key).map .spatial
  | .identity => none
  | .placeholder n => some (.scalar n)

variable {layer : Layer} {shape shape' incoming : Shape}

/-- The shape that enters a layer passes through if the layer sets none. -/
lemma outputShape_eq (layer : Layer) (incoming : Shape) :
    layer.outputShape incoming = layer.setShape?.getD incoming := by
  rw [outputShape, setShape?]
  cases layer.descriptor.transfer <;> rfl

lemma setShape?_eq_some_iff : layer.setShape? = some shape ↔ layer.Sets shape := by
  have htransfer : layer.descriptor.transfer = (Catalog.describe layer.kind).transfer := rfl
  constructor
  · intro h
    rw [setShape?, htransfer] at h
    cases hkind : layer.kind with
    | dense =>
      rw [hkind] at h
      obtain ⟨m, hm, rfl⟩ := Option.map_eq_some_iff.1 h
      obtain ⟨n, hsetting, hsize⟩ := Settings.dimension?_eq_some_iff.1 hm
      exact .dense hkind hsetting hsize
    | spatialConv =>
      rw [hkind] at h
      obtain ⟨m, hm, rfl⟩ := Option.map_eq_some_iff.1 h
      obtain ⟨n, hsetting, hsize⟩ := Settings.dimension?_eq_some_iff.1 hm
      exact .convolution hkind hsetting hsize
    | multiHeadAttention =>
      rw [hkind] at h
      obtain ⟨m, hm, rfl⟩ := Option.map_eq_some_iff.1 h
      obtain ⟨n, hsetting, hsize⟩ := Settings.dimension?_eq_some_iff.1 hm
      exact .attention hkind hsetting hsize
    | flatten =>
      rw [hkind] at h
      cases h
      exact .flatten hkind
    | spatialBatchNorm =>
      rw [hkind] at h
      cases h
    | dropout =>
      rw [hkind] at h
      cases h
    | spatialMaxPool =>
      rw [hkind] at h
      cases h
  · intro h
    rw [setShape?, htransfer]
    cases h with
    | flatten kind_eq =>
      rw [kind_eq]
      rfl
    | dense kind_eq setting size =>
      rw [kind_eq]
      exact Option.map_eq_some_iff.2 ⟨_, Settings.dimension?_eq_some_iff.2 ⟨_, setting, size⟩, rfl⟩
    | attention kind_eq setting size =>
      rw [kind_eq]
      exact Option.map_eq_some_iff.2 ⟨_, Settings.dimension?_eq_some_iff.2 ⟨_, setting, size⟩, rfl⟩
    | convolution kind_eq setting size =>
      rw [kind_eq]
      exact Option.map_eq_some_iff.2 ⟨_, Settings.dimension?_eq_some_iff.2 ⟨_, setting, size⟩, rfl⟩

lemma Sets.unique (h : layer.Sets shape) (h' : layer.Sets shape') : shape = shape' :=
  Option.some.inj ((setShape?_eq_some_iff.2 h).symm.trans (setShape?_eq_some_iff.2 h'))

lemma Sets.outputShape_eq (h : layer.Sets shape) (incoming : Shape) :
    layer.outputShape incoming = shape := by
  rw [Layer.outputShape_eq, setShape?_eq_some_iff.2 h]
  rfl

lemma outputShape_of_not_sets (h : ∀ shape, ¬layer.Sets shape) (incoming : Shape) :
    layer.outputShape incoming = incoming := by
  have hnone : layer.setShape? = none :=
    Option.eq_none_iff_forall_ne_some.2 fun shape hset => h shape (setShape?_eq_some_iff.1 hset)
  rw [outputShape_eq, hnone]
  rfl

end Layer

/-! ## Shapes of lists of layers -/

/-- What leaves a layer comes from what enters it. -/
lemma getElem?_shapesAfter (incoming : Shape) {layers : List Layer} {i : Nat} {layer : Layer}
    (h : layers[i]? = some layer) :
    ∃ before, (incoming :: shapesAfter incoming layers)[i]? = some before ∧
      (shapesAfter incoming layers)[i]? = some (layer.outputShape before) := by
  induction layers generalizing incoming i with
  | nil => cases h
  | cons first rest ih =>
    cases i with
    | zero =>
      cases h
      exact ⟨incoming, rfl, rfl⟩
    | succ i => exact ih _ h

/-- The first shapes are those of the first layers. -/
lemma take_shapesAfter (incoming : Shape) (layers : List Layer) (n : Nat) :
    (shapesAfter incoming layers).take n = shapesAfter incoming (layers.take n) := by
  induction layers generalizing incoming n with
  | nil => simp [shapesAfter]
  | cons first rest ih =>
    cases n with
    | zero => rfl
    | succ n => rw [shapesAfter, List.take_succ_cons, ih, List.take_succ_cons, shapesAfter]

/-- The id of the layer that an edit is about, if it is about one layer of the chain. -/
def Edit.layerId? : Edit → Option Nat
  | .update _ id _ | .remove id | .place id _ => some id
  | .append _ | .setInputDimension _ | .repropagate => none

namespace Chain

variable {chain next : Chain} {shape shape' : Shape} {i : Nat}

@[simp] lemma length_shapes (chain : Chain) : chain.shapes.length = chain.size :=
  length_shapesAfter _ _

/-! ## The shape that was set last -/

/-- Up to a position, a shape is the one that was set last: no layer behind the one that sets it
sets another. If no layer sets a shape, it is the one that enters the chain. -/
inductive IsLastSet (chain : Chain) (i : Nat) (shape : Shape) : Prop where
  | layer {j : Nat} {layer : Layer} (le : j ≤ i) (at_eq : chain.at? j = some layer)
    (sets : layer.Sets shape)
    (last : ∀ k l s, j < k → k ≤ i → chain.at? k = some l → ¬l.Sets s)
  | input (shape_eq : shape = .scalar chain.inputDimension)
    (none_sets : ∀ k l s, k ≤ i → chain.at? k = some l → ¬l.Sets s)

lemma IsLastSet.unique (h : chain.IsLastSet i shape) (h' : chain.IsLastSet i shape') :
    shape = shape' := by
  cases h with
  | @layer j l le at_eq sets last =>
    cases h' with
    | @layer j' l' le' at_eq' sets' last' =>
      rcases Nat.lt_trichotomy j j' with hlt | rfl | hlt
      · exact absurd sets' (last j' l' shape' hlt le' at_eq')
      · obtain rfl := Option.some.inj (at_eq.symm.trans at_eq')
        exact sets.unique sets'
      · exact absurd sets (last' j l shape hlt le at_eq)
    | input shape_eq' none_sets' => exact absurd sets (none_sets' j l shape le at_eq)
  | input shape_eq none_sets =>
    cases h' with
    | @layer j' l' le' at_eq' sets' last' =>
      exact absurd sets' (none_sets j' l' shape' le' at_eq')
    | input shape_eq' none_sets' => rw [shape_eq, shape_eq']

/-- A layer that sets no shape leaves the one that was set last before it. -/
lemma IsLastSet.succ (h : chain.IsLastSet i shape)
    (hnot : ∀ l s, chain.at? (i + 1) = some l → ¬l.Sets s) : chain.IsLastSet (i + 1) shape := by
  cases h with
  | layer le at_eq sets last =>
    refine .layer (Nat.le_succ_of_le le) at_eq sets fun k l s hlt hle hat => ?_
    rcases Nat.lt_or_eq_of_le hle with hle | rfl
    · exact last k l s hlt (Nat.le_of_lt_succ hle) hat
    · exact hnot l s hat
  | input shape_eq none_sets =>
    refine .input shape_eq fun k l s hle hat => ?_
    rcases Nat.lt_or_eq_of_le hle with hle | rfl
    · exact none_sets k l s (Nat.le_of_lt_succ hle) hat
    · exact hnot l s hat

lemma isLastSet_self {layer : Layer} (hat : chain.at? i = some layer) (h : layer.Sets shape) :
    chain.IsLastSet i shape :=
  .layer (Nat.le_refl i) hat h fun k l s hlt hle => by omega

/-- The shape behind a position is the one that was set last. -/
theorem exists_isLastSet (h : i < chain.size) :
    ∃ shape, chain.shapes[i]? = some shape ∧ chain.IsLastSet i shape := by
  induction i using Nat.strongRecOn with
  | ind i ih =>
    have hat : chain.at? i = some chain.layers[i] := List.getElem?_eq_getElem h
    obtain ⟨before, hbefore, hshape⟩ := getElem?_shapesAfter chain.inputShape hat
    refine ⟨_, hshape, ?_⟩
    by_cases hsets : ∃ shape, chain.layers[i].Sets shape
    · obtain ⟨shape, hsets⟩ := hsets
      rw [hsets.outputShape_eq]
      exact isLastSet_self hat hsets
    · -- the shape passes through, and it was set last before this position, or it is the input
      have hnot : ∀ l s, chain.at? i = some l → ¬l.Sets s := by
        intro l s hl hs
        obtain rfl := Option.some.inj (hat.symm.trans hl)
        exact hsets ⟨s, hs⟩
      rw [Layer.outputShape_of_not_sets fun s => hnot _ s hat]
      cases i with
      | zero =>
        cases hbefore
        refine .input rfl fun k l s hle => ?_
        rw [Nat.le_zero.1 hle]
        exact hnot l s
      | succ i =>
        obtain ⟨shape, hget, hlast⟩ := ih i (Nat.lt_succ_self i) (Nat.lt_of_succ_lt h)
        obtain rfl := Option.some.inj (hget.symm.trans hbefore)
        exact hlast.succ hnot

/-! ## Edits -/

/-- An edit of the layer at a position keeps the input and the layers before the position. -/
lemma take_layers_of_apply {edit : Edit} {id : Nat} (hid : edit.layerId? = some id)
    (found : chain.position? id = some i) (h : chain.apply edit = .ok next) :
    next.inputDimension = chain.inputDimension ∧ next.layers.take i = chain.layers.take i := by
  have hmodify : ∀ change : Layer → Layer,
      (chain.layers.modify i change).take i = chain.layers.take i := by
    intro change
    rw [List.take_modify, List.modify_eq_self (List.length_take_le i chain.layers)]
  cases edit with
  | append kind => cases hid
  | setInputDimension n => cases hid
  | repropagate => cases hid
  | update strict _ patch =>
    cases hid
    have hu := update_of_apply h
    cases (update_of_position found patch).symm.trans hu
    exact ⟨rfl, hmodify _⟩
  | remove _ =>
    cases hid
    cases (remove_of_position found).symm.trans h
    exact ⟨rfl, List.take_eraseIdx_eq_take_of_le chain.layers i i (Nat.le_refl i)⟩
  | place _ placement =>
    cases hid
    cases (place_of_position found placement).symm.trans h
    exact ⟨rfl, hmodify _⟩

/-- An edit of the layer at a position leaves the shapes before it alone. -/
theorem take_shapes_of_apply {edit : Edit} {id : Nat} (hid : edit.layerId? = some id)
    (found : chain.position? id = some i) (h : chain.apply edit = .ok next) :
    next.shapes.take i = chain.shapes.take i := by
  obtain ⟨hinput, htake⟩ := take_layers_of_apply hid found h
  have hshape : next.inputShape = chain.inputShape := congrArg Shape.scalar hinput
  rw [shapes, shapes, take_shapesAfter, take_shapesAfter, htake, hshape]

/-- A layer that is appended leaves the shapes before it alone. -/
lemma take_shapes_append (chain : Chain) (kind : Kind) :
    (chain.append kind).shapes.take chain.size = chain.shapes := by
  have hlayers : (chain.append kind).layers.take chain.size = chain.layers := List.take_left
  rw [shapes, take_shapesAfter, hlayers]
  rfl

/-- The shape that leaves the chain is the last one, or the one that enters a chain without
layers. -/
lemma outputShape_cases (chain : Chain) :
    (chain.size = 0 → chain.outputShape = .scalar chain.inputDimension) ∧
      ∀ i, i + 1 = chain.size → chain.shapes[i]? = some chain.outputShape := by
  constructor
  · intro hsize
    have hshapes : chain.shapes = [] := List.eq_nil_of_length_eq_zero (by rw [length_shapes, hsize])
    rw [outputShape, hshapes]
    rfl
  · intro i hi
    have hlt : i < chain.shapes.length := by
      rw [length_shapes]
      omega
    have hlast : chain.shapes.getLast? = chain.shapes[i]? := by
      rw [List.getLast?_eq_getElem?, length_shapes, ← hi, Nat.add_sub_cancel]
    rw [outputShape, List.getLastD_eq_getLast?, hlast, List.getElem?_eq_getElem hlt]
    rfl

/-- The shapes of a chain in closed form. There is one for each layer, the one that was set last up
to there, and the last of them leaves the chain. So an edit of the layer at a position leaves the
shapes before it alone, and appending leaves all shapes alone. -/
theorem shapes_closed_form (chain : Chain) :
    (∀ i shape, chain.shapes[i]? = some shape ↔ i < chain.size ∧ chain.IsLastSet i shape) ∧
    chain.shapes.length = chain.size ∧
    (chain.size = 0 → chain.outputShape = .scalar chain.inputDimension) ∧
    (∀ i, i + 1 = chain.size → chain.shapes[i]? = some chain.outputShape) ∧
    (∀ edit id i next, edit.layerId? = some id → chain.position? id = some i →
      chain.apply edit = .ok next → next.shapes.take i = chain.shapes.take i) ∧
    ∀ kind, (chain.append kind).shapes.take chain.size = chain.shapes := by
  obtain ⟨hempty, hlast⟩ := outputShape_cases chain
  refine ⟨fun i shape => ⟨fun h => ?_, fun ⟨hlt, hset⟩ => ?_⟩, length_shapes chain, hempty, hlast,
    fun _ _ _ _ => take_shapes_of_apply, take_shapes_append chain⟩
  · have hlt : i < chain.size := by
      rw [← length_shapes]
      exact (List.getElem?_eq_some_iff.1 h).1
    obtain ⟨shape', h', hset⟩ := exists_isLastSet hlt
    obtain rfl := Option.some.inj (h.symm.trans h')
    exact ⟨hlt, hset⟩
  · obtain ⟨shape', h', hset'⟩ := exists_isLastSet hlt
    rw [h', hset.unique hset']

/-- Behind a convolution, a dropout layer and a flattening layer: the dropout layer passes on the
channels of the convolution, and they stay what they are when the flattening layer is removed. -/
theorem shapes_closed_form_on_convolution :
    let chain := built 3 [.spatialConv, .dropout, .flatten]
    chain.IsLastSet 1 (.spatial 32) ∧
      ∃ next, chain.apply (.remove 3) = .ok next ∧ next.shapes.take 2 = chain.shapes.take 2 := by
  intro chain
  obtain ⟨hshapes, -, -, -, hedit, -⟩ := shapes_closed_form chain
  have hspatial : chain.shapes[1]? = some (.spatial 32) := by decide
  exact ⟨((hshapes 1 (.spatial 32)).1 hspatial).2, _, rfl, hedit (.remove 3) 3 2 _ rfl rfl rfl⟩

end Chain

end LayerChain
