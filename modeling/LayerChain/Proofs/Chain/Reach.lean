import LayerChain.Proofs.Chain.Shapes
import Mathlib.Data.Nat.Find

/-!
# How far a change reaches

A change of a consistent chain leaves the chain consistent up to a position, and from there on it
would be consistent if another shape entered there (`Chain.Upstream.splits`). Repropagation goes on
with the shape that does enter there. It changes automatic settings only, and it changes nothing
behind a layer whose shape neither depends on what enters nor is inferred from it
(`Chain.getElem?_refreshFrom_of_cuts`). So a change reaches to the first such layer and no further
(`Chain.change_reaches_to`).
-/

namespace LayerChain

namespace Layer

/-- A layer cuts a chain: it flattens, or it is dense or a convolution and sets the shape that
leaves it. An attention sets its shape by its automatic setting, so it does not cut. -/
def Cuts (layer : Layer) : Prop := layer.kind ≠ .multiHeadAttention ∧ ∃ shape, layer.Sets shape

/-- A layer is another one up to the value of its automatic setting. -/
def SameButAuto (layer other : Layer) : Prop :=
  layer.KeepsOthers other ∧ other.settings.keys = layer.settings.keys

variable {layer : Layer} {shape incoming : Shape} {patch : Settings}

/-- A layer that cuts sets its shape whatever is inferred for it. -/
lemma sets_refresh (hkind : layer.kind ≠ .multiHeadAttention) (h : layer.Sets shape)
    (incoming : Shape) : (layer.refresh incoming).Sets shape := by
  have hothers := (layer.refilled_refresh incoming).keepsOthers.others
  cases h with
  | flatten kind_eq => exact .flatten kind_eq
  | attention kind_eq => exact absurd kind_eq hkind
  | dense kind_eq setting size =>
    have hauto : layer.descriptor.autoField? ≠ some "outFeatures" := by
      rw [descriptor, kind_eq]
      decide
    exact .dense kind_eq ((hothers _ hauto).trans setting) size
  | convolution kind_eq setting size =>
    have hauto : layer.descriptor.autoField? ≠ some "outChannels" := by
      rw [descriptor, kind_eq]
      decide
    exact .convolution kind_eq ((hothers _ hauto).trans setting) size

/-- What leaves a layer that cuts does not depend on what enters it, even if its automatic setting
is inferred from that. -/
lemma Cuts.outputShape_refresh (h : layer.Cuts) (first second : Shape) :
    (layer.refresh first).outputShape first = (layer.refresh second).outputShape second := by
  obtain ⟨hkind, shape, hsets⟩ := h
  rw [(sets_refresh hkind hsets first).outputShape_eq,
    (sets_refresh hkind hsets second).outputShape_eq]

/-- An update that does not set the automatic setting leaves it right. -/
lemma Inferred.updated (h : layer.Inferred incoming)
    (hopen : ∀ key, layer.descriptor.autoField? = some key → key ∉ patch.keys) :
    (layer.updated patch).Inferred incoming := by
  intro key hauto
  obtain ⟨n, hget, hn⟩ := h key hauto
  exact ⟨n, (Settings.get?_insertMany_of_notMem (hopen key hauto)).trans hget, hn⟩

lemma sameButAuto_refresh (h : layer.HasAuto) (incoming : Shape) :
    layer.SameButAuto (layer.refresh incoming) := by
  have hkeeps := (layer.refilled_refresh incoming).keepsOthers
  refine ⟨hkeeps, hkeeps.keys.trans ?_⟩
  cases hauto : layer.descriptor.autoField? with
  | none => rfl
  | some key => exact if_pos (h key hauto)

end Layer

namespace Chain

/-! ## Lists of layers -/

lemma sameButAuto_refreshFrom {layers : List Layer} (h : ∀ layer ∈ layers, layer.HasAuto)
    (incoming : Shape) : List.Forall₂ Layer.SameButAuto layers (refreshFrom incoming layers) := by
  induction layers generalizing incoming with
  | nil => exact .nil
  | cons first rest ih =>
    obtain ⟨hfirst, hrest⟩ := List.forall_mem_cons.1 h
    exact .cons (Layer.sameButAuto_refresh hfirst incoming) (ih hrest _)

/-- Where the layers of a list are left alone if one shape enters, then those behind a layer that
cuts are left alone whatever shape enters. -/
theorem getElem?_refreshFrom_of_cuts {before incoming : Shape} {layers : List Layer}
    (h : refreshFrom before layers = layers) {j k : Nat} {layer : Layer}
    (hat : layers[j]? = some layer) (hcuts : layer.Cuts) (hlt : j < k) :
    (refreshFrom incoming layers)[k]? = layers[k]? := by
  induction layers generalizing before incoming j k with
  | nil => rfl
  | cons first rest ih =>
    obtain ⟨-, hrest⟩ := List.cons.inj h
    cases k with
    | zero => omega
    | succ k =>
      cases j with
      | zero =>
        cases hat
        -- the same shape goes on to the layers behind
        show (refreshFrom ((layer.refresh incoming).outputShape incoming) rest)[k]? = rest[k]?
        rw [hcuts.outputShape_refresh incoming before, hrest]
      | succ j => exact ih hrest hat (by omega)

/-- A list is left alone iff its parts are, the second one by the shape that leaves the first. -/
lemma refreshFrom_append_eq_self_iff {incoming : Shape} {layers more : List Layer} :
    refreshFrom incoming (layers ++ more) = layers ++ more ↔
      refreshFrom incoming layers = layers ∧
        refreshFrom ((shapesAfter incoming layers).getLastD incoming) more = more := by
  rw [refreshFrom_append]
  constructor
  · intro h
    have hlength : (refreshFrom incoming layers).length = layers.length :=
      (refilled_refreshFrom incoming layers).length_eq.symm
    obtain ⟨hlayers, hmore⟩ := List.append_inj h hlength
    rw [hlayers] at hmore
    exact ⟨hlayers, hmore⟩
  · rintro ⟨hlayers, hmore⟩
    rw [hlayers, hmore]

/-- A layer at the end of a list that is left alone may be updated, but for its automatic
setting. -/
lemma refreshFrom_concat_updated {incoming : Shape} {layers : List Layer} {layer : Layer}
    {patch : Settings} (h : refreshFrom incoming (layers ++ [layer]) = layers ++ [layer])
    (hopen : ∀ key, layer.descriptor.autoField? = some key → key ∉ patch.keys) :
    refreshFrom incoming (layers ++ [layer.updated patch]) = layers ++ [layer.updated patch] := by
  obtain ⟨hlayers, hlast⟩ := refreshFrom_append_eq_self_iff.1 h
  have hinferred := Layer.refresh_eq_self_iff.1 (List.cons.inj hlast).1
  have hupdated := Layer.refresh_eq_self_iff.2 (hinferred.updated hopen)
  exact refreshFrom_append_eq_self_iff.2 ⟨hlayers, congrArg (fun l => [l]) hupdated⟩

/-! ## Changes -/

variable {chain next : Chain} {edit : Edit} {c j : Nat}

/-- A change of what enters the layer at a position: by an update of the layer before, which does
not set its automatic setting, by the removal of a layer, or by another input. -/
inductive Upstream (chain : Chain) : Edit → Nat → Prop where
  | updated {strict : Bool} {id position : Nat} {patch : Settings} {layer : Layer}
    (found : chain.position? id = some position) (at_eq : chain.at? position = some layer)
    (notMem : ∀ key, layer.descriptor.autoField? = some key → key ∉ patch.keys) :
    Upstream chain (.update strict id patch) (position + 1)
  | removed {id position : Nat} (found : chain.position? id = some position) :
    Upstream chain (.remove id) position
  | dimensioned (n : UInt64) : Upstream chain (.setInputDimension n) 0

/-- How far a change of what enters the layer at a position reaches: to the first layer from there
on that cuts, or to the last layer if none does. -/
inductive ReachesTo (chain : Chain) (c : Nat) : Nat → Prop where
  | cut {j : Nat} {layer : Layer} (le : c ≤ j) (at_eq : chain.at? j = some layer)
    (cuts : layer.Cuts) (first : ∀ k l, c ≤ k → k < j → chain.at? k = some l → ¬l.Cuts) :
    ReachesTo chain c j
  | last (none_cuts : ∀ k l, c ≤ k → chain.at? k = some l → ¬l.Cuts) :
    ReachesTo chain c (chain.size - 1)

lemma exists_reachesTo (chain : Chain) (c : Nat) : ∃ j, chain.ReachesTo c j := by
  classical
  by_cases h : ∃ j, c ≤ j ∧ ∃ layer, chain.at? j = some layer ∧ layer.Cuts
  · obtain ⟨hle, layer, hat, hcuts⟩ := Nat.find_spec h
    exact ⟨Nat.find h, .cut hle hat hcuts fun k l hck hlt hl hc =>
      Nat.find_min h hlt ⟨hck, l, hl, hc⟩⟩
  · exact ⟨_, .last fun k l hck hl hc => h ⟨k, hck, l, hl, hc⟩⟩

/-- The layers of a chain in two parts: the first is consistent, and the second would be if some
shape, not always the one that leaves the first part, entered there. -/
structure Splits (chain : Chain) (head tail : List Layer) : Prop where
  layers_eq : chain.layers = head ++ tail
  head_eq : refreshFrom chain.inputShape head = head
  tail_eq : ∃ before, refreshFrom before tail = tail

/-- A consistent chain can be split anywhere. -/
lemma splits_of_consistent {head tail : List Layer} (h : chain.repropagate = chain)
    (hlayers : chain.layers = head ++ tail) : chain.Splits head tail := by
  have hfixed : refreshFrom chain.inputShape chain.layers = chain.layers := congrArg layers h
  rw [hlayers] at hfixed
  obtain ⟨hhead, htail⟩ := refreshFrom_append_eq_self_iff.1 hfixed
  exact ⟨hlayers, hhead, _, htail⟩

/-- A change of a consistent chain splits it before the layer whose input changes. -/
theorem Upstream.splits (consistent : chain.repropagate = chain)
    (upstream : chain.Upstream edit c) (h : chain.apply edit = .ok next) :
    ∃ head tail, next.Splits head tail ∧ head.length = c := by
  cases upstream with
  | @updated strict id position patch layer found at_eq notMem =>
    have hu := update_of_apply h
    cases (update_of_position found patch).symm.trans hu
    obtain ⟨hlt, rfl⟩ := List.getElem?_eq_some_iff.1 at_eq
    obtain ⟨-, hhead, htail⟩ :=
      splits_of_consistent consistent (List.take_append_drop (position + 1) chain.layers).symm
    rw [List.take_succ_eq_append_getElem hlt] at hhead
    -- the updated layer keeps what was inferred for it, so the first part ends with it
    refine ⟨_, _, ⟨?_, refreshFrom_concat_updated hhead notMem, htail⟩, ?_⟩
    · rw [List.modify_eq_take_cons_drop hlt, List.append_cons]
    · rw [List.length_append, List.length_take_of_le (Nat.le_of_lt hlt), List.length_singleton]
  | @removed id _ found =>
    cases (remove_of_position found).symm.trans h
    obtain ⟨hlt, -⟩ := List.findIdx?_eq_some_iff_getElem.1 found
    -- the two parts come from different splits, before the removed layer and after it
    obtain ⟨-, hhead, -⟩ :=
      splits_of_consistent consistent (List.take_append_drop c chain.layers).symm
    obtain ⟨-, -, htail⟩ :=
      splits_of_consistent consistent (List.take_append_drop (c + 1) chain.layers).symm
    exact ⟨_, _, ⟨List.eraseIdx_eq_take_drop_succ _ _, hhead, htail⟩,
      List.length_take_of_le (Nat.le_of_lt hlt)⟩
  | dimensioned n =>
    cases h
    obtain ⟨hlayers, -, htail⟩ :=
      splits_of_consistent consistent (List.nil_append chain.layers).symm
    exact ⟨[], chain.layers, ⟨hlayers, rfl, htail⟩, rfl⟩

/-- Repropagation goes on with the second part. -/
lemma Splits.repropagate_layers {head tail : List Layer} (h : chain.Splits head tail) :
    chain.repropagate.layers =
      head ++ refreshFrom ((shapesAfter chain.inputShape head).getLastD chain.inputShape) tail := by
  show refreshFrom chain.inputShape chain.layers = _
  rw [h.layers_eq, refreshFrom_append, h.head_eq]

/-- Repropagation leaves the first part alone. -/
lemma Splits.at_eq_of_lt {head tail : List Layer} (h : chain.Splits head tail) {k : Nat}
    (hk : k < head.length) : chain.repropagate.at? k = chain.at? k := by
  rw [at?, at?, h.repropagate_layers, h.layers_eq, List.getElem?_append_left hk,
    List.getElem?_append_left hk]

/-- Repropagation leaves the layers of the second part alone that stand behind one that cuts. -/
lemma Splits.at_eq_of_cuts {head tail : List Layer} (h : chain.Splits head tail) {k : Nat}
    {layer : Layer} (hle : head.length ≤ j) (hat : chain.at? j = some layer) (hcuts : layer.Cuts)
    (hlt : j < k) : chain.repropagate.at? k = chain.at? k := by
  obtain ⟨before, htail⟩ := h.tail_eq
  rw [at?, h.layers_eq, List.getElem?_append_right hle] at hat
  rw [at?, at?, h.repropagate_layers, h.layers_eq, List.getElem?_append_right (by omega),
    List.getElem?_append_right (by omega)]
  exact getElem?_refreshFrom_of_cuts htail hat hcuts (by omega)

/-- A consistent chain has a place for every automatic setting. -/
lemma hasAuto_of_consistent (h : chain.repropagate = chain) : chain.HasAuto := by
  intro layer hmem
  rw [← h] at hmem
  obtain ⟨l, -, s, rfl⟩ := mem_refreshFrom hmem
  exact l.hasAuto_refresh s

/-- How far a change of a consistent chain reaches: what repropagation then changes lies between the
first layer whose input changes and the next one that cuts, and it is automatic settings only. -/
theorem change_reaches_to (consistent : chain.repropagate = chain)
    (upstream : chain.Upstream edit c) (h : chain.apply edit = .ok next) :
    (∃ j, next.ReachesTo c j) ∧
    (∀ j, next.ReachesTo c j → ∀ k, k < c ∨ j < k → next.repropagate.at? k = next.at? k) ∧
    next.Layerwise Layer.SameButAuto next.repropagate := by
  obtain ⟨head, tail, hsplits, rfl⟩ := upstream.splits consistent h
  have hauto : next.HasAuto := hasAuto_apply (hasAuto_of_consistent consistent) h
  refine ⟨exists_reachesTo next _, fun j hj k hk => ?_, rfl, rfl, sameButAuto_refreshFrom hauto _⟩
  rcases hk with hk | hk
  · exact hsplits.at_eq_of_lt hk
  · cases hj with
    | cut le at_eq cuts first => exact hsplits.at_eq_of_cuts le at_eq cuts hk
    | last none_cuts =>
      -- behind the last layer there is none, before repropagation and after it
      have hsize : next.layers.length ≤ k := by
        rw [size] at hk
        omega
      have hsame : next.repropagate.layers.length = next.layers.length :=
        (refilled_refreshFrom _ _).length_eq.symm
      rw [at?, at?, List.getElem?_eq_none hsize, List.getElem?_eq_none (hsame ▸ hsize)]

/-- Where the first of three dense layers is removed, the second one gets the input of the first,
and the third one stays as it is. -/
theorem change_reaches_to_next_dense :
    let chain := built 784 [.dropout, .dense, .dense, .dense]
    ∃ next, chain.apply (.remove 2) = .ok next ∧ next.ReachesTo 1 1 ∧
      (next.at? 1).bind (·.settings.get? "inFeatures") = some (.int 128) ∧
      (next.repropagate.at? 1).bind (·.settings.get? "inFeatures") = some (.int 784) ∧
      next.repropagate.at? 2 = next.at? 2 := by
  intro chain
  let next : Chain := { chain with layers := chain.layers.eraseIdx 1 }
  have happly : chain.apply (.remove 2) = .ok next := rfl
  have hreach : next.ReachesTo 1 1 :=
    .cut (Nat.le_refl 1) rfl ⟨by decide, _, .dense rfl (n := 128) (m := 128) rfl rfl⟩
      fun k l hle hlt => by omega
  obtain ⟨-, hkeeps, -⟩ := change_reaches_to (repropagate_built 784 _) (.removed rfl) happly
  exact ⟨next, rfl, hreach, rfl, rfl, hkeeps 1 hreach 2 (.inr (by decide))⟩

end Chain

end LayerChain
