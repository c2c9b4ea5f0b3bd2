import LayerChain.Proofs.Chain.IdSpace
import LayerChain.Proofs.Chain.Positions

/-!
# The keys of settings

Along any edits of a new chain, the keys of a layer stand in the order in which they were first set:
first those that its kind declares, which are set when the layer is appended, and then the others
(`Chain.keyed_edited`, `Layer.Keyed.keys_eq`). Which keys were set in a layer is kept in a log beside
it, so that it does not matter whether ids are distinct. Strict updates set declared keys only, so
they add none (`Layer.Keyed.updated_of_declared`).
-/

namespace LayerChain

/-- Whether an edit is no update that takes undeclared keys. -/
def Edit.isStrict : Edit → Bool
  | .update strict _ _ => strict
  | .append _ | .remove _ | .setInputDimension _ | .place .. | .repropagate => true

/-! ## Declared keys -/

/-- The names of the declared settings in canonical order. -/
def Descriptor.fieldNames (descriptor : Descriptor) : List String :=
  descriptor.fields.map Field.name

lemma Descriptor.declares_iff {descriptor : Descriptor} {key : String} :
    descriptor.declares key = true ↔ key ∈ descriptor.fieldNames := by
  rw [declares, field?, List.find?_isSome, fieldNames, List.mem_map]
  simp

namespace Catalog

lemma eraseDups_fieldNames (kind : Kind) :
    (describe kind).fieldNames.eraseDups = (describe kind).fieldNames := by
  cases kind <;> decide

lemma autoField?_mem_fieldNames {kind : Kind} {key : String}
    (h : (describe kind).autoField? = some key) : key ∈ (describe kind).fieldNames := by
  obtain ⟨f, hf, rfl⟩ := Option.map_eq_some_iff.1 h
  exact List.mem_map_of_mem (List.mem_of_find?_eq_some hf)

/-- The defaults of a kind set its declared keys in canonical order. -/
lemma keys_defaults (kind : Kind) :
    (describe kind).defaults.keys = (describe kind).fieldNames := by
  have hempty : Settings.empty.keys = ([] : List String).eraseDups := rfl
  have hkeys := Settings.keys_insertMany_eq_eraseDups hempty
    ((describe kind).fields.map fun f => (f.name, f.default))
  rw [List.map_map, List.nil_append] at hkeys
  exact hkeys.trans (eraseDups_fieldNames kind)

end Catalog

/-! ## The keys of a layer -/

namespace Layer

/-- The keys of a layer are those that its kind declares and those of a log, in the order in which
they come first. -/
def Keyed (layer : Layer) (log : List String) : Prop :=
  layer.settings.keys = (layer.descriptor.fieldNames ++ log).eraseDups

variable {layer : Layer} {log : List String}

lemma keyed_nil_iff : layer.Keyed [] ↔ layer.settings.keys = layer.descriptor.fieldNames := by
  rw [Keyed, List.append_nil]
  exact Eq.congr_right (Catalog.eraseDups_fieldNames layer.kind)

namespace Keyed

/-- The declared keys come first, in canonical order, and then the others in the order of the
log. -/
theorem keys_eq (h : layer.Keyed log) : layer.settings.keys =
    layer.descriptor.fieldNames ++
      (log.filter fun key => !layer.descriptor.declares key).eraseDups := by
  have hothers : log.removeAll layer.descriptor.fieldNames =
      log.filter fun key => !layer.descriptor.declares key := by
    refine List.filter_congr fun key _ => ?_
    rw [Bool.eq_iff_iff]
    simp [← Descriptor.declares_iff]
  rw [h, List.eraseDups_append, hothers]
  exact congrArg (· ++ _) (Catalog.eraseDups_fieldNames layer.kind)

/-- Every declared key is set. -/
lemma mem_keys (h : layer.Keyed log) {key : String} (hkey : key ∈ layer.descriptor.fieldNames) :
    key ∈ layer.settings.keys := by
  rw [h, List.mem_eraseDups]
  exact List.mem_append_left _ hkey

/-- Inference sets a key that is there. -/
lemma refresh (h : layer.Keyed log) (incoming : Shape) : (layer.refresh incoming).Keyed log := by
  cases hauto : layer.descriptor.autoField? with
  | none => rwa [refresh_of_no_auto hauto]
  | some key =>
    have hkey := h.mem_keys (Catalog.autoField?_mem_fieldNames hauto)
    rw [refresh_of_auto hauto, Keyed]
    exact (Settings.keys_insert _ key _).trans ((if_pos hkey).trans h)

/-- An update sets the keys of the patch. -/
lemma updated (h : layer.Keyed log) (patch : Settings) :
    (layer.updated patch).Keyed (log ++ patch.keys) := by
  have hkeys := Settings.keys_insertMany_eq_eraseDups h patch.entries
  rwa [List.append_assoc] at hkeys

/-- An update with declared keys adds no key. -/
lemma updated_of_declared (h : layer.Keyed []) {patch : Settings}
    (hdeclared : ∀ key ∈ patch.keys, layer.descriptor.declares key = true) :
    (layer.updated patch).Keyed [] := by
  have hnone : (patch.keys.filter fun key => !layer.descriptor.declares key) = [] := by
    refine List.filter_eq_nil_iff.2 fun key hkey => ?_
    simp [hdeclared key hkey]
  have hkeys : (layer.updated patch).settings.keys = layer.descriptor.fieldNames ++
      (patch.keys.filter fun key => !layer.descriptor.declares key).eraseDups :=
    (h.updated patch).keys_eq
  rw [hnone, List.eraseDups_nil, List.append_nil] at hkeys
  exact keyed_nil_iff.2 hkeys

end Keyed

end Layer

/-- The layer that appending a kind adds has the declared keys and no others. -/
lemma Chain.keyed_newLayer (chain : Chain) (kind : Kind) : (chain.newLayer kind).Keyed [] := by
  have hdefaults : Layer.Keyed ⟨chain.nextId, kind, (Catalog.describe kind).defaults, none⟩ [] :=
    Layer.keyed_nil_iff.2 (Catalog.keys_defaults kind)
  rw [newLayer_eq_refresh]
  exact hdefaults.refresh _

namespace Chain

/-! ## Logs -/

/-- What is added to the logs of a chain's layers by an edit that succeeds: a new layer has an empty
log, and an update adds the keys of its patch to the log of the layer that it finds. -/
def logsAfter (chain : Chain) (logs : List (List String)) : Edit → List (List String)
  | .append _ => logs ++ [[]]
  | .update _ id patch =>
    match chain.position? id with
    | some position => logs.modify position (· ++ patch.keys)
    | none => logs
  | .remove id =>
    match chain.position? id with
    | some position => logs.eraseIdx position
    | none => logs
  | .setInputDimension _ | .place .. | .repropagate => logs

/-- The logs of a chain's layers after some edits: for each layer the keys that were set in it, in
order. -/
def logsEdited (chain : Chain) (logs : List (List String)) : List Edit → List (List String)
  | [] => logs
  | edit :: edits =>
    match chain.apply edit with
    | .ok next => next.logsEdited (chain.logsAfter logs edit) edits
    | .error _ => chain.logsEdited logs edits

variable {chain next : Chain} {logs : List (List String)}

lemma keyed_refreshFrom {layers : List Layer} (h : List.Forall₂ Layer.Keyed layers logs)
    (incoming : Shape) : List.Forall₂ Layer.Keyed (refreshFrom incoming layers) logs := by
  induction h generalizing incoming with
  | nil => exact .nil
  | cons hl _ ih => exact .cons (hl.refresh incoming) (ih _)

/-- A successful edit keeps the logs. -/
theorem keyed_apply (h : List.Forall₂ Layer.Keyed chain.layers logs) {edit : Edit}
    (ha : chain.apply edit = .ok next) :
    List.Forall₂ Layer.Keyed next.layers (chain.logsAfter logs edit) := by
  have hchange := change_of_apply ha
  generalize next.layers = layers at hchange
  cases hchange with
  | appended kind => exact List.rel_append h (.cons (chain.keyed_newLayer kind) .nil)
  | @updated strict id position patch layer found layer_eq declared =>
    rw [logsAfter, found]
    exact forall₂_modify h (fun hl => hl.updated patch) position
  | @removed id position found =>
    rw [logsAfter, found]
    exact forall₂_eraseIdx h position
  | dimensioned n => exact h
  | @placed _ position placement found =>
    -- a placed layer keeps its log, so the logs are changed by the identity
    have hplaced := forall₂_modify h (f := Layer.placed placement) (g := id) (fun hl => hl) position
    rw [List.modify_id] at hplaced
    exact hplaced
  | repropagated => exact keyed_refreshFrom h _

/-- Edits keep the logs. -/
theorem keyed_edited (h : List.Forall₂ Layer.Keyed chain.layers logs) (edits : List Edit) :
    List.Forall₂ Layer.Keyed (chain.edited edits).layers (chain.logsEdited logs edits) := by
  induction edits generalizing chain logs with
  | nil => exact h
  | cons edit edits ih =>
    rw [logsEdited]
    show List.Forall₂ Layer.Keyed ((chain.perform edit).edited edits).layers _
    cases ha : chain.apply edit with
    | error e =>
      rw [perform_of_error ha]
      exact ih h
    | ok next =>
      rw [perform_of_ok ha]
      exact ih (keyed_apply h ha)

/-! ## Strict edits -/

/-- The layers of a chain have the declared keys and no others. -/
def OnlyDeclared (chain : Chain) : Prop := ∀ layer ∈ chain.layers, layer.Keyed []

/-- A strict edit adds no keys to the declared ones. -/
theorem OnlyDeclared.apply (h : chain.OnlyDeclared) {edit : Edit} (hstrict : edit.isStrict = true)
    (ha : chain.apply edit = .ok next) : next.OnlyDeclared := by
  intro layer hl
  cases origin_of_apply ha hl with
  | kept mem => exact h layer mem
  | appended kind => exact chain.keyed_newLayer kind
  | updated mem declared => exact (h _ mem).updated_of_declared (declared hstrict)
  | @placed _ _ l mem => exact h l mem
  | refreshed mem incoming => exact (h _ mem).refresh incoming

lemma OnlyDeclared.perform (h : chain.OnlyDeclared) {edit : Edit}
    (hstrict : edit.isStrict = true) : (chain.perform edit).OnlyDeclared := by
  cases ha : chain.apply edit with
  | error e => rwa [perform_of_error ha]
  | ok next =>
    rw [perform_of_ok ha]
    exact h.apply hstrict ha

/-- Strict edits add no keys to the declared ones. -/
theorem OnlyDeclared.edited (h : chain.OnlyDeclared) {edits : List Edit}
    (hstrict : ∀ edit ∈ edits, edit.isStrict = true) : (chain.edited edits).OnlyDeclared := by
  induction edits generalizing chain with
  | nil => exact h
  | cons edit edits ih =>
    obtain ⟨hfirst, hrest⟩ := List.forall_mem_cons.1 hstrict
    exact ih (h.perform hfirst) hrest

end Chain

end LayerChain
