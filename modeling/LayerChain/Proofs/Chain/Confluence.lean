import LayerChain.Proofs.Catalog.Settings
import LayerChain.Proofs.Chain.Edits

/-!
# Repropagation at any time

Inferring all automatic settings in the middle of a run of edits changes these settings, and with
them what later appends infer. In the end it makes no difference: `Chain.blank` leaves the
automatic settings open, every edit does the same to a chain and to the blank chain as far as the
blank shows (`Chain.blank_apply`), and repropagation gives the same for both. So two runs that
differ in repropagations only have the same blank throughout, and one repropagation at the end
makes them one chain.
-/

namespace LayerChain

/-! ## Layers -/

namespace Layer

/-- The layer with its automatic setting left open. -/
def blank (layer : Layer) : Layer :=
  match layer.descriptor.autoField? with
  | none => layer
  | some key => { layer with settings := layer.settings.insert key .auto }

/-- The automatic setting of a layer has its place among the settings. -/
def HasAuto (layer : Layer) : Prop :=
  ∀ key, layer.descriptor.autoField? = some key → key ∈ layer.settings.keys

/-- Inference sets the automatic setting. -/
lemma refresh_of_auto {layer : Layer} {key : String}
    (h : layer.descriptor.autoField? = some key) (incoming : Shape) :
    layer.refresh incoming =
      { layer with settings := layer.settings.insert key (.int (clampSize incoming.size)) } := by
  have hi : layer.kind.inferred incoming =
      Settings.empty.insert key (.int (clampSize incoming.size)) := by
    rw [Kind.inferred, show (Catalog.describe layer.kind).autoField? = some key from h]
  rw [refresh, hi, Settings.merge_singleton]

lemma refresh_of_no_auto {layer : Layer} (h : layer.descriptor.autoField? = none)
    (incoming : Shape) : layer.refresh incoming = layer := by
  have hi : layer.kind.inferred incoming = .empty := by
    rw [Kind.inferred, show (Catalog.describe layer.kind).autoField? = none from h]
  rw [refresh, hi, Settings.merge_empty]

lemma blank_of_auto {layer : Layer} {key : String} (h : layer.descriptor.autoField? = some key) :
    layer.blank = { layer with settings := layer.settings.insert key .auto } := by
  rw [blank, h]

lemma blank_of_no_auto {layer : Layer} (h : layer.descriptor.autoField? = none) :
    layer.blank = layer := by
  rw [blank, h]

@[simp] lemma blank_id (layer : Layer) : layer.blank.id = layer.id := by
  rw [blank]
  split <;> rfl

@[simp] lemma blank_kind (layer : Layer) : layer.blank.kind = layer.kind := by
  rw [blank]
  split <;> rfl

@[simp] lemma blank_descriptor (layer : Layer) : layer.blank.descriptor = layer.descriptor := by
  rw [descriptor, blank_kind, descriptor]

/-- What was inferred does not show in the blank. -/
@[simp] lemma blank_refresh (layer : Layer) (incoming : Shape) :
    (layer.refresh incoming).blank = layer.blank := by
  cases h : layer.descriptor.autoField? with
  | none => rw [refresh_of_no_auto h]
  | some key =>
    have hr : (layer.refresh incoming).descriptor.autoField? = some key := h
    rw [blank_of_auto hr, blank_of_auto h, refresh_of_auto h, Settings.insert_insert_self]

/-- Inference does not look at what was inferred before. -/
@[simp] lemma refresh_blank (layer : Layer) (incoming : Shape) :
    layer.blank.refresh incoming = layer.refresh incoming := by
  cases h : layer.descriptor.autoField? with
  | none => rw [blank_of_no_auto h]
  | some key =>
    have hb : layer.blank.descriptor.autoField? = some key := by rw [blank_descriptor, h]
    rw [refresh_of_auto hb, refresh_of_auto h, blank_of_auto h, Settings.insert_insert_self]

@[simp] lemma blank_blank (layer : Layer) : layer.blank.blank = layer.blank := by
  cases h : layer.descriptor.autoField? with
  | none => rw [blank_of_no_auto h, blank_of_no_auto h]
  | some key =>
    have hb : layer.blank.descriptor.autoField? = some key := by rw [blank_descriptor, h]
    rw [blank_of_auto hb, blank_of_auto h, Settings.insert_insert_self]

lemma hasAuto_refresh (layer : Layer) (incoming : Shape) : (layer.refresh incoming).HasAuto := by
  intro key h
  have h' : layer.descriptor.autoField? = some key := h
  rw [refresh_of_auto h']
  exact Settings.mem_keys_insert.2 (.inl rfl)

/-! ### Changing a layer -/

/-- The layer after an update. -/
def updated (patch : Settings) (layer : Layer) : Layer :=
  { layer with settings := layer.settings.merge patch }

/-- An update of the blank does what an update of the layer does, as far as the blank shows. -/
lemma blank_updated {layer : Layer} (h : layer.HasAuto) (patch : Settings) :
    (layer.blank.updated patch).blank = (layer.updated patch).blank := by
  cases ha : layer.descriptor.autoField? with
  | none => rw [blank_of_no_auto ha]
  | some key =>
    have hb : (layer.blank.updated patch).descriptor.autoField? = some key := by
      rw [show (layer.blank.updated patch).descriptor = layer.blank.descriptor from rfl,
        blank_descriptor, ha]
    have hu : (layer.updated patch).descriptor.autoField? = some key := ha
    rw [blank_of_auto hb, blank_of_auto hu, blank_of_auto ha]
    exact congrArg (fun s => { layer with settings := s })
      (Settings.insert_insertMany .auto .auto (h key ha) patch.entries)

lemma hasAuto_updated {layer : Layer} (h : layer.HasAuto) (patch : Settings) :
    (layer.updated patch).HasAuto := by
  intro key ha
  exact Settings.mem_keys_insertMany (h key ha) patch.entries

/-- The layer after it was placed. -/
def placed (placement : Json) (layer : Layer) : Layer :=
  { layer with placement := some placement }

lemma blank_placed (placement : Json) (layer : Layer) :
    (layer.blank.placed placement).blank = (layer.placed placement).blank := by
  cases ha : layer.descriptor.autoField? with
  | none => rw [blank_of_no_auto ha]
  | some key =>
    have hb : (layer.blank.placed placement).descriptor.autoField? = some key := by
      rw [show (layer.blank.placed placement).descriptor = layer.blank.descriptor from rfl,
        blank_descriptor, ha]
    have hp : (layer.placed placement).descriptor.autoField? = some key := ha
    rw [blank_of_auto hb, blank_of_auto hp, blank_of_auto ha, placed, Settings.insert_insert_self]
    rfl

end Layer

/-! ## Chains -/

namespace Edit

/-- Whether an edit is a repropagation. -/
def isRepropagate : Edit → Bool
  | .repropagate => true
  | _ => false

end Edit

namespace Chain

/-- The chain with all automatic settings left open. -/
def blank (chain : Chain) : Chain := { chain with layers := chain.layers.map Layer.blank }

/-- Every automatic setting has its place. -/
def HasAuto (chain : Chain) : Prop := ∀ layer ∈ chain.layers, layer.HasAuto

/-! ### Repropagation -/

lemma refreshFrom_blank (incoming : Shape) (layers : List Layer) :
    refreshFrom incoming (layers.map Layer.blank) = refreshFrom incoming layers := by
  induction layers generalizing incoming with
  | nil => rfl
  | cons layer rest ih => rw [List.map_cons, refreshFrom, refreshFrom, Layer.refresh_blank, ih]

/-- Repropagation does not look at what was inferred before. -/
theorem repropagate_blank (chain : Chain) : chain.blank.repropagate = chain.repropagate := by
  show { chain with layers := refreshFrom chain.inputShape (chain.layers.map Layer.blank) } = _
  rw [refreshFrom_blank]
  rfl

/-- What repropagation infers does not show in the blank. -/
theorem blank_repropagate (chain : Chain) : chain.repropagate.blank = chain.blank := by
  show { chain with layers := (refreshFrom chain.inputShape chain.layers).map Layer.blank } = _
  rw [map_refreshFrom Layer.blank_refresh]
  rfl

/-- Chains with one blank become one chain. -/
lemma repropagate_eq_of_blank_eq {c d : Chain} (h : c.blank = d.blank) :
    c.repropagate = d.repropagate := by
  rw [← repropagate_blank c, h, repropagate_blank d]

/-! ### Edits of the blank -/

lemma newLayer_eq_refresh (chain : Chain) (kind : Kind) :
    chain.newLayer kind =
      Layer.refresh ⟨chain.nextId, kind, (Catalog.describe kind).defaults, none⟩ chain.outputShape :=
  rfl

/-- Looking for a layer in the blank finds the blank of the layer. -/
lemma find_blank (chain : Chain) (id : Nat) :
    chain.blank.find id = (chain.find id).map Layer.blank := by
  have hg : chain.blank.get? id = (chain.get? id).map Layer.blank := by
    rw [get?, blank, List.find?_map, get?]
    congr 2
    funext l
    simp
  rw [find, find, hg]
  cases chain.get? id <;> rfl

/-- A change of a layer that is the same for the blank as far as the blank shows. -/
lemma modify_blank (change : Layer → Layer) (id : Nat) {layers : List Layer}
    (h : ∀ l ∈ layers, (change l.blank).blank = (change l).blank) :
    (modify id change (layers.map Layer.blank)).map Layer.blank =
      (modify id change layers).map Layer.blank := by
  induction layers with
  | nil => rfl
  | cons l rest ih =>
    have ih' := ih fun l hl => h l (List.mem_cons_of_mem _ hl)
    rw [List.map_cons, modify, modify, Layer.blank_id]
    split_ifs
    · simp [h l List.mem_cons_self]
    · simp [ih']

lemma blank_update {chain : Chain} (h : chain.HasAuto) (id : Nat) (patch : Settings) :
    (chain.blank.update id patch).map blank = (chain.update id patch).map blank := by
  rw [update, update, find_blank]
  cases chain.find id with
  | error e => rfl
  | ok layer =>
    have hm := modify_blank (Layer.updated patch) id fun l hl => Layer.blank_updated (h l hl) patch
    exact congrArg (fun ls => Except.ok { chain with layers := ls }) hm

lemma blank_updateStrict {chain : Chain} (h : chain.HasAuto) (id : Nat) (patch : Settings) :
    (chain.blank.updateStrict id patch).map blank = (chain.updateStrict id patch).map blank := by
  have hu := blank_update h id patch
  rw [updateStrict, updateStrict, find_blank]
  cases chain.find id with
  | error e => rfl
  | ok layer =>
    rw [show (Except.ok layer : Except Error Layer).map Layer.blank = .ok layer.blank from rfl]
    simp only [bind, Except.bind, Layer.blank_descriptor, Layer.blank_kind]
    cases patch.keys.find? fun key => !layer.descriptor.declares key with
    | some key => rfl
    | none => exact hu

lemma blank_remove (chain : Chain) (id : Nat) :
    (chain.blank.remove id).map blank = (chain.remove id).map blank := by
  rw [remove, remove, find_blank]
  cases chain.find id with
  | error e => rfl
  | ok layer =>
    have he : ((chain.layers.map Layer.blank).eraseP fun l => l.id == id).map Layer.blank =
        (chain.layers.eraseP fun l => l.id == id).map Layer.blank := by
      rw [List.eraseP_map, List.map_map]
      congr 1
      · funext l
        exact l.blank_blank
      · congr 1
        funext l
        simp
    exact congrArg (fun ls => Except.ok { chain with layers := ls }) he

lemma blank_place (chain : Chain) (id : Nat) (placement : Json) :
    (chain.blank.place id placement).map blank = (chain.place id placement).map blank := by
  rw [place, place, find_blank]
  cases chain.find id with
  | error e => rfl
  | ok layer =>
    have hm := modify_blank (Layer.placed placement) id fun l (_ : l ∈ chain.layers) =>
      Layer.blank_placed placement l
    exact congrArg (fun ls => Except.ok { chain with layers := ls }) hm

/-- Every edit does the same to the blank as to the chain, as far as the blank shows. -/
theorem blank_apply {chain : Chain} (h : chain.HasAuto) (edit : Edit) :
    (chain.blank.apply edit).map blank = (chain.apply edit).map blank := by
  cases edit with
  | append kind =>
    have hl : (chain.blank.newLayer kind).blank = (chain.newLayer kind).blank := by
      rw [newLayer_eq_refresh, newLayer_eq_refresh, Layer.blank_refresh, Layer.blank_refresh]
      rfl
    have hls : (chain.layers.map Layer.blank ++ [chain.blank.newLayer kind]).map Layer.blank =
        (chain.layers ++ [chain.newLayer kind]).map Layer.blank := by
      simp [hl]
    exact congrArg (fun ls => Except.ok { chain.append kind with layers := ls }) hls
  | update strict id patch =>
    cases strict with
    | false => exact blank_update h id patch
    | true => exact blank_updateStrict h id patch
  | remove id => exact blank_remove chain id
  | setInputDimension n =>
    have hb : (chain.layers.map Layer.blank).map Layer.blank = chain.layers.map Layer.blank := by
      simp
    exact congrArg (fun ls => Except.ok { chain.setInputDimension n with layers := ls }) hb
  | place id placement => exact blank_place chain id placement
  | repropagate =>
    show Except.ok chain.blank.repropagate.blank = Except.ok chain.repropagate.blank
    rw [repropagate_blank]

/-- Edits keep the place of every automatic setting. -/
theorem hasAuto_apply {chain next : Chain} {edit : Edit} (h : chain.HasAuto)
    (ha : chain.apply edit = .ok next) : next.HasAuto := by
  intro layer hl
  cases origin_of_apply ha hl with
  | kept mem => exact h layer mem
  | appended kind =>
    rw [newLayer_eq_refresh]
    exact Layer.hasAuto_refresh _ _
  | updated mem _ => exact Layer.hasAuto_updated (h _ mem) _
  | @placed _ _ l mem => exact h l mem
  | @refreshed l mem incoming => exact l.hasAuto_refresh incoming

/-! ### Runs -/

/-- The chain after an edit. An edit that fails changes nothing. -/
def perform (chain : Chain) (edit : Edit) : Chain :=
  match chain.apply edit with
  | .ok next => next
  | .error _ => chain

/-- What an edit comes to: the id it hands out, if it hands one out, or its error. -/
def outcome (chain : Chain) (edit : Edit) : Except Error (Option Nat) :=
  (chain.apply edit).map fun _ => chain.issuedId? edit

/-- What the edits of a run come to, repropagations left out. -/
def outcomes (chain : Chain) : List Edit → List (Except Error (Option Nat))
  | [] => []
  | edit :: rest =>
    if edit.isRepropagate then (chain.perform edit).outcomes rest
    else chain.outcome edit :: (chain.perform edit).outcomes rest

/-- What edits do to one of two chains with the same blank, they do to the other. -/
lemma alike_of_blank_eq {c d : Chain} (hc : c.HasAuto) (hd : d.HasAuto) (hb : c.blank = d.blank)
    (edit : Edit) : c.outcome edit = d.outcome edit ∧
      (c.perform edit).blank = (d.perform edit).blank := by
  have happly : (c.apply edit).map blank = (d.apply edit).map blank := by
    rw [← blank_apply hc, hb, blank_apply hd]
  have hid : c.blank.nextId = d.blank.nextId := congrArg nextId hb
  have hissued : c.issuedId? edit = d.issuedId? edit := by
    cases edit with
    | append kind => exact congrArg some hid
    | _ => rfl
  rw [outcome, outcome, perform, perform]
  cases hca : c.apply edit with
  | error e =>
    cases hda : d.apply edit with
    | error e' =>
      rw [hca, hda] at happly
      exact ⟨congrArg Except.error (Except.error.inj happly), hb⟩
    | ok next =>
      rw [hca, hda] at happly
      cases happly
  | ok next =>
    cases hda : d.apply edit with
    | error e' =>
      rw [hca, hda] at happly
      cases happly
    | ok next' =>
      rw [hca, hda] at happly
      exact ⟨congrArg Except.ok hissued, Except.ok.inj happly⟩

lemma hasAuto_perform {chain : Chain} (h : chain.HasAuto) (edit : Edit) :
    (chain.perform edit).HasAuto := by
  rw [perform]
  cases ha : chain.apply edit with
  | error e => exact h
  | ok next => exact hasAuto_apply h ha

/-- Two runs from chains with the same blank, one of them without the repropagations. -/
lemma run_alike {c d : Chain} (hc : c.HasAuto) (hd : d.HasAuto) (hb : c.blank = d.blank)
    (edits : List Edit) :
    c.outcomes edits = d.outcomes (edits.filter fun e => !e.isRepropagate) ∧
      (edits.foldl perform c).blank =
        ((edits.filter fun e => !e.isRepropagate).foldl perform d).blank := by
  induction edits generalizing c d with
  | nil => exact ⟨rfl, hb⟩
  | cons edit rest ih =>
    cases he : edit.isRepropagate with
    | true =>
      have hstep : (c.perform edit).blank = d.blank := by
        cases edit <;> simp [Edit.isRepropagate] at he
        exact (blank_repropagate c).trans hb
      rw [outcomes, if_pos he, List.filter_cons_of_neg (by simp [he])]
      exact ih (hasAuto_perform hc edit) hd hstep
    | false =>
      obtain ⟨hout, hstep⟩ := alike_of_blank_eq hc hd hb edit
      obtain ⟨hrest, hfinal⟩ := ih (hasAuto_perform hc edit) (hasAuto_perform hd edit) hstep
      rw [List.filter_cons_of_pos (by simp [he]), outcomes, outcomes, he, hout, hrest]
      exact ⟨rfl, hfinal⟩

/-- Repropagation is confluent: in a run of edits of a new chain, the repropagations on the way
change neither what the other edits come to nor what one repropagation at the end gives. -/
theorem repropagation_confluent (inputDimension : UInt64) (edits : List Edit) :
    let others := edits.filter fun e => !e.isRepropagate
    (new inputDimension).outcomes edits = (new inputDimension).outcomes others ∧
    (edits.foldl perform (new inputDimension)).repropagate =
      (others.foldl perform (new inputDimension)).repropagate := by
  intro others
  have hnew : (new inputDimension).HasAuto := by
    intro layer hl
    cases hl
  obtain ⟨hout, hblank⟩ := run_alike hnew hnew rfl edits
  exact ⟨hout, repropagate_eq_of_blank_eq hblank⟩

end Chain

end LayerChain
