import LayerChain.Chain.Edit
import LayerChain.Proofs.Results

/-!
# What an edit does to a chain

`Chain.apply_cases` says once what a successful edit can do to the ids and kinds of a chain's
layers and to its id counter: it adds one layer under the counter's id, or it keeps some of the
layers in their order and leaves the counter alone. `Chain.origin_of_apply` says once where the
layers of an edited chain come from. Most invariants of edited chains follow from these two without
another look at the single edits.
-/

namespace LayerChain

namespace Chain

/-- The ids of the layers in order. -/
def ids (chain : Chain) : List Nat := chain.layers.map Layer.id

/-- The id and the kind of each layer in order. -/
def skeleton (chain : Chain) : List (Nat × Kind) := chain.layers.map fun l => (l.id, l.kind)

lemma ids_eq_skeleton (chain : Chain) : chain.ids = chain.skeleton.map Prod.fst := by
  rw [ids, skeleton, List.map_map]
  rfl

/-- The id that an edit hands out, if it hands one out. -/
def issuedId? (chain : Chain) : Edit → Option Nat
  | .append _ => some chain.nextId
  | _ => none

/-! ## Changing layers in place -/

/-- What a change leaves alone in a layer, changing the layer of an id leaves alone in a list. -/
lemma map_modify {β : Type} {f : Layer → β} {change : Layer → Layer} (id : Nat)
    (h : ∀ l, f (change l) = f l) (layers : List Layer) :
    (modify id change layers).map f = layers.map f := by
  induction layers with
  | nil => rfl
  | cons l rest ih =>
    rw [modify]
    split
    · rw [List.map_cons, List.map_cons, h]
    · rw [List.map_cons, List.map_cons, ih]

/-- A layer of a list where the layer of an id was changed is one of the list, or it is the first
layer of this id, changed. -/
lemma mem_modify {change : Layer → Layer} {id : Nat} {layers : List Layer} {layer : Layer}
    (h : layer ∈ modify id change layers) :
    layer ∈ layers ∨ ∃ l, layers.find? (fun l => l.id == id) = some l ∧ layer = change l := by
  induction layers with
  | nil => cases h
  | cons l rest ih =>
    rw [modify] at h
    split_ifs at h with hid
    · rcases List.mem_cons.1 h with rfl | h
      · exact .inr ⟨l, List.find?_cons_of_pos (beq_iff_eq.2 hid), rfl⟩
      · exact .inl (List.mem_cons_of_mem _ h)
    · rcases List.mem_cons.1 h with rfl | h
      · exact .inl List.mem_cons_self
      · rw [List.find?_cons_of_neg (by simpa using hid)]
        exact (ih h).imp_left (List.mem_cons_of_mem _)

lemma mem_refreshFrom {incoming : Shape} {layers : List Layer} {layer : Layer}
    (h : layer ∈ refreshFrom incoming layers) : ∃ l ∈ layers, ∃ s, layer = l.refresh s := by
  induction layers generalizing incoming with
  | nil => cases h
  | cons l rest ih =>
    rcases List.mem_cons.1 h with rfl | h
    · exact ⟨l, List.mem_cons_self, incoming, rfl⟩
    · obtain ⟨l', hl', s, he⟩ := ih h
      exact ⟨l', List.mem_cons_of_mem _ hl', s, he⟩

/-- What inference leaves alone in a layer, it leaves alone in a list. -/
lemma map_refreshFrom {β : Type} {f : Layer → β} (h : ∀ l incoming, f (l.refresh incoming) = f l)
    (incoming : Shape) (layers : List Layer) :
    (refreshFrom incoming layers).map f = layers.map f := by
  induction layers generalizing incoming with
  | nil => rfl
  | cons l rest ih => rw [refreshFrom, List.map_cons, List.map_cons, h, ih]

/-! ## The edits one by one -/

/-- An update merges a patch into the layers and changes nothing else. -/
lemma update_eq_ok {chain next : Chain} {id : Nat} {patch : Settings}
    (h : chain.update id patch = .ok next) :
    next = { chain with
      layers := modify id (fun l => { l with settings := l.settings.merge patch }) chain.layers } := by
  obtain ⟨layer, -, hn⟩ := bind_eq_ok.1 h
  exact (Except.ok.inj hn).symm

/-- A strict update that succeeds is an update. -/
lemma update_of_updateStrict {chain next : Chain} {id : Nat} {patch : Settings}
    (h : chain.updateStrict id patch = .ok next) : chain.update id patch = .ok next := by
  obtain ⟨layer, -, hn⟩ := bind_eq_ok.1 h
  split at hn
  · cases hn
  · exact hn

/-- Whichever update succeeds, it merges the patch. -/
lemma update_of_apply {chain next : Chain} {strict : Bool} {id : Nat} {patch : Settings}
    (h : chain.apply (.update strict id patch) = .ok next) : chain.update id patch = .ok next := by
  cases strict with
  | true => exact update_of_updateStrict h
  | false => exact h

lemma remove_eq_ok {chain next : Chain} {id : Nat} (h : chain.remove id = .ok next) :
    next = { chain with layers := chain.layers.eraseP fun l => l.id == id } := by
  obtain ⟨layer, -, hn⟩ := bind_eq_ok.1 h
  exact (Except.ok.inj hn).symm

lemma place_eq_ok {chain next : Chain} {id : Nat} {placement : Json}
    (h : chain.place id placement = .ok next) :
    next = { chain with
      layers := modify id (fun l => { l with placement := some placement }) chain.layers } := by
  obtain ⟨layer, -, hn⟩ := bind_eq_ok.1 h
  exact (Except.ok.inj hn).symm

/-! ## All edits -/

/-- A successful edit adds one layer, whose id is the counter, or it keeps some of the layers. -/
theorem apply_cases {chain next : Chain} {edit : Edit} (h : chain.apply edit = .ok next) :
    (∃ kind, chain.issuedId? edit = some chain.nextId ∧
      next.skeleton = chain.skeleton ++ [(chain.nextId, kind)] ∧
      next.nextId = min (chain.nextId + 1) maxCounter) ∨
    (chain.issuedId? edit = none ∧ next.skeleton.Sublist chain.skeleton ∧
      next.nextId = chain.nextId) := by
  cases edit with
  | append kind =>
    obtain rfl := Except.ok.inj h
    exact .inl ⟨kind, rfl, by simp [skeleton, append, newLayer], rfl⟩
  | update strict id patch =>
    have hu := update_of_apply h
    have hs : next.skeleton = chain.skeleton := by
      rw [update_eq_ok hu]
      exact map_modify id (by intro l; rfl) chain.layers
    exact .inr ⟨rfl, hs ▸ List.Sublist.refl _, by rw [update_eq_ok hu]⟩
  | remove id =>
    obtain rfl := remove_eq_ok h
    exact .inr ⟨rfl, List.eraseP_sublist.map _, rfl⟩
  | setInputDimension n =>
    obtain rfl := Except.ok.inj h
    exact .inr ⟨rfl, List.Sublist.refl _, rfl⟩
  | place id placement =>
    have hs : next.skeleton = chain.skeleton := by
      rw [place_eq_ok h]
      exact map_modify id (by intro l; rfl) chain.layers
    exact .inr ⟨rfl, hs ▸ List.Sublist.refl _, by rw [place_eq_ok h]⟩
  | repropagate =>
    have hs : next.skeleton = chain.skeleton := by
      rw [← Except.ok.inj h]
      exact map_refreshFrom (fun _ _ => rfl) chain.inputShape chain.layers
    exact .inr ⟨rfl, hs ▸ List.Sublist.refl _, by rw [← Except.ok.inj h]; rfl⟩

/-- Where a layer of an edited chain comes from. A strict update changes only a layer whose kind
declares all keys of the patch. -/
inductive Origin (chain : Chain) : Edit → Layer → Prop where
  | kept {edit : Edit} {layer : Layer} (mem : layer ∈ chain.layers) : Origin chain edit layer
  | appended (kind : Kind) : Origin chain (.append kind) (chain.newLayer kind)
  | updated {strict : Bool} {id : Nat} {patch : Settings} {layer : Layer}
    (mem : layer ∈ chain.layers)
    (declared : strict = true → ∀ key ∈ patch.keys, layer.descriptor.declares key = true) :
    Origin chain (.update strict id patch)
      { layer with settings := layer.settings.merge patch }
  | placed {id : Nat} {placement : Json} {layer : Layer} (mem : layer ∈ chain.layers) :
    Origin chain (.place id placement) { layer with placement := some placement }
  | refreshed {layer : Layer} (mem : layer ∈ chain.layers) (incoming : Shape) :
    Origin chain .repropagate (layer.refresh incoming)

/-- A strict update that succeeds finds a layer whose kind declares all keys of the patch. -/
lemma declares_of_updateStrict {chain next : Chain} {id : Nat} {patch : Settings} {layer : Layer}
    (h : chain.updateStrict id patch = .ok next) (hl : chain.find id = .ok layer) :
    ∀ key ∈ patch.keys, layer.descriptor.declares key = true := by
  rw [updateStrict, hl] at h
  cases hunknown : patch.keys.find? fun key => !layer.descriptor.declares key with
  | none =>
    intro key hkey
    simpa using List.find?_eq_none.1 hunknown key hkey
  | some key =>
    simp only [bind, Except.bind, hunknown] at h
    cases h

/-- Each layer of an edited chain comes from one of the chain, or it is the one that was added. -/
theorem origin_of_apply {chain next : Chain} {edit : Edit} {layer : Layer}
    (h : chain.apply edit = .ok next) (hl : layer ∈ next.layers) : chain.Origin edit layer := by
  cases edit with
  | append kind =>
    obtain rfl := Except.ok.inj h
    rcases List.mem_append.1 hl with hl | hl
    · exact .kept hl
    · rw [List.mem_singleton.1 hl]
      exact .appended kind
  | update strict id patch =>
    rw [update_eq_ok (update_of_apply h)] at hl
    rcases mem_modify hl with hl | ⟨l, hfound, rfl⟩
    · exact .kept hl
    · refine .updated (List.mem_of_find?_eq_some hfound) ?_
      rintro rfl
      exact declares_of_updateStrict h (by rw [find, get?, hfound])
  | remove id =>
    rw [remove_eq_ok h] at hl
    exact .kept (List.mem_of_mem_eraseP hl)
  | setInputDimension n =>
    obtain rfl := Except.ok.inj h
    exact .kept hl
  | place id placement =>
    rw [place_eq_ok h] at hl
    rcases mem_modify hl with hl | ⟨l, hfound, rfl⟩
    · exact .kept hl
    · exact .placed (List.mem_of_find?_eq_some hfound)
  | repropagate =>
    obtain rfl := Except.ok.inj h
    obtain ⟨l, hmem, s, rfl⟩ := mem_refreshFrom hl
    exact .refreshed hmem s

/-- An edit never takes the counter back, and keeps it in its range. -/
theorem counter_le_of_apply {chain next : Chain} {edit : Edit} (h : chain.apply edit = .ok next)
    (hc : chain.nextId ≤ maxCounter) : chain.nextId ≤ next.nextId ∧ next.nextId ≤ maxCounter := by
  rcases apply_cases h with ⟨kind, -, -, hn⟩ | ⟨-, -, hn⟩
  · rw [hn]
    omega
  · rw [hn]
    exact ⟨Nat.le_refl _, hc⟩

end Chain

end LayerChain
