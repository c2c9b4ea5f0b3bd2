import LayerChain.Proofs.Chain.Confluence
import LayerChain.Proofs.Chain.Numbering
import Mathlib.Data.List.Forall2

/-!
# Edits at positions

An edit that is about the layer of an id changes the first layer of this id. Where the position of
that layer is known, the edit is one of the list of layers at this position
(`Chain.update_of_position`, `Chain.remove_of_position`, `Chain.place_of_position`). So each
successful edit is one of a few changes of that list (`Chain.change_of_apply`). In a numbered chain
every layer is found at its own position (`Chain.Numbered.position?_id`).
-/

namespace LayerChain

/-! ## Lists with related members -/

section

variable {α β : Type} {R : α → β → Prop} {as : List α} {bs : List β}

lemma forall₂_modify (h : List.Forall₂ R as bs) {f : α → α} {g : β → β}
    (hfg : ∀ {a b}, R a b → R (f a) (g b)) (position : Nat) :
    List.Forall₂ R (as.modify position f) (bs.modify position g) := by
  induction h generalizing position with
  | nil => simp
  | cons hab hrest ih =>
    cases position with
    | zero => exact .cons (hfg hab) hrest
    | succ position => exact .cons hab (ih position)

lemma forall₂_eraseIdx (h : List.Forall₂ R as bs) (position : Nat) :
    List.Forall₂ R (as.eraseIdx position) (bs.eraseIdx position) := by
  induction h generalizing position with
  | nil => exact .nil
  | cons hab hrest ih =>
    cases position with
    | zero => exact hrest
    | succ position => exact .cons hab (ih position)

lemma exists_of_forall₂_of_mem (h : List.Forall₂ R as bs) {a : α} (ha : a ∈ as) :
    ∃ b ∈ bs, R a b := by
  induction h with
  | nil => cases ha
  | cons hab _ ih =>
    rcases List.mem_cons.1 ha with rfl | ha
    · exact ⟨_, List.mem_cons_self, hab⟩
    · obtain ⟨b, hb, hr⟩ := ih ha
      exact ⟨b, List.mem_cons_of_mem _ hb, hr⟩

end

namespace Chain

variable {chain : Chain} {id position : Nat} {layer : Layer} {patch : Settings}

/-! ## Looking for a layer -/

/-- The layer at the position of an id is the one that is found. -/
lemma find_of_position (h : chain.position? id = some position) :
    ∃ layer, chain.at? position = some layer ∧ chain.find id = .ok layer := by
  obtain ⟨hlt, hid, hbefore⟩ := List.findIdx?_eq_some_iff_getElem.1 h
  have hget : chain.get? id = some chain.layers[position] :=
    List.find?_eq_some_iff_getElem.2
      ⟨hid, position, hlt, rfl, fun j hj => by simpa using hbefore j hj⟩
  refine ⟨chain.layers[position], List.getElem?_eq_getElem hlt, ?_⟩
  rw [find, hget]

lemma find_of_no_position (h : chain.position? id = none) :
    chain.find id = .error (.layerNotFound id) := by
  have hget : chain.get? id = none := by
    rw [position?, List.findIdx?_eq_none_iff] at h
    rw [get?, List.find?_eq_none]
    intro l hl
    rw [h l hl]
    exact Bool.false_ne_true
  rw [find, hget]

/-- Where ids are distinct, every layer stands at the position of its id. -/
lemma Numbered.position?_id (h : chain.Numbered) (hl : chain.at? position = some layer) :
    chain.position? layer.id = some position := by
  obtain ⟨hlt, rfl⟩ := List.getElem?_eq_some_iff.1 hl
  refine List.findIdx?_eq_some_iff_getElem.2 ⟨hlt, beq_self_eq_true _, ?_⟩
  intro j hj he
  have hlength : position < chain.ids.length := by rwa [ids, List.length_map]
  refine List.nodup_iff_getElem?_ne_getElem?.1 h.nodup j position hj hlength ?_
  rw [ids, List.getElem?_map, List.getElem?_map, List.getElem?_eq_getElem hlt,
    List.getElem?_eq_getElem (by omega)]
  exact congrArg some (beq_iff_eq.1 he)

/-! ## Changing a layer -/

/-- Changing the layer of an id changes the layer at its position. -/
lemma modify_of_position (change : Layer → Layer) {layers : List Layer}
    (h : layers.findIdx? (fun l => l.id == id) = some position) :
    modify id change layers = layers.modify position change := by
  induction layers generalizing position with
  | nil => cases h
  | cons first rest ih =>
    rw [List.findIdx?_cons] at h
    rw [modify]
    by_cases he : first.id = id
    · rw [if_pos (beq_iff_eq.2 he)] at h
      cases h
      rw [if_pos he]
      rfl
    · rw [if_neg (fun hb => he (beq_iff_eq.1 hb))] at h
      obtain ⟨before, hbefore, rfl⟩ := Option.map_eq_some_iff.1 h
      rw [if_neg he, ih hbefore]
      rfl

lemma update_of_position (h : chain.position? id = some position) (patch : Settings) :
    chain.update id patch =
      .ok { chain with layers := chain.layers.modify position (Layer.updated patch) } := by
  obtain ⟨found, -, hfound⟩ := find_of_position h
  rw [← modify_of_position _ h, update, hfound]
  rfl

/-- A strict update is an update, or it is refused for the first key that the kind of the layer at
the position does not declare. -/
lemma updateStrict_of_position (h : chain.position? id = some position)
    (hl : chain.at? position = some layer) (patch : Settings) :
    chain.updateStrict id patch =
      match patch.keys.find? fun key => !layer.descriptor.declares key with
      | some key => .error (.unknownSetting key layer.kind.name)
      | none => chain.update id patch := by
  obtain ⟨found, hat, hfound⟩ := find_of_position h
  obtain rfl := Option.some.inj (hat.symm.trans hl)
  rw [updateStrict, hfound]
  rfl

lemma remove_of_position (h : chain.position? id = some position) :
    chain.remove id = .ok { chain with layers := chain.layers.eraseIdx position } := by
  obtain ⟨found, -, hfound⟩ := find_of_position h
  have herase : (chain.layers.eraseP fun l => l.id == id) = chain.layers.eraseIdx position := by
    rw [position?] at h
    rw [List.eraseP_eq_eraseIdx, h]
  rw [remove, hfound, ← herase]
  rfl

lemma place_of_position (h : chain.position? id = some position) (placement : Json) :
    chain.place id placement =
      .ok { chain with layers := chain.layers.modify position (Layer.placed placement) } := by
  obtain ⟨found, -, hfound⟩ := find_of_position h
  rw [← modify_of_position _ h, place, hfound]
  rfl

/-! ## What an edit does to the layers -/

/-- What a successful edit does to the layers of a chain, where it finds the layer that it is about.
A strict update finds a layer whose kind declares all keys of the patch. -/
inductive Change (chain : Chain) : Edit → List Layer → Prop where
  | appended (kind : Kind) : Change chain (.append kind) (chain.layers ++ [chain.newLayer kind])
  | updated {strict : Bool} {id position : Nat} {patch : Settings} {layer : Layer}
    (found : chain.position? id = some position) (layer_eq : chain.at? position = some layer)
    (declared : strict = true → ∀ key ∈ patch.keys, layer.descriptor.declares key = true) :
    Change chain (.update strict id patch) (chain.layers.modify position (Layer.updated patch))
  | removed {id position : Nat} (found : chain.position? id = some position) :
    Change chain (.remove id) (chain.layers.eraseIdx position)
  | dimensioned (n : UInt64) : Change chain (.setInputDimension n) chain.layers
  | placed {id position : Nat} (placement : Json) (found : chain.position? id = some position) :
    Change chain (.place id placement) (chain.layers.modify position (Layer.placed placement))
  | repropagated : Change chain .repropagate (refreshFrom chain.inputShape chain.layers)

/-- What begins by looking for a layer and succeeds has found it. -/
lemma exists_position_of_bind {rest : Layer → Except Error Chain} {next : Chain}
    (h : (chain.find id >>= rest) = .ok next) :
    ∃ position layer, chain.position? id = some position ∧ chain.at? position = some layer := by
  obtain ⟨found, hfound, -⟩ := bind_eq_ok.1 h
  cases hposition : chain.position? id with
  | none =>
    rw [find_of_no_position hposition] at hfound
    cases hfound
  | some position =>
    obtain ⟨layer, hat, -⟩ := find_of_position hposition
    exact ⟨position, layer, rfl, hat⟩

/-- Every successful edit is one of the changes. -/
theorem change_of_apply {next : Chain} {edit : Edit} (h : chain.apply edit = .ok next) :
    chain.Change edit next.layers := by
  cases edit with
  | append kind =>
    cases h
    exact .appended kind
  | setInputDimension n =>
    cases h
    exact .dimensioned n
  | repropagate =>
    cases h
    exact .repropagated
  | remove id =>
    obtain ⟨position, layer, hposition, -⟩ := exists_position_of_bind h
    have hremove := (remove_of_position hposition).symm.trans h
    cases hremove
    exact .removed hposition
  | place id placement =>
    obtain ⟨position, layer, hposition, -⟩ := exists_position_of_bind h
    have hplace := (place_of_position hposition placement).symm.trans h
    cases hplace
    exact .placed placement hposition
  | update strict id patch =>
    have hu := update_of_apply h
    obtain ⟨position, layer, hposition, hat⟩ := exists_position_of_bind hu
    have hupdate := (update_of_position hposition patch).symm.trans hu
    cases hupdate
    refine .updated hposition hat ?_
    -- a strict update has checked the keys against the layer that it found
    rintro rfl
    obtain ⟨found, hfound, hfind⟩ := find_of_position hposition
    obtain rfl := Option.some.inj (hat.symm.trans hfound)
    exact declares_of_updateStrict h hfind

end Chain

end LayerChain
