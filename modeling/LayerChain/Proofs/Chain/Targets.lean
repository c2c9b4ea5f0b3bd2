import LayerChain.Proofs.Chain.Confluence

/-!
# Edits of one layer

Updates, removals and placements are about the layer of an id (`Edit.target?`). Such an edit looks for
the first layer of this id, and what remains of that layer alone is decided by the layer and the edit
(`Edit.remains`). It is put in the layer's place (`Chain.replace`), and nothing else changes
(`Chain.apply_of_target`).
-/

namespace LayerChain

/-- The id of the layer that an edit is about, if it is about one. -/
def Edit.target? : Edit → Option Nat
  | .update _ id _ | .remove id | .place id _ => some id
  | .append _ | .setInputDimension _ | .repropagate => none

/-- The first key for which an update of a layer is refused, if there is one: in a strict update one
that the layer's kind does not declare. -/
def Layer.refusedKey? (layer : Layer) (strict : Bool) (patch : Settings) : Option String :=
  if strict then patch.keys.find? fun key => !layer.descriptor.declares key else none

/-- What remains of a layer after an edit that is about it, or why the edit is refused. -/
def Edit.remains : Edit → Layer → Except Error (Option Layer)
  | .update strict _ patch, layer =>
    match layer.refusedKey? strict patch with
    | some key => .error (.unknownSetting key layer.kind.name)
    | none => .ok (some (layer.updated patch))
  | .remove _, _ => .ok none
  | .place _ placement, layer => .ok (some (layer.placed placement))
  | .append _, layer | .setInputDimension _, layer | .repropagate, layer => .ok (some layer)

/-- What remains of a layer keeps its id and its kind. -/
lemma Edit.remains_eq_ok {edit : Edit} {layer left : Layer}
    (h : edit.remains layer = .ok (some left)) : left.id = layer.id ∧ left.kind = layer.kind := by
  cases edit with
  | update strict id patch =>
    rw [remains] at h
    split at h
    · cases h
    · cases h
      exact ⟨rfl, rfl⟩
  | remove id => cases h
  | _ =>
    cases h
    exact ⟨rfl, rfl⟩

/-- Nothing remains of a layer after an update for the one cause that some key is refused. -/
lemma Edit.remains_update_eq_error_iff {strict : Bool} {id : Nat} {patch : Settings} {layer : Layer}
    {e : Error} : (Edit.update strict id patch).remains layer = .error e ↔
      ∃ key, layer.refusedKey? strict patch = some key ∧
        e = .unknownSetting key layer.kind.name := by
  rw [remains]
  cases layer.refusedKey? strict patch with
  | none => simp
  | some key => simp [eq_comm]

namespace Chain

/-! ## In the place of a layer -/

/-- The layers with what remains of the first layer of an id in its place. -/
def replace (id : Nat) (left : Option Layer) : List Layer → List Layer
  | [] => []
  | l :: rest => if l.id = id then left.toList ++ rest else l :: replace id left rest

section

variable {a b id : Nat} {x y : Option Layer} {layers before behind : List Layer} {layer : Layer}

lemma replace_append (hbefore : ∀ l ∈ before, l.id ≠ id) (hlayer : layer.id = id)
    (left : Option Layer) :
    replace id left (before ++ layer :: behind) = before ++ (left.toList ++ behind) := by
  induction before with
  | nil => rw [List.nil_append, replace, if_pos hlayer, List.nil_append]
  | cons l before ih =>
    obtain ⟨hl, hrest⟩ := List.forall_mem_cons.1 hbefore
    rw [List.cons_append, replace, if_neg hl, ih hrest, List.cons_append]

lemma modify_eq_replace (h : layers.find? (fun l => l.id == id) = some layer)
    (change : Layer → Layer) : modify id change layers = replace id (some (change layer)) layers := by
  induction layers with
  | nil => cases h
  | cons l rest ih =>
    rw [List.find?_cons] at h
    rw [modify, replace]
    by_cases hl : l.id = id
    · rw [beq_iff_eq.2 hl] at h
      cases h
      rw [if_pos hl, if_pos hl]
      rfl
    · rw [beq_eq_false_iff_ne.2 hl] at h
      rw [if_neg hl, if_neg hl, ih h]

lemma eraseP_eq_replace (id : Nat) (layers : List Layer) :
    (layers.eraseP fun l => l.id == id) = replace id none layers := by
  induction layers with
  | nil => rfl
  | cons l rest ih =>
    rw [List.eraseP_cons, replace, ih]
    simp [cond_eq_ite]

/-- Layers of different ids can be replaced in either order. -/
lemma replace_comm (hab : a ≠ b) (hx : ∀ l ∈ x, l.id = a) (hy : ∀ l ∈ y, l.id = b)
    (layers : List Layer) :
    replace b y (replace a x layers) = replace a x (replace b y layers) := by
  -- what replaces a layer of one id is passed over by the search for the other id
  have hpass : ∀ {c d : Nat} {z : Option Layer}, c ≠ d → (∀ l ∈ z, l.id = c) →
      ∀ (w : Option Layer) (rest : List Layer),
        replace d w (z.toList ++ rest) = z.toList ++ replace d w rest := by
    intro c d z hcd hz w rest
    cases z with
    | none => rfl
    | some l =>
      have hl : l.id ≠ d := fun h => hcd ((hz l rfl).symm.trans h)
      exact if_neg hl
  induction layers with
  | nil => rfl
  | cons l rest ih =>
    by_cases ha : l.id = a
    · have hb : l.id ≠ b := fun h => hab (ha.symm.trans h)
      rw [replace, if_pos ha, replace, if_neg hb, replace, if_pos ha, hpass hab hx]
    · by_cases hb : l.id = b
      · rw [replace, if_neg ha, replace, if_pos hb, replace, if_pos hb, hpass hab.symm hy]
      · rw [replace, if_neg ha, replace, if_neg hb, replace, if_neg hb, replace, if_neg ha, ih]

/-- The layer of another id is found as before. -/
lemma find?_replace_of_ne (hab : a ≠ b) (hx : ∀ l ∈ x, l.id = a) (layers : List Layer) :
    (replace a x layers).find? (fun l => l.id == b) = layers.find? fun l => l.id == b := by
  induction layers with
  | nil => rfl
  | cons l rest ih =>
    rw [replace]
    by_cases ha : l.id = a
    · have hb : (l.id == b) = false := beq_eq_false_iff_ne.2 fun h => hab (ha.symm.trans h)
      rw [if_pos ha, List.find?_cons, hb]
      cases x with
      | none => rfl
      | some m =>
        have hm : (m.id == b) = false := beq_eq_false_iff_ne.2 fun h => hab ((hx m rfl).symm.trans h)
        exact List.find?_cons_of_neg (by simp [hm])
    · rw [if_neg ha, List.find?_cons, List.find?_cons, ih]

/-- What replaces the layer of an id is found in its place, and can be replaced again. -/
lemma replace_replace (hlayer : layer.id = id) (left : Option Layer) (layers : List Layer) :
    replace id left (replace id (some layer) layers) = replace id left layers := by
  induction layers with
  | nil => rfl
  | cons l rest ih =>
    by_cases hl : l.id = id
    · rw [replace, if_pos hl, replace, if_pos hl]
      exact if_pos hlayer
    · rw [replace, if_neg hl, replace, if_neg hl, replace, if_neg hl, ih]

end

/-! ## One edit -/

variable {chain next : Chain} {edit e f : Edit} {a b id : Nat} {layer : Layer} {x y : Option Layer}

/-- What remains of the layer of an id after an edit that is about it, or why the edit fails. -/
def left (chain : Chain) (edit : Edit) (id : Nat) : Except Error (Option Layer) := do
  edit.remains (← chain.find id)

/-- A chain with what remains of the layer of an id in its place. -/
def withLeft (chain : Chain) (id : Nat) (left : Option Layer) : Chain :=
  { chain with layers := replace id left chain.layers }

lemma find_eq_ok : chain.find id = .ok layer ↔
    chain.layers.find? (fun l => l.id == id) = some layer := by
  rw [find, get?]
  cases chain.layers.find? fun l => l.id == id with
  | none => simp
  | some l => simp

lemma exists_find_iff : (∃ layer, chain.find id = .ok layer) ↔ id ∈ chain.ids := by
  simp only [find_eq_ok, ← Option.isSome_iff_exists, List.find?_isSome, beq_iff_eq, ids,
    List.mem_map]

lemma find_eq_error_iff {e : Error} :
    chain.find id = .error e ↔ id ∉ chain.ids ∧ e = .layerNotFound id := by
  rw [← exists_find_iff, find]
  cases hget : chain.get? id with
  | none => simp [eq_comm]
  | some layer => simp

/-- The layer that is found is the first one of its id. -/
lemma split_of_find (h : chain.find id = .ok layer) : layer.id = id ∧
    ∃ before behind, chain.layers = before ++ layer :: behind ∧ ∀ l ∈ before, l.id ≠ id := by
  obtain ⟨hid, before, behind, hlayers, hbefore⟩ :=
    List.find?_eq_some_iff_append.1 (find_eq_ok.1 h)
  exact ⟨beq_iff_eq.1 hid, before, behind, hlayers, by simpa using hbefore⟩

lemma update_of_find (h : chain.find id = .ok layer) (patch : Settings) :
    chain.update id patch = .ok (chain.withLeft id (some (layer.updated patch))) := by
  rw [update, h]
  exact congrArg (fun ls => Except.ok { chain with layers := ls })
    (modify_eq_replace (find_eq_ok.1 h) (Layer.updated patch))

lemma place_of_find (h : chain.find id = .ok layer) (placement : Json) :
    chain.place id placement = .ok (chain.withLeft id (some (layer.placed placement))) := by
  rw [place, h]
  exact congrArg (fun ls => Except.ok { chain with layers := ls })
    (modify_eq_replace (find_eq_ok.1 h) (Layer.placed placement))

lemma remove_of_find (h : chain.find id = .ok layer) :
    chain.remove id = .ok (chain.withLeft id none) := by
  rw [remove, h, withLeft, ← eraseP_eq_replace]
  rfl

/-- An edit fails if it is about a layer that is not there. -/
lemma apply_of_find_error {error : Error} (h : edit.target? = some id)
    (hfind : chain.find id = .error error) : chain.apply edit = .error error := by
  cases edit with
  | update strict id patch =>
    cases h
    cases strict <;> exact bind_eq_error.2 (.inl hfind)
  | remove id =>
    cases h
    exact bind_eq_error.2 (.inl hfind)
  | place id placement =>
    cases h
    exact bind_eq_error.2 (.inl hfind)
  | _ => cases h

lemma apply_of_find (h : edit.target? = some id) (hfind : chain.find id = .ok layer) :
    chain.apply edit = (edit.remains layer).map (chain.withLeft id) := by
  cases edit with
  | update strict id patch =>
    cases h
    cases strict with
    | false => exact update_of_find hfind patch
    | true =>
      show chain.updateStrict id patch = _
      rw [updateStrict, hfind, Edit.remains, Layer.refusedKey?, if_pos rfl]
      simp only [bind, Except.bind]
      cases patch.keys.find? fun key => !layer.descriptor.declares key with
      | some key => rfl
      | none => exact update_of_find hfind patch
  | remove id =>
    cases h
    exact remove_of_find hfind
  | place id placement =>
    cases h
    exact place_of_find hfind placement
  | _ => cases h

/-- An edit that is about the layer of an id puts what remains of this layer in its place. -/
theorem apply_of_target (h : edit.target? = some id) :
    chain.apply edit = (chain.left edit id).map (chain.withLeft id) := by
  rw [left]
  cases hfind : chain.find id with
  | error e => exact apply_of_find_error h hfind
  | ok layer => exact apply_of_find h hfind

/-! ## Two edits -/

lemma left_eq_ok : chain.left edit id = .ok x ↔
    ∃ layer, chain.find id = .ok layer ∧ edit.remains layer = .ok x := bind_eq_ok

/-- What remains of the layer of an id still has this id. -/
lemma id_of_left (h : chain.left edit id = .ok x) : ∀ l ∈ x, l.id = id := by
  obtain ⟨layer, hfind, hremains⟩ := left_eq_ok.1 h
  rintro l rfl
  exact (Edit.remains_eq_ok hremains).1.trans (split_of_find hfind).1

/-- What remains of a layer does not hang on what became of another one. -/
lemma left_withLeft_of_ne (hab : a ≠ b) (hx : ∀ l ∈ x, l.id = a) :
    (chain.withLeft a x).left edit b = chain.left edit b := by
  have hget : (chain.withLeft a x).get? b = chain.get? b := find?_replace_of_ne hab hx chain.layers
  rw [left, left, find, find, hget]

end Chain

end LayerChain
