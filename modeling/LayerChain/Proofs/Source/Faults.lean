import LayerChain.Proofs.Source.Structure

/-!
# Layers without source

A layer has no source if its kind is unknown, or if its activation takes effect and is no identifier
(`ModelLayer.Faulty`). The components of a model are made from the first layer on, so the first
faulty layer says why there are none (`Model.componentsFrom_eq_error_iff`).
-/

namespace LayerChain

/-- A layer at a position is faulty: no kind has its name, or the activation that takes effect is no
identifier. -/
inductive ModelLayer.Faulty (layer : ModelLayer) (position : Nat) : Error → Prop where
  | kind (unknown : ∀ kind : Kind, kind.name ≠ layer.kind) :
    Faulty layer position (.unsupportedKind layer.kind)
  | activation {name : String} (activates : layer.Activates name)
    (noIdentifier : Component.isIdentifier name = false) :
    Faulty layer position (.invalidActivation name position)

/-- No kind is found by a name iff no kind has it. -/
lemma Kind.ofName?_eq_none_iff {name : String} :
    ofName? name = none ↔ ∀ kind : Kind, kind.name ≠ name := by
  constructor
  · rintro h kind rfl
    rw [ofName?_name] at h
    cases h
  · intro h
    refine Option.eq_none_iff_forall_ne_some.2 fun kind hkind => h kind ?_
    exact (eq_name_of_ofName? hkind).symm

namespace ModelLayer

variable {layer : ModelLayer} {position : Nat} {e : Error}

/-- Where a layer activates, its kind is known. -/
lemma Activates.exists_kind {name : String} (h : layer.Activates name) :
    ∃ kind, Kind.ofName? layer.kind = some kind := by
  rcases h.1 with hkind | hkind
  · exact ⟨.dense, by rw [hkind]; rfl⟩
  · exact ⟨.spatialConv, by rw [hkind]; rfl⟩

/-- A layer has no components iff it is faulty. -/
lemma components_eq_error_iff : layer.components position = .error e ↔ layer.Faulty position e := by
  constructor
  · intro h
    unfold components at h
    cases hkind : Kind.ofName? layer.kind with
    | none =>
      rw [hkind] at h
      cases h
      exact .kind (Kind.ofName?_eq_none_iff.1 hkind)
    | some kind =>
      rw [hkind] at h
      dsimp only at h
      cases hactivation : Component.activation? kind layer.settings with
      | none =>
        rw [hactivation] at h
        cases h
      | some name =>
        rw [hactivation] at h
        dsimp only at h
        split_ifs at h with hidentifier
        cases h
        exact .activation ((activation?_eq_some_iff hkind).1 hactivation)
          (Bool.eq_false_iff.2 hidentifier)
  · intro h
    unfold components
    cases h with
    | kind unknown => rw [Kind.ofName?_eq_none_iff.2 unknown]
    | activation activates noIdentifier =>
      obtain ⟨kind, hkind⟩ := activates.exists_kind
      rw [hkind]
      dsimp only
      rw [(activation?_eq_some_iff hkind).2 activates]
      dsimp only
      rw [if_neg (Bool.eq_false_iff.1 noIdentifier)]

/-- A layer has components iff it is not faulty. -/
lemma exists_components_iff :
    (∃ cs, layer.components position = .ok cs) ↔ ∀ e, ¬layer.Faulty position e := by
  simp only [← components_eq_error_iff]
  cases layer.components position with
  | error e => simp
  | ok cs => simp

end ModelLayer

namespace Model

/-- A layer of a list is the first that is faulty, and for this error. The list starts at a
position. -/
structure FirstFault (position : Nat) (layers : List ModelLayer) (i : Nat) (e : Error) : Prop where
  exists_faulty : ∃ layer, layers[i]? = some layer ∧ layer.Faulty (position + i) e
  before : ∀ j l e', j < i → layers[j]? = some l → ¬l.Faulty (position + j) e'

variable {position i : Nat} {layer : ModelLayer} {layers : List ModelLayer} {e : Error}

/-- Behind a layer that is not faulty the first fault is the one of the list, one position on. -/
lemma firstFault_succ_iff (h : ∀ e, ¬layer.Faulty position e) :
    FirstFault position (layer :: layers) (i + 1) e ↔ FirstFault (position + 1) layers i e := by
  have hposition : ∀ j, position + (j + 1) = position + 1 + j := fun j => by omega
  constructor
  · rintro ⟨hfaulty, hbefore⟩
    refine ⟨?_, fun j l e' hj hl => ?_⟩
    · rwa [hposition] at hfaulty
    · rw [← hposition]
      exact hbefore (j + 1) l e' (Nat.succ_lt_succ hj) hl
  · rintro ⟨hfaulty, hbefore⟩
    refine ⟨?_, fun j l e' hj hl => ?_⟩
    · rwa [hposition]
    · cases j with
      | zero =>
        cases hl
        exact h e'
      | succ j =>
        rw [hposition]
        exact hbefore j l e' (Nat.lt_of_succ_lt_succ hj) hl

/-- The components of a list of layers fail with the error of the first faulty layer. -/
theorem componentsFrom_eq_error_iff :
    componentsFrom position layers = .error e ↔ ∃ i, FirstFault position layers i e := by
  induction layers generalizing position with
  | nil =>
    constructor
    · rintro ⟨⟩
    · rintro ⟨i, ⟨layer, hlayer, -⟩, -⟩
      cases hlayer
  | cons layer layers ih =>
    rw [componentsFrom, bind_eq_error]
    constructor
    · rintro (hfirst | ⟨cs, hcs, hrest⟩)
      · have hfaulty := ModelLayer.components_eq_error_iff.1 hfirst
        exact ⟨0, ⟨layer, rfl, hfaulty⟩, fun j _ _ hj => by omega⟩
      · have hsound := ModelLayer.exists_components_iff.1 ⟨cs, hcs⟩
        rcases bind_eq_error.1 hrest with hothers | ⟨others, -, ⟨⟩⟩
        obtain ⟨i, h⟩ := ih.1 hothers
        exact ⟨i + 1, (firstFault_succ_iff hsound).2 h⟩
    · rintro ⟨i, h⟩
      cases i with
      | zero =>
        obtain ⟨l, hl, hfaulty⟩ := h.exists_faulty
        cases hl
        exact .inl (ModelLayer.components_eq_error_iff.2 hfaulty)
      | succ i =>
        have hsound : ∀ e', ¬layer.Faulty position e' :=
          fun e' => h.before 0 layer e' (Nat.succ_pos i) rfl
        obtain ⟨cs, hcs⟩ := ModelLayer.exists_components_iff.2 hsound
        have hothers := ih.2 ⟨i, (firstFault_succ_iff hsound).1 h⟩
        exact .inr ⟨cs, hcs, bind_eq_error.2 (.inl hothers)⟩

end Model

end LayerChain
