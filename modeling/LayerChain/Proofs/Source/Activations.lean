import LayerChain.Proofs.Source.Faults

/-!
# Which activations are applied

An activation is a name, but a setting may have a value of any type. A name is applied, right behind
its layer, or it is refused if it is no identifier. A truth value or a number is neither applied nor
refused: it is dropped without an error, and the source is the one of the model without the
activation (`Generator.generate_deactivated`, `number_drops_activation`).
-/

namespace LayerChain

namespace ModelLayer

/-- A layer sets an activation that does not mean none: it is dense or a convolution, and its
activation is there, and it is neither left open nor `None`. -/
structure Selects (layer : ModelLayer) (v : SettingValue) : Prop where
  kind_eq : layer.kind = "Dense" ∨ layer.kind = "SpatialConv"
  setting : layer.settings.get? "activation" = some v
  ne_auto : v ≠ .auto
  ne_none : v ≠ .choice "None"

/-- The layer with the activation that means none. -/
def deactivated (layer : ModelLayer) : ModelLayer :=
  { layer with settings := layer.settings.insert "activation" (.choice "None") }

variable {layer : ModelLayer} {v : SettingValue} {name : String}

lemma Selects.activates (h : layer.Selects (.choice name)) : layer.Activates name :=
  ⟨h.kind_eq, h.setting, fun hname => h.ne_none (congrArg SettingValue.choice hname)⟩

/-- A value other than a choice takes no effect. -/
lemma Selects.not_activates (h : layer.Selects v) (hv : ∀ name, v ≠ .choice name) (name : String) :
    ¬layer.Activates name := by
  rintro ⟨-, hsetting, -⟩
  exact hv name (Option.some.inj (h.setting.symm.trans hsetting))

lemma not_activates_deactivated (layer : ModelLayer) (name : String) :
    ¬layer.deactivated.Activates name := by
  rintro ⟨-, hsetting, hname⟩
  have hnone : layer.deactivated.settings.get? "activation" = some (.choice "None") :=
    Settings.get?_insert_self _ _ _
  cases Option.some.inj (hnone.symm.trans hsetting)
  exact hname rfl

/-- A layer whose activation takes no effect is alike the one without it. -/
lemma alike_deactivated (h : ∀ name, ¬layer.Activates name) : layer.Alike layer.deactivated where
  kind := rfl
  settings kind _ f hf hrole := by
    have hname : ∀ f ∈ (Catalog.describe kind).fields, f.role ≠ .activation →
        f.name ≠ "activation" := by
      cases kind <;> decide
    exact (Settings.get?_insert_of_ne _ _ (hname f hf hrole)).symm
  activation name := iff_of_false (h name) (not_activates_deactivated layer name)

end ModelLayer

/-! ## Lists of layers -/

namespace Model

variable {layers : List ModelLayer} {layer : ModelLayer} {position i : Nat} {cs : List Component}

lemma alike_modify_deactivated (hat : layers[i]? = some layer)
    (h : ∀ name, ¬layer.Activates name) :
    List.Forall₂ ModelLayer.Alike layers (layers.modify i ModelLayer.deactivated) := by
  induction layers generalizing i with
  | nil => cases hat
  | cons first layers ih =>
    cases i with
    | zero =>
      cases hat
      exact .cons (ModelLayer.alike_deactivated h) (List.forall₂_same.2 fun l _ => .refl l)
    | succ i => exact .cons (.refl first) (ih hat)

/-- Where the activation of a layer takes no effect, no component is named as its activation. -/
lemma ne_activation_of_componentsFrom (h : componentsFrom 0 layers = .ok cs)
    (hat : layers[i]? = some layer) (hnone : ∀ name, ¬layer.Activates name) :
    ∀ c ∈ cs, c.name ≠ "act" ++ toString i := by
  intro c hc hname
  have hname' : c.name = (Component.ofActivation i "").name := hname
  obtain ⟨j, l, kind, hl, hkind, rfl | ⟨activation, hactivation, rfl⟩⟩ := mem_componentsFrom h hc
  · exact Component.name_ne_activation hname'
  · have hposition := (Component.namedAt_ofActivation _ _).position_unique
      (Component.namedAt_ofActivation _ _) hname'
    rw [Nat.zero_add] at hposition
    rw [hposition, hat] at hl
    cases hl
    exact hnone activation ((ModelLayer.activation?_eq_some_iff hkind).1 hactivation)

/-- The model with a layer whose activation means none. -/
def deactivated (model : Model) (i : Nat) : Model :=
  { model with layers := model.layers.modify i ModelLayer.deactivated }

end Model

/-! ## The source of a model -/

namespace Generator

variable {model : Model} {i : Nat} {layer : ModelLayer} {v : SettingValue} {name source : String}

/-- Where the activation of a layer takes no effect, the source is the one without it. -/
lemma generate_deactivated (generator : Generator) (hat : model.layers[i]? = some layer)
    (h : ∀ name, ¬layer.Activates name) :
    generator.generate (model.deactivated i) = generator.generate model := by
  have hcomponents : model.components = (model.deactivated i).components :=
    Model.componentsFrom_eq_of_alike (Model.alike_modify_deactivated hat h) 0
  rw [generate, generate, hcomponents]

/-- Where source is generated, an activation that takes effect stands right behind its layer. -/
lemma applied_of_generate {generator : Generator} (hat : model.layers[i]? = some layer)
    (hactivates : layer.Activates name) (h : generator.generate model = .ok source) :
    ∃ look own act before behind, own.ShowsLayer layer i look ∧ act.ShowsActivation layer i name ∧
      source = textOfLines (writtenLines generator.className (before ++ own :: act :: behind)) := by
  rw [generate_eq] at h
  obtain ⟨cs, hcs, rfl⟩ := map_eq_ok.1 h
  obtain ⟨before, block, behind, hblock, rfl⟩ := Model.exists_block_at hcs hat
  rw [Nat.zero_add] at hblock
  obtain ⟨kind, hkind, -, rfl⟩ := ModelLayer.components_eq_ok hblock
  refine ⟨kind.appearance, _, _, before, behind, Component.showsLayer_ofLayer hkind i,
    Component.showsActivation_ofActivation hactivates i, ?_⟩
  rw [ModelLayer.activationComponents, (ModelLayer.activation?_eq_some_iff hkind).2 hactivates]
  rfl

/-- A faulty layer stops the generation, with its own error if no layer before it is faulty. -/
lemma error_of_faulty {generator : Generator} {e : Error} (hat : model.layers[i]? = some layer)
    (h : layer.Faulty i e) : ∃ e', generator.generate model = .error e' ∧
      ((∀ j l e'', j < i → model.layers[j]? = some l → ¬l.Faulty j e'') → e' = e) := by
  cases hcs : model.components with
  | ok cs =>
    obtain ⟨before, block, behind, hblock, -⟩ := Model.exists_block_at hcs hat
    rw [Nat.zero_add, ModelLayer.components_eq_error_iff.2 h] at hblock
    cases hblock
  | error e' =>
    refine ⟨e', ?_, fun hbefore => ?_⟩
    · rw [generate, hcs]
      rfl
    · have hfirst : Model.FirstFault 0 model.layers i e :=
        ⟨⟨layer, hat, (Nat.zero_add i).symm ▸ h⟩,
          fun j l e'' hj hl => (Nat.zero_add j).symm ▸ hbefore j l e'' hj hl⟩
      have herror := Model.componentsFrom_eq_error_iff.2 ⟨i, hfirst⟩
      exact Except.error.inj (hcs.symm.trans herror)

/-- What becomes of an activation that does not mean none. A choice is declared and applied right
behind its layer if source is generated. A choice that is no identifier stops the generation, and it
is the error unless an earlier layer is faulty. Any other value is dropped: what is generated is
what would be for `None`, and no component is named as the activation. -/
theorem only_choices_take_effect (generator : Generator) (hat : model.layers[i]? = some layer)
    (h : layer.Selects v) :
    (∀ name, v = .choice name →
      (∀ source, generator.generate model = .ok source →
        ∃ look own act before behind,
          own.ShowsLayer layer i look ∧ act.ShowsActivation layer i name ∧
          source = textOfLines
            (writtenLines generator.className (before ++ own :: act :: behind))) ∧
      (Component.isIdentifier name = false → ∃ e, generator.generate model = .error e ∧
        ((∀ j l e', j < i → model.layers[j]? = some l → ¬l.Faulty j e') →
          e = .invalidActivation name i))) ∧
    ((∀ name, v ≠ .choice name) →
      generator.generate model = generator.generate (model.deactivated i) ∧
      ∀ cs, model.components = .ok cs → ∀ c ∈ cs, c.name ≠ "act" ++ toString i) := by
  constructor
  · rintro name rfl
    exact ⟨fun source hsource => applied_of_generate hat h.activates hsource,
      fun hidentifier => error_of_faulty hat (.activation h.activates hidentifier)⟩
  · intro hv
    have hnone := h.not_activates hv
    exact ⟨(generate_deactivated generator hat hnone).symm,
      fun cs hcs => Model.ne_activation_of_componentsFrom hcs hat hnone⟩

end Generator

/-- A dense layer with a name as its activation, and a convolution with a truth value. -/
def looseModel : Model := ⟨4, [
  ⟨"Dense", .ofList [("activation", .choice "Tanh")]⟩,
  ⟨"SpatialConv", .ofList [("activation", .bool true)]⟩]⟩

/-- In one model, the name is applied, and the truth value is dropped. -/
theorem only_choices_take_effect_on_loose_model : ∃ source,
    (Generator.mk "Net").generate looseModel = .ok source ∧
    (Generator.mk "Net").generate (looseModel.deactivated 1) = .ok source ∧
    ∃ own act before behind, act.className = "Tanh" ∧ act.application = "x = self.act0(x)" ∧
      source = textOfLines (writtenLines "Net" (before ++ own :: act :: behind)) := by
  obtain ⟨source, hsource⟩ : ∃ source, (Generator.mk "Net").generate looseModel = .ok source :=
    ⟨_, rfl⟩
  have hdense : looseModel.layers[0]? =
      some ⟨"Dense", .ofList [("activation", .choice "Tanh")]⟩ := rfl
  have hconvolution : looseModel.layers[1]? =
      some ⟨"SpatialConv", .ofList [("activation", .bool true)]⟩ := rfl
  obtain ⟨hname, -⟩ := Generator.only_choices_take_effect ⟨"Net"⟩ hdense
    ⟨.inl rfl, rfl, by decide, by decide⟩
  obtain ⟨-, hothers⟩ := Generator.only_choices_take_effect ⟨"Net"⟩ hconvolution
    ⟨.inr rfl, rfl, by decide, by decide⟩
  obtain ⟨hsame, -⟩ := hothers fun name => nofun
  obtain ⟨look, own, act, before, behind, -, hact, htext⟩ := (hname "Tanh" rfl).1 source hsource
  refine ⟨source, hsource, hsame ▸ hsource, own, act, before, behind, hact.className_eq, ?_, htext⟩
  rw [hact.application_eq, hact.name_eq]
  rfl

/-- A number as the activation of a dense layer: it is there, it is neither left open nor `None`,
and it is no identifier. Still source is generated, and no line of it is about an activation. -/
theorem number_drops_activation :
    let layer : ModelLayer := ⟨"Dense", .ofList [("activation", .int 5)]⟩
    layer.Selects (.int 5) ∧ ∃ lines : List String,
      (default : Generator).generate ⟨4, [layer]⟩ = .ok (textOfLines lines) ∧
      ∀ line ∈ lines, ¬"self.act".toList <:+: line.toList := by
  intro layer
  let lines := moduleLines "GeneratedModel" [.ofLayer 0 .dense layer.settings]
  have hsource : (default : Generator).generate ⟨4, [layer]⟩ = .ok (textOfLines lines) := rfl
  exact ⟨⟨.inl rfl, rfl, by decide, by decide⟩, lines, hsource, by decide +kernel⟩

end LayerChain
