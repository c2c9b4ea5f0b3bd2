import LayerChain.Proofs.Source.Activations
import Mathlib.Computability.Language

/-!
# When generation fails

Generating the source of a model fails at the first layer that gives cause for it: its kind is
unknown, or an activation that takes effect is no identifier (`ModelLayer.Refusal`). Identifiers are
given by a regular language, which the test of a name decides (`isIdentifier_iff`).

Nothing else is looked at. Models whose layers are of the same kinds and choose the same activations
fail alike, under whatever class names (`Generator.error_iff_of_choosesAlike`), and a model of a
chain has no unknown kinds.
-/

namespace LayerChain

/-! ## Identifiers -/

section

open scoped Computability

/-- The words of one character with a property. -/
def oneOf (p : Char → Prop) : Language Char := {word | ∃ c, word = [c] ∧ p c}

/-- An ASCII letter. -/
def IsLetter (c : Char) : Prop := ('A' ≤ c ∧ c ≤ 'Z') ∨ ('a' ≤ c ∧ c ≤ 'z')

/-- The words that match `[A-Za-z_][A-Za-z0-9_]*`. -/
def identifiers : Language Char :=
  oneOf (fun c => IsLetter c ∨ c = '_') *
    (oneOf fun c => IsLetter c ∨ ('0' ≤ c ∧ c ≤ '9') ∨ c = '_')∗

/-- Words of one character, put together in any number, are the words of such characters. -/
lemma mem_kstar_oneOf {p : Char → Prop} {word : List Char} :
    word ∈ (oneOf p)∗ ↔ ∀ c ∈ word, p c := by
  rw [Language.mem_kstar]
  constructor
  · rintro ⟨words, rfl, hwords⟩ c hc
    obtain ⟨part, hpart, hc⟩ := List.mem_flatten.1 hc
    obtain ⟨d, rfl, hd⟩ := hwords part hpart
    rwa [List.mem_singleton.1 hc]
  · intro hword
    refine ⟨word.map fun c => [c], (List.flatMap_singleton' word).symm, fun part hpart => ?_⟩
    obtain ⟨c, hc, rfl⟩ := List.mem_map.1 hpart
    exact ⟨c, rfl, hword c hc⟩

lemma mem_identifiers_iff {word : List Char} : word ∈ identifiers ↔
    ∃ c rest, word = c :: rest ∧ (IsLetter c ∨ c = '_') ∧
      ∀ d ∈ rest, IsLetter d ∨ ('0' ≤ d ∧ d ≤ '9') ∨ d = '_' := by
  rw [identifiers, Language.mem_mul]
  constructor
  · rintro ⟨_, ⟨c, rfl, hc⟩, rest, hrest, rfl⟩
    exact ⟨c, rest, rfl, hc, mem_kstar_oneOf.1 hrest⟩
  · rintro ⟨c, rest, rfl, hc, hrest⟩
    exact ⟨[c], ⟨c, rfl, hc⟩, rest, mem_kstar_oneOf.2 hrest, rfl⟩

end

lemma isAlpha_iff {c : Char} : c.isAlpha = true ↔ IsLetter c := by
  have hupper : c.isUpper = true ↔ 'A' ≤ c ∧ c ≤ 'Z' := decide_eq_true_iff
  have hlower : c.isLower = true ↔ 'a' ≤ c ∧ c ≤ 'z' := by
    show (decide ('a' ≤ c) && decide (c ≤ 'z')) = true ↔ _
    rw [Bool.and_eq_true, decide_eq_true_iff, decide_eq_true_iff]
  rw [IsLetter, ← hupper, ← hlower, ← Bool.or_eq_true]
  rfl

lemma isDigit_iff {c : Char} : c.isDigit = true ↔ '0' ≤ c ∧ c ≤ '9' := by
  show (decide ('0' ≤ c) && decide (c ≤ '9')) = true ↔ _
  rw [Bool.and_eq_true, decide_eq_true_iff, decide_eq_true_iff]

/-- The names that pass as identifiers are the words of the language. -/
lemma isIdentifier_iff {name : String} :
    Component.isIdentifier name = true ↔ name.toList ∈ identifiers := by
  rw [mem_identifiers_iff, Component.isIdentifier]
  cases name.toList with
  | nil => simp
  | cons c rest =>
    simp [Component.startsIdentifier, Component.continuesIdentifier, Char.isAlphanum, isAlpha_iff,
      isDigit_iff, or_assoc]

/-! ## Causes -/

namespace ModelLayer

/-- No kind has the name of the layer's kind. -/
def UnknownKind (layer : ModelLayer) : Prop := ∀ kind : Kind, kind.name ≠ layer.kind

/-- An activation of the layer takes effect, and it is no identifier. -/
def Misnames (layer : ModelLayer) (name : String) : Prop :=
  layer.Activates name ∧ name.toList ∉ identifiers

/-- The layer at a position gives cause for an error. -/
def Refusal (layer : ModelLayer) (position : Nat) (e : Error) : Prop :=
  (layer.UnknownKind ∧ e = .unsupportedKind layer.kind) ∨
    ∃ name, layer.Misnames name ∧ e = .invalidActivation name position

/-- Two layers are of one kind, and choose the same activation if they choose any. -/
structure ChoosesAlike (l m : ModelLayer) : Prop where
  kind : l.kind = m.kind
  activation : ∀ name, l.settings.get? "activation" = some (.choice name) ↔
    m.settings.get? "activation" = some (.choice name)

variable {layer l m : ModelLayer} {position : Nat} {e : Error}

/-- The causes are the faults that stop the generation. -/
lemma faulty_iff_refusal : layer.Faulty position e ↔ layer.Refusal position e := by
  constructor
  · rintro (hunknown | ⟨hactivates, hname⟩)
    · exact .inl ⟨hunknown, rfl⟩
    · refine .inr ⟨_, ⟨hactivates, ?_⟩, rfl⟩
      rw [← isIdentifier_iff, hname]
      exact Bool.false_ne_true
  · rintro (⟨hunknown, rfl⟩ | ⟨name, ⟨hactivates, hname⟩, rfl⟩)
    · exact .kind hunknown
    · rw [← isIdentifier_iff] at hname
      exact .activation hactivates (Bool.eq_false_iff.2 hname)

lemma exists_refusal_iff (layer : ModelLayer) (position : Nat) :
    (∃ e, layer.Refusal position e) ↔ layer.UnknownKind ∨ ∃ name, layer.Misnames name := by
  constructor
  · rintro ⟨e, ⟨hunknown, -⟩ | ⟨name, hname, -⟩⟩
    · exact .inl hunknown
    · exact .inr ⟨name, hname⟩
  · rintro (hunknown | ⟨name, hname⟩)
    · exact ⟨_, .inl ⟨hunknown, rfl⟩⟩
    · exact ⟨_, .inr ⟨name, hname, rfl⟩⟩

lemma ChoosesAlike.faulty_iff (h : l.ChoosesAlike m) : l.Faulty position e ↔ m.Faulty position e := by
  simp only [faulty_iff_refusal, Refusal, UnknownKind, Misnames, Activates, h.kind, h.activation]

end ModelLayer

/-! ## Models -/

namespace Model

variable {layer : ModelLayer} {layers others : List ModelLayer} {position : Nat} {e : Error}

/-- The components of a list fail with those of its first layer, or behind it. -/
lemma componentsFrom_cons_eq_error_iff : componentsFrom position (layer :: layers) = .error e ↔
    layer.components position = .error e ∨
      (∃ cs, layer.components position = .ok cs) ∧
        componentsFrom (position + 1) layers = .error e := by
  have hrest : ∀ first : List Component,
      (componentsFrom (position + 1) layers >>= fun cs => pure (first ++ cs)) = .error e ↔
        componentsFrom (position + 1) layers = .error e := by
    intro first
    rw [bind_eq_error]
    exact or_iff_left (by rintro ⟨cs, -, ⟨⟩⟩)
  rw [componentsFrom, bind_eq_error]
  simp only [hrest, exists_and_right]

/-- Lists of layers that choose alike fail alike. -/
lemma error_iff_of_choosesAlike (h : List.Forall₂ ModelLayer.ChoosesAlike layers others) :
    componentsFrom position layers = .error e ↔ componentsFrom position others = .error e := by
  induction h generalizing position with
  | nil => rfl
  | cons hl _ ih =>
    simp only [componentsFrom_cons_eq_error_iff, ModelLayer.components_eq_error_iff,
      ModelLayer.exists_components_iff, hl.faulty_iff, ih]

end Model

namespace Generator

variable {generator generator' : Generator} {model other : Model} {e : Error}

/-- Generation fails where there are no components. -/
lemma generate_eq_error_iff : generator.generate model = .error e ↔ model.components = .error e := by
  rw [generate, map_eq_error]

/-- Generation fails with the error of the first layer that gives cause for one. -/
theorem generate_eq_error_iff_first : generator.generate model = .error e ↔
    ∃ (i : Nat) (layer : ModelLayer), model.layers[i]? = some layer ∧ layer.Refusal i e ∧
      ∀ (j : Nat) (l : ModelLayer) (e' : Error), j < i → model.layers[j]? = some l →
        ¬l.Refusal j e' := by
  rw [generate_eq_error_iff, Model.components, Model.componentsFrom_eq_error_iff]
  constructor
  · rintro ⟨i, ⟨layer, hlayer, hfaulty⟩, hbefore⟩
    simp only [Nat.zero_add, ModelLayer.faulty_iff_refusal] at hfaulty hbefore
    exact ⟨i, layer, hlayer, hfaulty, hbefore⟩
  · rintro ⟨i, layer, hlayer, hrefusal, hbefore⟩
    refine ⟨i, ⟨layer, hlayer, ?_⟩, ?_⟩
    · rwa [Nat.zero_add, ModelLayer.faulty_iff_refusal]
    · simpa only [Nat.zero_add, ModelLayer.faulty_iff_refusal] using hbefore

/-- Any layer that gives cause for an error stops the generation. -/
lemma exists_error_iff : (∃ e, generator.generate model = .error e) ↔
    ∃ layer ∈ model.layers, layer.UnknownKind ∨ ∃ name, layer.Misnames name := by
  constructor
  · rintro ⟨e, he⟩
    obtain ⟨i, layer, hlayer, hrefusal, -⟩ := generate_eq_error_iff_first.1 he
    exact ⟨layer, List.mem_of_getElem? hlayer, (layer.exists_refusal_iff i).1 ⟨e, hrefusal⟩⟩
  · rintro ⟨layer, hlayer, hcause⟩
    obtain ⟨i, hi⟩ := List.mem_iff_getElem?.1 hlayer
    obtain ⟨e, hrefusal⟩ := (layer.exists_refusal_iff i).2 hcause
    obtain ⟨e', he', -⟩ := error_of_faulty hi (ModelLayer.faulty_iff_refusal.2 hrefusal)
    exact ⟨e', he'⟩

/-- Models whose layers choose alike fail alike, whatever else they say, and under any names. -/
lemma error_iff_of_choosesAlike
    (h : List.Forall₂ ModelLayer.ChoosesAlike model.layers other.layers) :
    generator.generate model = .error e ↔ generator'.generate other = .error e := by
  rw [generate_eq_error_iff, generate_eq_error_iff]
  exact Model.error_iff_of_choosesAlike h

/-- The kinds of a chain are known. -/
lemma ne_unsupportedKind_of_chain (generator : Generator) (chain : Chain) (name : String) :
    generator.generate (Model.ofChain chain) ≠ .error (.unsupportedKind name) := by
  intro h
  obtain ⟨i, layer, hlayer, ⟨hunknown, -⟩ | ⟨_, -, ⟨⟩⟩, -⟩ := generate_eq_error_iff_first.1 h
  obtain ⟨l, -, rfl⟩ := List.mem_map.1 (List.mem_of_getElem? hlayer)
  exact hunknown l.kind rfl

/-- Generation fails iff some layer is of an unknown kind, or is dense or a convolution with a
choice other than `None` as its activation that is no identifier. The error is the one of the first
such layer: it says the kind, or the activation and the position. Nothing else can make it fail:
models whose layers are of the same kinds, and choose the same activations where they choose any,
fail alike, and the kinds of a chain are known. -/
theorem fails_at_first_refusal (generator : Generator) (model : Model) :
    ((∃ e, generator.generate model = .error e) ↔
      ∃ layer ∈ model.layers, layer.UnknownKind ∨ ∃ name, layer.Misnames name) ∧
    (∀ e, generator.generate model = .error e ↔
      ∃ (i : Nat) (layer : ModelLayer), model.layers[i]? = some layer ∧ layer.Refusal i e ∧
        ∀ (j : Nat) (l : ModelLayer) (e' : Error), j < i → model.layers[j]? = some l →
          ¬l.Refusal j e') ∧
    (∀ (generator' : Generator) (other : Model),
      List.Forall₂ ModelLayer.ChoosesAlike model.layers other.layers →
        ∀ e, generator.generate model = .error e ↔ generator'.generate other = .error e) ∧
    ∀ chain name, generator.generate (Model.ofChain chain) ≠ .error (.unsupportedKind name) :=
  ⟨exists_error_iff, fun _ => generate_eq_error_iff_first,
    fun _ _ h _ => error_iff_of_choosesAlike h, generator.ne_unsupportedKind_of_chain⟩

end Generator

/-- A flattening layer and a dense layer, a convolution whose activation has a hyphen, and a layer of
an unknown kind. -/
def hyphenModel (settings : Settings) : Model := ⟨4, [
  ⟨"Flatten", settings⟩,
  ⟨"Dense", .ofList [("activation", .choice "ReLU6")]⟩,
  ⟨"SpatialConv", .ofList [("activation", .choice "Leaky-ReLU")]⟩,
  ⟨"Conv3d", .empty⟩]⟩

/-- The hyphen is the error, as it comes before the unknown kind. What else the first layer sets, and
how the class is named, changes nothing. -/
theorem fails_at_first_refusal_on_hyphen :
    let loose := hyphenModel (.ofList [("activation", .bool true), ("startDim", .auto)])
    List.Forall₂ ModelLayer.ChoosesAlike (hyphenModel .empty).layers loose.layers ∧
    (∃ layer ∈ (hyphenModel .empty).layers,
      layer.UnknownKind ∨ ∃ name, layer.Misnames name) ∧
    (Generator.mk "A:B").generate loose = .error (.invalidActivation "Leaky-ReLU" 2) := by
  intro loose
  obtain ⟨hsome, -, hothers, -⟩ := Generator.fails_at_first_refusal ⟨"Net"⟩ (hyphenModel .empty)
  have herror : (Generator.mk "Net").generate (hyphenModel .empty) =
      .error (.invalidActivation "Leaky-ReLU" 2) := rfl
  have halike : List.Forall₂ ModelLayer.ChoosesAlike (hyphenModel .empty).layers loose.layers := by
    refine .cons ⟨rfl, fun name => ?_⟩ (List.forall₂_same.2 fun _ _ => ⟨rfl, fun _ => Iff.rfl⟩)
    exact iff_of_false nofun nofun
  exact ⟨halike, hsome.1 ⟨_, herror⟩, (hothers ⟨"A:B"⟩ loose halike _).1 herror⟩

end LayerChain
