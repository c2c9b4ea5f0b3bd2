import LayerChain.Model.Basic
import LayerChain.Proofs.Chain.IdSpace
import LayerChain.Proofs.Chain.Positions
import LayerChain.Source.Generator

/-!
# Designs

The design of a chain is the feature count that enters it, and the kind and the settings of each
layer; ids, the counter and placements are no part of it. Whatever a chain is looked at for, its
shapes, its model or its source, shows the design only (`Chain.SameDesign.indistinguishable`).

An edit says by an id which layer it is about. Where it is said by a position instead, the layer
there is looked up and named by its id, and in a numbered chain the edit finds this layer. So a
positional edit does the same to the designs of two numbered chains (`Chain.SameDesign.step`), and
two runs of positional edits from one design cannot be told apart (`Chain.ids_never_influence`).
-/

namespace LayerChain

/-! ## The design of a layer -/

/-- Two layers have one design: they are of one kind and have the same settings. -/
structure Layer.SameDesign (l m : Layer) : Prop where
  kind : l.kind = m.kind
  settings : l.settings = m.settings

namespace Layer.SameDesign

variable {l m : Layer}

lemma descriptor (h : l.SameDesign m) : l.descriptor = m.descriptor :=
  congrArg Catalog.describe h.kind

lemma outputShape (h : l.SameDesign m) (incoming : Shape) :
    l.outputShape incoming = m.outputShape incoming := by
  rw [Layer.outputShape, Layer.outputShape, h.descriptor, h.settings]

lemma refresh (h : l.SameDesign m) (incoming : Shape) :
    (l.refresh incoming).SameDesign (m.refresh incoming) where
  kind := h.kind
  settings := by rw [Layer.refresh, Layer.refresh, h.kind, h.settings]

lemma updated (h : l.SameDesign m) (patch : Settings) :
    (l.updated patch).SameDesign (m.updated patch) where
  kind := h.kind
  settings := by rw [Layer.updated, Layer.updated, h.settings]

lemma placed (h : l.SameDesign m) (placement placement' : Json) :
    (l.placed placement).SameDesign (m.placed placement') := ⟨h.kind, h.settings⟩

lemma ofLayer (h : l.SameDesign m) : ModelLayer.ofLayer l = ModelLayer.ofLayer m := by
  rw [ModelLayer.ofLayer, ModelLayer.ofLayer, h.kind, h.settings]

end Layer.SameDesign

/-! ## The design of a list of layers -/

/-- Two lists of layers have one design, layer by layer. -/
abbrev SameDesigns : List Layer → List Layer → Prop := List.Forall₂ Layer.SameDesign

namespace SameDesigns

variable {ls ms : List Layer}

lemma shapesAfter (h : SameDesigns ls ms) (incoming : Shape) :
    shapesAfter incoming ls = shapesAfter incoming ms := by
  induction h generalizing incoming with
  | nil => rfl
  | cons hl _ ih => rw [LayerChain.shapesAfter, LayerChain.shapesAfter, hl.outputShape, ih]

lemma refreshFrom (h : SameDesigns ls ms) (incoming : Shape) :
    SameDesigns (Chain.refreshFrom incoming ls) (Chain.refreshFrom incoming ms) := by
  induction h generalizing incoming with
  | nil => exact .nil
  | cons hl _ ih =>
    have hfresh := hl.refresh incoming
    -- the same shape goes on to the layers behind
    rw [Chain.refreshFrom, Chain.refreshFrom, hfresh.outputShape]
    exact .cons hfresh (ih _)

lemma modelLayers (h : SameDesigns ls ms) :
    ls.map ModelLayer.ofLayer = ms.map ModelLayer.ofLayer := by
  induction h with
  | nil => rfl
  | cons hl _ ih => rw [List.map_cons, List.map_cons, hl.ofLayer, ih]

lemma at_cases (h : SameDesigns ls ms) (position : Nat) :
    (ls[position]? = none ∧ ms[position]? = none) ∨
      ∃ l m, ls[position]? = some l ∧ ms[position]? = some m ∧ l.SameDesign m := by
  induction h generalizing position with
  | nil => simp
  | cons hl _ ih =>
    cases position with
    | zero => exact .inr ⟨_, _, rfl, rfl, hl⟩
    | succ position => simpa using ih position

end SameDesigns

namespace Chain

/-! ## The design of a chain -/

/-- Two chains have one design: the same feature count enters them, and their layers have one
design. -/
structure SameDesign (c d : Chain) : Prop where
  inputDimension : c.inputDimension = d.inputDimension
  layers : SameDesigns c.layers d.layers

/-- Two chains cannot be told apart by what is made of them: the shapes, the texts of the model and
its hash, and the source under every generator, or the error in its place. -/
structure Indistinguishable (c d : Chain) : Prop where
  shapes : c.shapes = d.shapes
  outputShape : c.outputShape = d.outputShape
  text : (Model.ofChain c).text = (Model.ofChain d).text
  prettyText : (Model.ofChain c).prettyText = (Model.ofChain d).prettyText
  hash : (Model.ofChain c).hash = (Model.ofChain d).hash
  source : ∀ generator : Generator,
    generator.generate (Model.ofChain c) = generator.generate (Model.ofChain d)

namespace SameDesign

variable {c d : Chain}

lemma inputShape (h : c.SameDesign d) : c.inputShape = d.inputShape :=
  congrArg Shape.scalar h.inputDimension

lemma shapes (h : c.SameDesign d) : c.shapes = d.shapes := by
  rw [Chain.shapes, Chain.shapes, h.inputShape, h.layers.shapesAfter]

lemma outputShape (h : c.SameDesign d) : c.outputShape = d.outputShape := by
  rw [Chain.outputShape, Chain.outputShape, h.shapes, h.inputShape]

lemma ofChain (h : c.SameDesign d) : Model.ofChain c = Model.ofChain d := by
  rw [Model.ofChain, Model.ofChain, h.inputDimension, h.layers.modelLayers]

/-- Chains of one design cannot be told apart. -/
theorem indistinguishable (h : c.SameDesign d) : c.Indistinguishable d where
  shapes := h.shapes
  outputShape := h.outputShape
  text := by rw [h.ofChain]
  prettyText := by rw [h.ofChain]
  hash := by rw [h.ofChain]
  source generator := by rw [h.ofChain]

end SameDesign

end Chain

/-! ## Positional edits -/

/-- An edit that says by a position which layer it is about. -/
inductive PositionalEdit where
  | append (kind : Kind)
  | update (strict : Bool) (position : Nat) (patch : Settings)
  | remove (position : Nat)
  | setInputDimension (inputDimension : UInt64)
  | place (position : Nat) (placement : Json)
  | repropagate

/-- Whether a positional edit appends a layer. -/
def PositionalEdit.isAppend : PositionalEdit → Bool
  | .append _ => true
  | .update .. | .remove _ | .setInputDimension _ | .place .. | .repropagate => false

namespace Chain

/-- The edit that a positional edit stands for: it names the layer at the position by its id. There
is none where the chain has no layer at the position. -/
def edit? (chain : Chain) : PositionalEdit → Option Edit
  | .append kind => some (.append kind)
  | .update strict position patch =>
    (chain.at? position).map fun l => .update strict l.id patch
  | .remove position => (chain.at? position).map fun l => .remove l.id
  | .setInputDimension n => some (.setInputDimension n)
  | .place position placement => (chain.at? position).map fun l => .place l.id placement
  | .repropagate => some .repropagate

/-- What a positional edit gives, if it stands for an edit. -/
def applyAt (chain : Chain) (edit : PositionalEdit) : Option (Except Error Chain) :=
  (chain.edit? edit).map chain.apply

/-- Whether a positional edit succeeds, or else its error, if it stands for an edit. -/
def verdict (chain : Chain) (edit : PositionalEdit) : Option (Except Error Unit) :=
  (chain.applyAt edit).map fun result => result.map fun _ => ()

/-- The chain after a positional edit. One that fails, or stands for no edit, changes nothing. -/
def revise (chain : Chain) (edit : PositionalEdit) : Chain :=
  match chain.applyAt edit with
  | some (.ok next) => next
  | _ => chain

/-- The chain after some positional edits. -/
def revised (chain : Chain) (edits : List PositionalEdit) : Chain := edits.foldl revise chain

/-- Whether positional edits that come one after the other succeed, or else their errors. -/
def verdicts (chain : Chain) : List PositionalEdit → List (Option (Except Error Unit))
  | [] => []
  | edit :: edits => chain.verdict edit :: (chain.revise edit).verdicts edits

/-! ### One step -/

/-- Two positional edits give chains of one design, or fail with the same error, or neither of them
stands for an edit. -/
inductive SameResult : Option (Except Error Chain) → Option (Except Error Chain) → Prop where
  | noEdit : SameResult none none
  | refused (e : Error) : SameResult (some (.error e)) (some (.error e))
  | changed {c d : Chain} (same : c.SameDesign d) : SameResult (some (.ok c)) (some (.ok d))

namespace SameDesign

variable {c d : Chain}

/-- At each position both chains have a layer, and the layers are of one design, or neither has. -/
lemma at_cases (h : c.SameDesign d) (position : Nat) :
    (c.at? position = none ∧ d.at? position = none) ∨
      ∃ l m, c.at? position = some l ∧ d.at? position = some m ∧ l.SameDesign m :=
  h.layers.at_cases position

lemma newLayer (h : c.SameDesign d) (kind : Kind) :
    (c.newLayer kind).SameDesign (d.newLayer kind) where
  kind := rfl
  settings := by rw [Chain.newLayer, Chain.newLayer, h.outputShape]

lemma append (h : c.SameDesign d) (kind : Kind) :
    (c.append kind).SameDesign (d.append kind) where
  inputDimension := h.inputDimension
  layers := List.rel_append h.layers (.cons (h.newLayer kind) .nil)

lemma repropagate (h : c.SameDesign d) : c.repropagate.SameDesign d.repropagate where
  inputDimension := h.inputDimension
  layers := by
    rw [Chain.repropagate, Chain.repropagate, h.inputShape]
    exact h.layers.refreshFrom _

lemma update (h : c.SameDesign d) (patch : Settings) {id id' position : Nat}
    (hc : c.position? id = some position) (hd : d.position? id' = some position) :
    SameResult (some (c.update id patch)) (some (d.update id' patch)) := by
  rw [update_of_position hc, update_of_position hd]
  exact .changed ⟨h.inputDimension, forall₂_modify h.layers (fun hl => hl.updated patch) position⟩

/-- A strict update is refused for the same key, since the kinds are the same. -/
lemma updateStrict (h : c.SameDesign d) (patch : Settings) {id id' position : Nat} {l m : Layer}
    (hc : c.position? id = some position) (hd : d.position? id' = some position)
    (hl : c.at? position = some l) (hm : d.at? position = some m) (hsame : l.SameDesign m) :
    SameResult (some (c.updateStrict id patch)) (some (d.updateStrict id' patch)) := by
  rw [updateStrict_of_position hc hl, updateStrict_of_position hd hm, hsame.descriptor, hsame.kind]
  cases patch.keys.find? fun key => !m.descriptor.declares key with
  | some key => exact .refused _
  | none => exact h.update patch hc hd

/-- In numbered chains of one design, the layers at a position are found by their ids, and they have
one design. Or there is no layer in both. -/
lemma at_position (h : c.SameDesign d) (hc : c.Numbered) (hd : d.Numbered) (position : Nat)
    (edit : Nat → Edit)
    (hedit : ∀ l m, c.at? position = some l → d.at? position = some m → l.SameDesign m →
      c.position? l.id = some position → d.position? m.id = some position →
        SameResult (some (c.apply (edit l.id))) (some (d.apply (edit m.id)))) :
    SameResult (((c.at? position).map fun l => edit l.id).map c.apply)
      (((d.at? position).map fun l => edit l.id).map d.apply) := by
  rcases h.at_cases position with ⟨hl, hm⟩ | ⟨l, m, hl, hm, hsame⟩
  · rw [hl, hm]
    exact .noEdit
  · rw [hl, hm]
    exact hedit l m hl hm hsame (hc.position?_id hl) (hd.position?_id hm)

/-- A positional edit does the same to the designs of two numbered chains. -/
theorem step (h : c.SameDesign d) (hc : c.Numbered) (hd : d.Numbered) (edit : PositionalEdit) :
    SameResult (c.applyAt edit) (d.applyAt edit) := by
  cases edit with
  | append kind => exact .changed (h.append kind)
  | setInputDimension n => exact .changed ⟨rfl, h.layers⟩
  | repropagate => exact .changed h.repropagate
  | update strict position patch =>
    refine h.at_position hc hd position (.update strict · patch) fun l m hl hm hsame hlid hmid => ?_
    cases strict with
    | false => exact h.update patch hlid hmid
    | true => exact h.updateStrict patch hlid hmid hl hm hsame
  | remove position =>
    refine h.at_position hc hd position .remove fun l m _ _ _ hlid hmid => ?_
    show SameResult (some (c.remove l.id)) (some (d.remove m.id))
    rw [remove_of_position hlid, remove_of_position hmid]
    exact .changed ⟨h.inputDimension, forall₂_eraseIdx h.layers position⟩
  | place position placement =>
    refine h.at_position hc hd position (.place · placement) fun l m _ _ _ hlid hmid => ?_
    show SameResult (some (c.place l.id placement)) (some (d.place m.id placement))
    rw [place_of_position hlid, place_of_position hmid]
    exact .changed ⟨h.inputDimension,
      forall₂_modify h.layers (fun hl => hl.placed placement placement) position⟩

lemma revise (h : c.SameDesign d) (hc : c.Numbered) (hd : d.Numbered) (edit : PositionalEdit) :
    c.verdict edit = d.verdict edit ∧ (c.revise edit).SameDesign (d.revise edit) := by
  have hstep := h.step hc hd edit
  rw [verdict, verdict, Chain.revise, Chain.revise]
  generalize c.applyAt edit = result at hstep ⊢
  generalize d.applyAt edit = result' at hstep ⊢
  cases hstep with
  | noEdit => exact ⟨rfl, h⟩
  | refused e => exact ⟨rfl, h⟩
  | changed same => exact ⟨rfl, same⟩

end SameDesign

/-! ### Runs -/

section

variable {c d : Chain}

/-- How many layers some positional edits append. -/
def appendsAt (edits : List PositionalEdit) : Nat := edits.countP PositionalEdit.isAppend

/-- A positional edit that stands for an edit appends a layer iff the edit does, and one that stands
for no edit appends none. -/
lemma isAppend_edit? (chain : Chain) (edit : PositionalEdit) :
    edit.isAppend = ((chain.edit? edit).map Edit.isAppend).getD false := by
  cases edit with
  | append kind => rfl
  | setInputDimension n => rfl
  | repropagate => rfl
  | update strict position patch =>
    rw [edit?]
    cases chain.at? position <;> rfl
  | remove position =>
    rw [edit?]
    cases chain.at? position <;> rfl
  | place position placement =>
    rw [edit?]
    cases chain.at? position <;> rfl

/-- A positional edit does what the edit does that it stands for. -/
lemma revise_eq (chain : Chain) (edit : PositionalEdit) :
    chain.revise edit = ((chain.edit? edit).map chain.perform).getD chain := by
  rw [revise, applyAt]
  cases chain.edit? edit with
  | none => rfl
  | some edit =>
    rw [Option.map_some, Option.map_some, Option.getD_some, perform]
    cases chain.apply edit <;> rfl

lemma Counted.revise (h : c.Counted) (edit : PositionalEdit) :
    (c.revise edit).Counted ∧
      (c.revise edit).nextId ≤ c.nextId + if edit.isAppend then 1 else 0 := by
  rw [revise_eq, isAppend_edit? c edit]
  cases c.edit? edit with
  | none => exact ⟨h, Nat.le_add_right _ _⟩
  | some edit =>
    refine ⟨h.perform edit, ?_⟩
    show (c.perform edit).nextId ≤ c.nextId + if edit.isAppend then 1 else 0
    rw [nextId_perform h.nextId_le]
    exact Nat.min_le_left _ _

lemma appendsAt_cons (edit : PositionalEdit) (edits : List PositionalEdit) :
    appendsAt (edit :: edits) = (if edit.isAppend then 1 else 0) + appendsAt edits := by
  rw [appendsAt, List.countP_cons, Nat.add_comm]
  rfl

/-- As long as ids are left, positional edits do the same to the designs of two chains. -/
theorem SameDesign.run (h : c.SameDesign d) (hc : c.Counted) (hd : d.Counted)
    {edits : List PositionalEdit} (hroom : c.nextId + appendsAt edits < maxCounter)
    (hroom' : d.nextId + appendsAt edits < maxCounter) :
    c.verdicts edits = d.verdicts edits ∧ (c.revised edits).SameDesign (d.revised edits) := by
  induction edits generalizing c d with
  | nil => exact ⟨rfl, h⟩
  | cons edit edits ih =>
    rw [appendsAt_cons] at hroom hroom'
    -- both counters are below their end, so ids are distinct and each run finds its own layer
    have hnumbered := hc.numbered (by omega)
    have hnumbered' := hd.numbered (by omega)
    obtain ⟨hverdict, hnext⟩ := h.revise hnumbered hnumbered' edit
    obtain ⟨hc, hle⟩ := hc.revise edit
    obtain ⟨hd, hle'⟩ := hd.revise edit
    obtain ⟨hrest, hfinal⟩ := ih hnext hc hd (by omega) (by omega)
    rw [verdicts, verdicts, hverdict, hrest]
    exact ⟨rfl, hfinal⟩

/-- What is left of the ids after some edits is enough for further appended layers. -/
lemma Initial.room {start : Chain} (h : start.Initial) {before : List Edit} {appended : Nat}
    (hids : appends before + appended < 2 ^ 64 - 2 ^ 53) :
    (start.edited before).nextId + appended < maxCounter := by
  have hstart : start.nextId ≤ 2 ^ 53 - 1 := h.nextId_le
  have hmax : maxCounter = 2 ^ 64 - 1 := rfl
  rw [nextId_edited h.counted.nextId_le]
  omega

/-- Ids and placements never influence a design: two chains of one design, which any edits have made
of new or read ones, have one design after every step of a run of positional edits, unless so many
layers are appended that the counter could come to its end. So they can never be told apart, and
each of the edits succeeds for both of them or fails with the same error. -/
theorem ids_never_influence {start start' : Chain} (initial : start.Initial)
    (initial' : start'.Initial) {before before' : List Edit} {edits : List PositionalEdit}
    (hids : appends before + appendsAt edits < 2 ^ 64 - 2 ^ 53)
    (hids' : appends before' + appendsAt edits < 2 ^ 64 - 2 ^ 53)
    (same : (start.edited before).SameDesign (start'.edited before')) :
    (start.edited before).verdicts edits = (start'.edited before').verdicts edits ∧
      ∀ n, let c := (start.edited before).revised (edits.take n)
        let d := (start'.edited before').revised (edits.take n)
        c.SameDesign d ∧ c.Indistinguishable d := by
  have hc := initial.counted.edited before
  have hd := initial'.counted.edited before'
  refine ⟨(same.run hc hd (initial.room hids) (initial'.room hids')).1, fun n => ?_⟩
  have htake : appendsAt (edits.take n) ≤ appendsAt edits :=
    (List.take_sublist n edits).countP_le
  have hrun : ((start.edited before).revised (edits.take n)).SameDesign
      ((start'.edited before').revised (edits.take n)) :=
    (same.run hc hd (initial.room (by omega)) (initial'.room (by omega))).2
  exact ⟨hrun, hrun.indistinguishable⟩

/-- A dropout layer with the first id and one with the second id, which was placed besides, give the
same source after the same edits of the layer at the first position. -/
theorem ids_never_influence_on_dropout :
    let c := (new 784).edited [.append .dropout]
    let d := (new 784).edited
      [.append .flatten, .append .dropout, .remove 1, .place 2 (.whole 7)]
    let edits := [.update true 0 (Settings.ofList [("p", Catalog.real 25 (-2))]), .append .dense,
      .remove 0, .repropagate]
    c.ids ≠ d.ids ∧ c.verdicts edits = d.verdicts edits ∧
      (c.revised (edits.take 3)).Indistinguishable (d.revised (edits.take 3)) := by
  intro c d edits
  have same : c.SameDesign d := ⟨rfl, .cons ⟨rfl, rfl⟩ .nil⟩
  have hids : appends [.append .dropout] + appendsAt edits < 2 ^ 64 - 2 ^ 53 := by decide
  have hids' : appends [.append .flatten, .append .dropout, .remove 1, .place 2 (.whole 7)] +
      appendsAt edits < 2 ^ 64 - 2 ^ 53 := by decide
  obtain ⟨hverdicts, hsteps⟩ := ids_never_influence (.new 784) (.new 784) hids hids' same
  exact ⟨by decide, hverdicts, (hsteps 3).2⟩

end

end Chain

end LayerChain
