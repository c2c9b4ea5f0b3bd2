import LayerChain.Proofs.Config
import LayerChain.Proofs.Source.Faithful

/-!
# The lines of generated source

Literals are escaped, an activation is an identifier, and all other names come from the catalog, so
whatever a model says, its components are declared and applied in one line each. The class name is
the only text that enters a source as it is: its line breaks, and no others, are in the source
besides those that end the lines of the layout (`Generator.line_breaks_of_generate`), so a class
name that was read from a configuration can add lines (`class_name_adds_lines`).
-/

namespace LayerChain

/-! ## Line breaks in lines -/

lemma OneLine.count_eq_zero {cs : List Char} (h : OneLine cs) {b : Char}
    (hb : isLineBreak b = true) : cs.count b = 0 := List.count_eq_zero.2 (h.notMem hb)

lemma oneLine_iff {cs : List Char} : OneLine cs ↔ cs.count '\n' = 0 ∧ cs.count '\r' = 0 := by
  constructor
  · exact fun h => ⟨h.count_eq_zero rfl, h.count_eq_zero rfl⟩
  · rintro ⟨hfeed, hreturn⟩ c hc
    have hne : ∀ d, cs.count d = 0 → c ≠ d := by
      rintro d hd rfl
      exact List.count_eq_zero.1 hd hc
    simp [isLineBreak, hne _ hfeed, hne _ hreturn]

/-- The characters of some lines, without those that end them. -/
def charsOfLines (lines : List String) : List Char := lines.flatMap String.toList

lemma charsOfLines_append (lines more : List String) :
    charsOfLines (lines ++ more) = charsOfLines lines ++ charsOfLines more := List.flatMap_append

lemma oneLine_charsOfLines {lines : List String} (h : ∀ l ∈ lines, OneLine l.toList) :
    OneLine (charsOfLines lines) := by
  intro c hc
  obtain ⟨line, hline, hc⟩ := List.mem_flatMap.1 hc
  exact h line hline c hc

/-- The line breaks of a text are those in its lines and, if they are line feeds, those that end
the lines. -/
lemma count_textOfLines (b : Char) (lines : List String) :
    (textOfLines lines).toList.count b =
      (charsOfLines lines).count b + if b = '\n' then lines.length else 0 := by
  rw [toList_textOfLines, charsOfLines]
  induction lines with
  | nil => simp
  | cons line lines ih =>
    simp only [List.map_cons, List.flatMap_cons, List.count_append, ih, List.length_cons,
      List.count_singleton]
    by_cases hb : b = '\n'
    · simp [hb]
      omega
    · simp [hb, Ne.symm hb]

/-- A text of lines that hold no line feed is split into these lines. -/
lemma splitOn_textOfLines {lines : List String} (h : ∀ l ∈ lines, '\n' ∉ l.toList) :
    (textOfLines lines).toList.splitOn '\n' = lines.map String.toList ++ [[]] := by
  have htext : (textOfLines lines).toList =
      ['\n'].intercalate (lines.map String.toList ++ [[]]) := by
    rw [toList_textOfLines]
    induction lines with
    | nil => rfl
    | cons line lines ih =>
      obtain ⟨-, hlines⟩ := List.forall_mem_cons.1 h
      rw [List.map_cons, List.flatMap_cons, ih hlines, List.cons_append,
        List.intercalate_cons_of_ne_nil (by simp)]
  rw [htext, List.splitOn_intercalate '\n' ?_ (by simp)]
  intro l hl
  rcases List.mem_append.1 hl with hl | hl
  · obtain ⟨line, hline, rfl⟩ := List.mem_map.1 hl
    exact h line hline
  · rw [List.mem_singleton.1 hl]
    exact List.not_mem_nil

namespace Component

variable {floats : List Binary64} {c : Component}

/-- No application leaves its line. -/
lemma oneLine_application (hc : c.Plain floats) : OneLine c.application.toList := by
  unfold application
  split_ifs
  · simp [isLineBreak, hc.name.oneLine]
  · simp [isLineBreak, hc.name.oneLine]

end Component

/-! ## The layout -/

variable {floats : List Binary64} {cs : List Component}

/-- The lines of a module break where its class name does, which stands in two of them. -/
lemma count_moduleLines (hc : ∀ c ∈ cs, c.Plain floats) (className : String) {b : Char}
    (hb : isLineBreak b = true) :
    (charsOfLines (moduleLines className cs)).count b = 2 * className.toList.count b := by
  have hdeclared : OneLine (charsOfLines
      (cs.map fun c => indent ++ indent ++ c.declaration)) := by
    refine oneLine_charsOfLines (List.forall_mem_map.2 fun c hcs => ?_)
    simp [indent, isLineBreak, Component.oneLine_declaration (hc c hcs)]
  have happlied : OneLine (charsOfLines
      (cs.map fun c => indent ++ indent ++ c.application)) := by
    refine oneLine_charsOfLines (List.forall_mem_map.2 fun c hcs => ?_)
    simp [indent, isLineBreak, Component.oneLine_application (hc c hcs)]
  -- all that the layout itself writes, beside the class name and the components
  have hwords : OneLine (charsOfLines ["import torch", "import torch.nn as nn", "", "class ",
      "(nn.Module):", indent, "def __init__(self):", "super().__init__()", "def forward(self, x):",
      "return x", "model = ", "()"]) := forall_mem_of_all (by decide)
  have hfixed := hwords.count_eq_zero hb
  simp only [charsOfLines, List.flatMap_cons, List.flatMap_nil, List.count_append,
    Nat.add_eq_zero_iff] at hfixed
  rw [moduleLines]
  simp only [charsOfLines_append, List.count_append, hdeclared.count_eq_zero hb,
    happlied.count_eq_zero hb]
  simp only [charsOfLines, List.flatMap_cons, List.flatMap_nil, String.toList_append,
    List.count_append, hfixed]
  omega

/-- The layout has thirteen lines of its own, and two for each component. -/
lemma length_moduleLines (className : String) (cs : List Component) :
    (moduleLines className cs).length = 13 + 2 * cs.length := by
  simp [moduleLines]
  omega

lemma newline_notMem_moduleLines (hc : ∀ c ∈ cs, c.Plain floats) {className : String}
    (hname : '\n' ∉ className.toList) : ∀ l ∈ moduleLines className cs, '\n' ∉ l.toList := by
  have hcount := count_moduleLines hc className (b := '\n') rfl
  rw [List.count_eq_zero.2 hname, Nat.mul_zero, List.count_eq_zero] at hcount
  exact fun l hl hmem => hcount (List.mem_flatMap.2 ⟨l, hl, hmem⟩)

/-! ## Components -/

namespace ModelLayer

/-- Whether a layer is followed by an activation: one other than `None` is chosen, and the layer is
dense or a convolution. -/
def isActivated (layer : ModelLayer) : Bool :=
  (layer.kind == "Dense" || layer.kind == "SpatialConv") &&
    match layer.settings.get? "activation" with
    | some (.choice name) => name != "None"
    | _ => false

lemma isActivated_iff {layer : ModelLayer} :
    layer.isActivated = true ↔ ∃ name, layer.Activates name := by
  simp only [isActivated, Activates, Bool.and_eq_true, Bool.or_eq_true, beq_iff_eq, exists_and_left]
  refine and_congr_right fun _ => ?_
  cases layer.settings.get? "activation" with
  | none => simp
  | some v => cases v <;> simp

lemma isActivated_eq {layer : ModelLayer} {kind : Kind} (h : Kind.ofName? layer.kind = some kind) :
    layer.isActivated = (Component.activation? kind layer.settings).isSome := by
  rw [Bool.eq_iff_iff, isActivated_iff, Option.isSome_iff_exists]
  exact exists_congr fun _ => (activation?_eq_some_iff h).symm

end ModelLayer

/-- Every layer has a component, and every activation has one more. -/
lemma Model.length_componentsFrom {position : Nat} {layers : List ModelLayer}
    {cs : List Component} (h : componentsFrom position layers = .ok cs) :
    cs.length = layers.length + layers.countP ModelLayer.isActivated := by
  induction layers generalizing position cs with
  | nil =>
    cases h
    rfl
  | cons l layers ih =>
    obtain ⟨kind, others, hkind, -, hothers, rfl⟩ := exists_components h
    have hactivation : (ModelLayer.activationComponents position kind l.settings).length =
        if l.isActivated then 1 else 0 := by
      rw [ModelLayer.isActivated_eq hkind, ModelLayer.activationComponents]
      cases Component.activation? kind l.settings with
      | none => rfl
      | some name => rfl
    rw [List.length_cons, List.length_append, hactivation, ih hothers, List.countP_cons,
      List.length_cons]
    omega

/-! ## The source of a model -/

/-- The line breaks of a source. Its line feeds are two for each layer and each activation, thirteen
of the layout, and those of the class name, which stands in the source twice; its carriage returns
are those of the class name. So source has no carriage return and no more line feeds than the layout
iff the class name is one line, and then its lines are those of the layout. -/
theorem Generator.line_breaks_of_generate (generator : Generator) {model : Model} {source : String}
    (h : generator.generate model = .ok source) :
    source.toList.count '\n' =
        13 + 2 * (model.layers.length + model.layers.countP ModelLayer.isActivated) +
          2 * generator.className.toList.count '\n' ∧
      source.toList.count '\r' = 2 * generator.className.toList.count '\r' ∧
      (('\r' ∉ source.toList ∧ source.toList.count '\n' =
          13 + 2 * (model.layers.length + model.layers.countP ModelLayer.isActivated)) ↔
        OneLine generator.className.toList) ∧
      (OneLine generator.className.toList → ∃ components, model.components = .ok components ∧
        components.length = model.layers.length + model.layers.countP ModelLayer.isActivated ∧
        source.toList.splitOn '\n' =
          (writtenLines generator.className components).map String.toList ++ [[]]) := by
  obtain ⟨cs, hcs, rfl⟩ := map_eq_ok.1 h
  -- no text of a layer breaks a line, so only the class name is left to do it
  have hplain := Model.plain_of_componentsFrom (fun l hl => Model.floats_subset hl) hcs
  have hlength := Model.length_componentsFrom hcs
  have hfeeds : (textOfLines (moduleLines generator.className cs)).toList.count '\n' =
      13 + 2 * (model.layers.length + model.layers.countP ModelLayer.isActivated) +
        2 * generator.className.toList.count '\n' := by
    rw [count_textOfLines, count_moduleLines hplain _ rfl, length_moduleLines, hlength]
    simp
    omega
  have hreturns : (textOfLines (moduleLines generator.className cs)).toList.count '\r' =
      2 * generator.className.toList.count '\r' := by
    rw [count_textOfLines, count_moduleLines hplain _ rfl]
    simp
  refine ⟨hfeeds, hreturns, ?_, ?_⟩
  · rw [hfeeds, ← List.count_eq_zero, hreturns, oneLine_iff]
    omega
  · intro hname
    refine ⟨cs, hcs, hlength, ?_⟩
    rw [← moduleLines_eq]
    exact splitOn_textOfLines (newline_notMem_moduleLines hplain (hname.notMem rfl))

/-- A dense layer with an activation, and with line breaks in a choice. -/
def brokenChoice : Model :=
  ⟨4, [⟨"Dense", .ofList [("activation", .choice "ReLU"), ("bias", .choice "a\nb\r")]⟩]⟩

/-- Line breaks in a choice are escaped: the layer and its activation give four lines. -/
theorem line_breaks_of_broken_choice :
    ∃ source, (Generator.mk "Net").generate brokenChoice = .ok source ∧
      '\r' ∉ source.toList ∧ source.toList.count '\n' = 13 + 2 * (1 + 1) := by
  obtain ⟨source, hsource⟩ : ∃ source, (Generator.mk "Net").generate brokenChoice = .ok source :=
    ⟨_, rfl⟩
  have hname : OneLine "Net".toList := forall_mem_of_all (by decide)
  have hactivated : brokenChoice.layers.countP ModelLayer.isActivated = 1 := by decide +kernel
  obtain ⟨hreturns, hfeeds⟩ := (Generator.line_breaks_of_generate ⟨"Net"⟩ hsource).2.2.1.2 hname
  rw [hactivated] at hfeeds
  exact ⟨source, hsource, hreturns, hfeeds⟩

/-- A model without layers. -/
def emptyModel : Model := ⟨4, []⟩

/-- A configuration file may hold a class name with a line feed, and then the source even of a model
without layers has more lines than the layout. -/
theorem class_name_adds_lines :
    Config.ofText ({ className := "A\nB" } : Config).text = .ok { className := "A\nB" } ∧
      ∃ source, (Generator.mk "A\nB").generate emptyModel = .ok source ∧
        source.toList.count '\n' ≠
          13 + 2 * (emptyModel.layers.length + emptyModel.layers.countP ModelLayer.isActivated) := by
  refine ⟨Config.ofText_text ⟨by decide, by decide⟩, textOfLines (moduleLines "A\nB" []), rfl, ?_⟩
  have hplain : ∀ c ∈ ([] : List Component), c.Plain [] := fun c hc => absurd hc List.not_mem_nil
  rw [count_textOfLines, count_moduleLines hplain _ rfl, length_moduleLines]
  decide

end LayerChain
