import LayerChain.Proofs.CommandLine.Exhaustion
import LayerChain.Proofs.Model.RoundTrip

/-!
# Two ways to the source of a project

The source of a project is generated directly, or its model is written to a file first and the
source is generated from that file. Both ways generate from the same model, since the model comes
back from its text, and a session that starts remembers no source that it could answer with. So
they print the same source or fail with the same error, and what they write to a file is the same
(`Command.exports_agree`).
-/

namespace LayerChain

/-! ## Steps of the program -/

namespace FileTree

variable {tree after : FileTree} {path text : String}

lemma perform_bind_except {α β : Type} {x : Except Error α}
    {rest : α → FileAction (StateM FileTree) β} :
    tree.perform (liftM x >>= rest) =
      match x with
      | .ok a => tree.perform (rest a)
      | .error e => (.error e, tree) := by
  cases x with
  | ok a => exact perform_bind (perform_except (.ok a))
  | error e => exact perform_bind_error (perform_except (.error e))

lemma perform_loadModel (h : tree.read path = .ok (Content.ofString text)) :
    tree.perform (Model.load path) = (Model.ofText text, tree) := by
  have hread : (FileSystem.read path : StateM FileTree _).run tree =
      (.ok (Content.ofString text), tree) := by
    show (tree.read path, tree) = _
    rw [h]
  rw [Model.load, perform_bind (perform_lift hread)]
  show tree.perform (liftM (textOf path (.ok (Content.ofString text))) >>= _) = _
  rw [perform_bind_except, textOf, Content.text?_ofString]
  exact perform_except _

lemma perform_load_of {project : Project}
    (h : (tree.perform (Project.load path)).1 = .ok project) :
    tree.perform (Project.load path) = (.ok project, tree) := by
  rw [perform_load] at h ⊢
  exact congrArg (·, tree) h

end FileTree

namespace Command

open FileTree (perform_bind perform_lift perform_bind_except perform_loadModel perform_load_of)

variable {tree after : FileTree} {path file text : String} {config : Config} {project : Project}
  {model : Model}

/-- Delivering a text to a file leaves the text in it, wherever it can be written. -/
lemma perform_deliver (h : tree.write file text = .ok after) :
    tree.perform (deliver text (some file)) = (.ok "", after) := by
  have hcommit : (FileSystem.write file text : StateM FileTree _).run tree = (.ok (), after) := by
    show tree.commit (tree.write file text) = _
    rw [h]
    rfl
  exact (perform_bind (perform_lift hcommit)).trans rfl

/-- What delivers a source: it prints it, or else writes it to a file, wherever this succeeds. An
error in place of a source is the answer, and then no file is changed. -/
def Delivers (tree : FileTree) (source : Except Error String) (output : Option String)
    (answer : Except Error String × FileTree) : Prop :=
  match source, output with
  | .error e, _ => answer = (.error e, tree)
  | .ok text, none => answer = (.ok (if text.endsWith "\n" then text else line text), tree)
  | .ok text, some file => ∀ after, tree.write file text = .ok after →
      answer = (.ok "", after) ∧ after.read file = .ok (Content.ofString text)

lemma delivers_bind (tree : FileTree) (source : Except Error String) (output : Option String) :
    Delivers tree source output
      (tree.perform (liftM source >>= fun text => deliver text output)) := by
  rw [perform_bind_except]
  cases source with
  | error e => rfl
  | ok text =>
    cases output with
    | none =>
      dsimp only [Delivers, deliver]
      split_ifs
      · rfl
      · rfl
    | some file => exact fun after h => ⟨perform_deliver h, FileTree.read_of_write h⟩

/-! ## The two ways -/

/-- The source of a model under a configuration. -/
def sourceOf (config : Config) (model : Model) : Except Error String :=
  (Generator.mk config.className).generate model

/-- Generating from a file that holds the text of a model generates from this model. -/
lemma perform_generate (h : tree.read file = .ok (Content.ofString text))
    (hmodel : Model.ofText text = .ok model) (output : Option String) :
    tree.perform ((generate file output).run config) =
      tree.perform (liftM (sourceOf config model) >>= fun text => deliver text output) := by
  have hload := perform_loadModel h
  rw [hmodel] at hload
  exact perform_bind hload

/-- A session that starts remembers no source, so it generates the one it is asked for. -/
lemma run_source_start (chain : Chain) (config : Config) :
    (Session.ofChain chain config).run .source =
      (sourceOf config (Model.ofChain chain)).map fun text =>
        (.source text, { Session.ofChain chain config with
          cache := (SourceCache.bounded config.sourceCacheEntries).add
            (SourceCache.key ⟨config.className⟩ (Model.ofChain chain)) text }) := by
  show ((sourceOf config (Model.ofChain chain)).map _ >>= _) = _
  cases sourceOf config (Model.ofChain chain) with
  | error e => rfl
  | ok text => rfl

/-- Generating from a project generates from the model of its chain. -/
lemma perform_source (h : (tree.perform (Project.load path)).1 = .ok project)
    (output : Option String) :
    tree.perform ((source path output).run config) =
      tree.perform (liftM (sourceOf config (Model.ofChain project.chain)) >>=
        fun text => deliver text output) := by
  refine (perform_bind (perform_load_of h)).trans ?_
  rw [perform_bind_except, perform_bind_except, run_source_start]
  cases sourceOf config (Model.ofChain project.chain) with
  | error e => rfl
  | ok text => rfl

/-- Writing the model of a project to a file answers nothing else. -/
lemma perform_model (h : (tree.perform (Project.load path)).1 = .ok project)
    (hwrite : tree.write file (Model.ofChain project.chain).prettyText = .ok after) :
    tree.perform ((Command.model path (some file)).run config) = (.ok "", after) := by
  exact (perform_bind (perform_load_of h)).trans (perform_deliver hwrite)

/-- Models come back from both of their texts. So for every project that loads, under every
configuration, generating from a file to which the model was written prints what generating from
the project prints, or fails with the same error; and where the source is written to a file, both
write the same one. -/
theorem exports_agree :
    (∀ model : Model, model.FloatsReadBack →
      Model.ofText model.text = .ok model ∧ Model.ofText model.prettyText = .ok model) ∧
    ∀ (config : Config) {tree after : FileTree} {path file : String} {project : Project},
      (tree.perform (Project.load path)).1 = .ok project →
      (Model.ofChain project.chain).FloatsReadBack →
      tree.write file (Model.ofChain project.chain).prettyText = .ok after →
      tree.perform ((Command.model path (some file)).run config) = (.ok "", after) ∧
      (after.perform ((generate file none).run config)).1 =
        (tree.perform ((source path none).run config)).1 ∧
      ∀ output,
        Delivers after (sourceOf config (Model.ofChain project.chain)) output
          (after.perform ((generate file output).run config)) ∧
        Delivers tree (sourceOf config (Model.ofChain project.chain)) output
          (tree.perform ((source path output).run config)) := by
  refine ⟨fun model h => ⟨Model.ofText_text h, Model.ofText_prettyText h⟩, ?_⟩
  intro config tree after path file project hload hfloats hwrite
  have hread := FileTree.read_of_write hwrite
  have hmodel := Model.ofText_prettyText hfloats
  refine ⟨perform_model hload hwrite, ?_, fun output => ⟨?_, ?_⟩⟩
  · rw [perform_generate hread hmodel, perform_source hload, perform_bind_except,
      perform_bind_except]
    cases sourceOf config (Model.ofChain project.chain) with
    | error e => rfl
    | ok text =>
      dsimp only [deliver]
      rfl
  · rw [perform_generate hread hmodel]
    exact delivers_bind _ _ _
  · rw [perform_source hload]
    exact delivers_bind _ _ _

/-- A dropout layer with the choice `null`, which is not the value that is left open. -/
def nullChoice : Chain :=
  (Chain.new 784).edited
    [.append .dropout, .update false 1 (Settings.ofList [("inplace", .choice "null")])]

/-- The choice `null` comes back as a choice, and both ways to the source print the same. -/
theorem exports_agree_on_null_choice :
    Model.ofText (Model.ofChain nullChoice).text = .ok (Model.ofChain nullChoice) ∧
      ∃ after, (EditCommand.netOf nullChoice).write "net.ir"
          (Model.ofChain nullChoice).prettyText = .ok after ∧
        (after.perform ((generate "net.ir" none).run {})).1 =
          ((EditCommand.netOf nullChoice).perform ((source "net.json" none).run {})).1 := by
  have hlayer : ∀ l ∈ nullChoice.layers, l.Storable Project.placementDepth := by
    have hnew := (Chain.new 784).storable_newLayer Project.placementDepth .dropout
    refine List.forall_mem_singleton.2 ⟨hnew.settings.merge ?_, hnew.placement⟩
    exact Settings.floatsReadBack_empty.insertMany
      (List.forall_mem_singleton.2 (SettingValue.floatsReadBack_choice "null"))
  have hnumbered : nullChoice.Numbered :=
    ((Chain.Initial.new 784).counted.edited _).numbered (by decide)
  have hload := EditCommand.loads_netOf ⟨hnumbered, by decide, hlayer⟩
  have hfloats : (Model.ofChain nullChoice).FloatsReadBack := by
    intro l hl
    obtain ⟨layer, hmem, rfl⟩ := List.mem_map.1 hl
    exact (hlayer layer hmem).settings
  obtain ⟨after, hwrite⟩ : ∃ after, (EditCommand.netOf nullChoice).write "net.ir"
      (Model.ofChain nullChoice).prettyText = .ok after := by
    rw [EditCommand.netOf]
    generalize Content.ofString (Project.ofChain nullChoice).text = content
    exact ⟨_, rfl⟩
  obtain ⟨htexts, hways⟩ := exports_agree
  exact ⟨(htexts _ hfloats).1, after, hwrite, (hways {} hload hfloats hwrite).2.1⟩

end Command

end LayerChain
