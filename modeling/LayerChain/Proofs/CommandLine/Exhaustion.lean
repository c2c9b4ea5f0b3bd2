import LayerChain.Proofs.Chain.IdSpace
import LayerChain.Proofs.CommandLine.Editing
import LayerChain.Proofs.Files.Rereading

/-!
# The last id

The last id that a project file may hold is handed out like every other one, but then the counter
is beyond the ids, and reading refuses it. So a command that succeeds on a project leaves one that
loads again, with a single exception: it added a layer when only the last id was left
(`EditCommand.loads_again_iff`). The project of such a chain is lost
(`EditCommand.last_id_not_closed`). Settings and placements do not matter here: whatever was written
for them is read, if not always as the same numbers.
-/

namespace LayerChain

/-- A chain that can be loaded is counted. -/
lemma Chain.Loadable.counted {depth : Nat} {chain : Chain} (h : chain.Loadable depth) :
    chain.Counted :=
  h.numbered.counted (Nat.le_trans h.nextId_le (by decide))

/-- A counted chain is counted when it is read again. -/
lemma Chain.Counted.of_reread {chain read : Chain} (hc : chain.Counted)
    (h : chain.reread = .ok read) : read.Counted := by
  have hids := ids_of_reread h
  have hcounter := (layers_of_reread h).1
  exact ⟨hcounter ▸ hc.nextId_le, hids ▸ hcounter ▸ hc.id_le,
    fun hlt => (hc.numbered (hcounter ▸ hlt)).of_reread h⟩

namespace EditCommand

variable {config : Config} {path : String} {tree : FileTree} {project : Project}
  {command : EditCommand}

/-- A command appends a layer iff it adds one. -/
lemma isAppend_edit {strict : Bool} {edit : Edit} (h : command.edit strict = .ok edit) :
    edit.isAppend = true ↔ ∃ kind, command = .add kind := by
  cases command with
  | add kind =>
    obtain ⟨kind, -, rfl⟩ := map_eq_ok.1 h
    exact ⟨fun _ => ⟨_, rfl⟩, fun _ => rfl⟩
  | set id assignments flag =>
    obtain ⟨entries, -, rfl⟩ := map_eq_ok.1 h
    simp [Edit.isAppend]
  | remove id =>
    cases h
    simp [Edit.isAppend]
  | inputDimension value =>
    cases h
    simp [Edit.isAppend]
  | repropagate =>
    cases h
    simp [Edit.isAppend]

/-- What a project file loads to after a command that succeeded: the edited chain with its
floating-point numbers read again, or it is refused for the ids or the counter of this chain. -/
lemma load_onDisk (hload : (tree.perform (Project.load path)).1 = .ok project) {next : Chain}
    (hresult : command.result config.strictSettings project.chain = .ok next) :
    (∃ text, (command.onDisk config path tree).1 = .ok text) ∧
      ∃ read, next.reread = .ok read ∧
        ((command.onDisk config path tree).2.perform (Project.load path)).1 =
          ((Chain.ofRecord read.record).mapError fun refusal =>
            .malformed (.refused refusal.message)).map Project.ofChain := by
  obtain ⟨hproject, hloadable⟩ := FileTree.loadable_of_load hload
  have hsaves := saves_onDisk (hload.trans (congrArg _ hproject)) config command
  rw [hresult] at hsaves
  obtain ⟨text, after, hanswer, hfile⟩ := hsaves
  obtain ⟨edit, hedit, happly⟩ := bind_eq_ok.1 hresult
  have hnext := hloadable.counted.apply happly
  -- commands place nothing, so the placements are those that were loaded
  have hplacement := Chain.forall_placement_of_apply hloadable.placement happly
    fun id p hplace => absurd hplace (edit_ne_place hedit id p)
  obtain ⟨read, hread⟩ := next.exists_reread
  rw [hanswer, FileTree.perform_load, hfile]
  refine ⟨⟨text, rfl⟩, read, hread, ?_⟩
  show Project.ofContent (Content.ofString (Project.ofChain next).text) = _
  rw [Project.ofContent_text_eq ⟨hplacement, hnext.id_lt, hnext.nextId_lt⟩, hread]
  show (((Chain.ofRecord read.record).mapError _).mapError _).map _ = _
  cases Chain.ofRecord read.record <;> rfl

/-- A command that succeeded leaves a project that loads again, unless it added a layer with the
last id. -/
lemma loads_again_iff (config : Config)
    (hload : (tree.perform (Project.load path)).1 = .ok project) {text : String}
    (hanswer : (command.onDisk config path tree).1 = .ok text) :
    (∃ reloaded, ((command.onDisk config path tree).2.perform (Project.load path)).1 =
        .ok reloaded) ↔
      ¬ (project.chain.nextId = Layer.maxId ∧ ∃ kind, command = .add kind) := by
  obtain ⟨hproject, hloadable⟩ := FileTree.loadable_of_load hload
  cases hresult : command.result config.strictSettings project.chain with
  | error e =>
    have hsaves := saves_onDisk (hload.trans (congrArg _ hproject)) config command
    rw [hresult] at hsaves
    have hfailed : command.onDisk config path tree = (.error e, tree) := hsaves
    rw [hfailed] at hanswer
    cases hanswer
  | ok next =>
    obtain ⟨edit, hedit, happly⟩ := bind_eq_ok.1 hresult
    have hmax : Layer.maxId < maxCounter := by decide
    have hle := hloadable.nextId_le
    have hcounter := Chain.nextId_perform hloadable.counted.nextId_le edit
    rw [Chain.perform_of_ok happly] at hcounter
    obtain ⟨-, read, hread, hreload⟩ := load_onDisk hload hresult
    have haccepted := ((hloadable.counted.apply happly).of_reread hread).accepted_iff
    rw [(Chain.layers_of_reread hread).1] at haccepted
    rw [hreload]
    simp only [map_eq_ok, mapError_eq_ok, ← isAppend_edit hedit]
    -- what was saved is read iff its counter is an id, and only an append has moved the counter
    constructor
    · rintro ⟨reloaded, accepted, hr, -⟩ ⟨hlast, happ⟩
      have hnext := haccepted.1 ⟨accepted, hr⟩
      rw [if_pos happ] at hcounter
      omega
    · intro hspace
      have hnext : next.nextId ≤ Layer.maxId := by
        split_ifs at hcounter with happ
        · have hne : project.chain.nextId ≠ Layer.maxId := fun he => hspace ⟨he, happ⟩
          omega
        · omega
      obtain ⟨accepted, hr⟩ := haccepted.2 hnext
      exact ⟨_, accepted, hr, rfl⟩

/-- How far editing stays within the ids that reading accepts. However a new chain, or one that was
read, was edited: all ids that were handed out or are held are within the ids iff the appended
layers fit into them, and the record of the edited chain is accepted iff one more layer would fit.
Where a project file holds the chain, a command that succeeds on it leaves a file that loads again,
unless it added a layer with the last id. -/
theorem id_space_closed_iff (config : Config) {start : Chain} (initial : start.Initial)
    (edits : List Edit) :
    ((∀ id ∈ start.issuedIds edits ++ (start.edited edits).ids, id ≤ Layer.maxId) ↔
      start.nextId + appends edits ≤ Layer.maxId + 1) ∧
    ((∃ read, Chain.ofRecord (start.edited edits).record = .ok read) ↔
      start.nextId + appends edits ≤ Layer.maxId) ∧
    ∀ {path : String} {tree : FileTree} {command : EditCommand} {text : String},
      (tree.perform (Project.load path)).1 = .ok (Project.ofChain start) →
      (command.onDisk config path tree).1 = .ok text →
      ((∃ reloaded, ((command.onDisk config path tree).2.perform (Project.load path)).1 =
          .ok reloaded) ↔
        ¬ (start.nextId = Layer.maxId ∧ ∃ kind, command = .add kind)) := by
  refine ⟨Chain.ids_within_iff initial edits, Chain.accepted_edited_iff initial edits, ?_⟩
  intro path tree command text hload hanswer
  exact loads_again_iff config hload hanswer

/-! ## The last id of a file -/

/-- A first dropout layer is within the ids, and its project loads again. -/
theorem id_space_closed_on_dropout :
    (∀ id ∈ (Chain.new 784).issuedIds [.append .dropout] ++
        ((Chain.new 784).edited [.append .dropout]).ids, id ≤ Layer.maxId) ∧
      (∃ read, Chain.ofRecord ((Chain.new 784).edited [.append .dropout]).record = .ok read) ∧
      ∃ reloaded, (((add "Dropout").onDisk {} "net.json" (netOf (Chain.new 784))).2.perform
        (Project.load "net.json")).1 = .ok reloaded := by
  have hload := loads_netOf (Chain.storable_new 784)
  obtain ⟨hids, hrecord, hloads⟩ := id_space_closed_iff {} (.new 784) [.append .dropout]
  obtain ⟨⟨text, hanswer⟩, -⟩ := load_onDisk hload
    (show (add "Dropout").result ({} : Config).strictSettings (Chain.new 784) = _ from rfl)
  refine ⟨hids.2 (by decide), hrecord.2 (by decide), (hloads hload hanswer).2 ?_⟩
  rintro ⟨hlast, -⟩
  exact absurd hlast (by decide)

/-- Adding a layer with the last id succeeds on a project that loads, and then the project does not
load any more. -/
theorem last_id_not_closed :
    ((netOf ⟨4, [], Layer.maxId⟩).perform (Project.load "net.json")).1 =
        .ok (Project.ofChain ⟨4, [], Layer.maxId⟩) ∧
      (∃ text, ((add "Dropout").onDisk {} "net.json" (netOf ⟨4, [], Layer.maxId⟩)).1 = .ok text) ∧
      (((add "Dropout").onDisk {} "net.json" (netOf ⟨4, [], Layer.maxId⟩)).2.perform
        (Project.load "net.json")).1 =
          .error (.malformed (.refused "layer id space exhausted (next id 9007199254740992)")) := by
  have hstorable : (⟨4, [], Layer.maxId⟩ : Chain).Storable Project.placementDepth :=
    ⟨⟨List.nodup_nil, by simp [Chain.ids], by decide⟩, Nat.le_refl _, by simp⟩
  have hload := loads_netOf hstorable
  obtain ⟨hanswer, read, hread, hreload⟩ := load_onDisk hload
    (show (add "Dropout").result ({} : Config).strictSettings ⟨4, [], Layer.maxId⟩ =
      .ok ((⟨4, [], Layer.maxId⟩ : Chain).append .dropout) from rfl)
  -- the layer comes back, so it is the counter for which the chain is refused
  have hlegible : ((⟨4, [], Layer.maxId⟩ : Chain).append .dropout).Legible
      Project.placementDepth :=
    ⟨List.forall_mem_singleton.2 (Chain.storable_newLayer _ _ _).legible, by decide, by decide⟩
  rw [hlegible.reread_eq] at hread
  cases hread
  refine ⟨hload, hanswer, hreload.trans ?_⟩
  rfl

end EditCommand

end LayerChain
