import LayerChain.CommandLine.Run
import LayerChain.Proofs.Chain.Storing
import LayerChain.Proofs.Chain.Targets
import LayerChain.Proofs.Files.Projects

/-!
# Editing a file and editing in memory

An `EditCommand` edits the project at a path, and each time the program loads the project, edits it
and saves it again. The same commands can be carried out one after the other by one session in
memory. Both ways agree, command by command (`EditCommand.disk_agrees_with_memory`): after each of
them the file holds the chain of the session (`EditCommand.Mirrors`), as long as the chain can be
stored. No command places a layer, so whether it can be stored is decided by the floating-point
numbers of the chain and by its counter, whatever the commands ask for.
-/

namespace LayerChain

/-- A command that edits a project. -/
inductive EditCommand where
  | add (kind : String)
  | set (id : Nat) (assignments : List String) (strict : Bool)
  | remove (id : Nat)
  | inputDimension (value : UInt64)
  | repropagate

namespace EditCommand

/-! ## The two ways -/

/-- The command of the program, for the project at a path. -/
def on (path : String) : EditCommand → Command
  | add kind => .add path kind
  | set id assignments strict => .set path id assignments strict
  | remove id => .remove path id
  | inputDimension value => .inputDimension path value
  | repropagate => .repropagate path

/-- What a session in memory replies to a command, and the session after. An update is strict if
the command or the configuration of the session asks for it. -/
def inMemory (session : Session) : EditCommand → Except Error (Session.Reply × Session)
  | add kind => session.run (.appendNamed kind)
  | set id assignments strict => do
    let entries ← assignments.mapM SettingValue.ofAssignment
    let after ← session.edit (.update (session.strict || strict) id (Settings.ofList entries))
    return (.done, after)
  | remove id => session.run (.remove id)
  | inputDimension value => session.run (.setInputDimension value)
  | repropagate => session.run .repropagate

/-- The session in memory after a command. A command that fails changes nothing. -/
def step (session : Session) (command : EditCommand) : Session :=
  match command.inMemory session with
  | .ok (_, after) => after
  | .error _ => session

/-- The session in memory after some commands. -/
def sessionAfter (session : Session) (commands : List EditCommand) : Session :=
  commands.foldl step session

/-- What the program answers when it carries out a command on the project at a path, and the tree
of files after it. -/
def onDisk (config : Config) (path : String) (tree : FileTree) (command : EditCommand) :
    Except Error String × FileTree :=
  tree.perform ((command.on path).run config)

/-- The tree of files after the program was run once for each of some commands. -/
def treeAfter (config : Config) (path : String) (tree : FileTree) (commands : List EditCommand) :
    FileTree :=
  commands.foldl (fun tree command => (command.onDisk config path tree).2) tree

/-! ## The edit of a command -/

/-- The edit that a command asks for. -/
def edit (strict : Bool) : EditCommand → Except Error Edit
  | add kind => (Kind.ofName kind).map .append
  | set id assignments flag =>
    (assignments.mapM SettingValue.ofAssignment).map fun entries =>
      .update (strict || flag) id (Settings.ofList entries)
  | remove id => .ok (.remove id)
  | inputDimension value => .ok (.setInputDimension value)
  | repropagate => .ok .repropagate

/-- No command places a layer. -/
lemma edit_ne_place {command : EditCommand} {strict : Bool} {edit : Edit}
    (h : command.edit strict = .ok edit) (id : Nat) (placement : Json) :
    edit ≠ .place id placement := by
  rintro rfl
  cases command with
  | add kind =>
    obtain ⟨kind, -, hedit⟩ := map_eq_ok.1 h
    cases hedit
  | set target assignments flag =>
    obtain ⟨entries, -, hedit⟩ := map_eq_ok.1 h
    cases hedit
  | remove target => cases h
  | inputDimension value => cases h
  | repropagate => cases h

/-- The chain that a command makes of a chain. -/
def result (strict : Bool) (chain : Chain) (command : EditCommand) : Except Error Chain := do
  chain.apply (← command.edit strict)

/-! ## In memory -/

variable {session : Session} {command : EditCommand}

/-- A session answers with an error, or with itself as it is after it took up a chain. -/
def Replies (session : Session) (answer : Except Error (Session.Reply × Session)) :
    Except Error Chain → Prop
  | .error e => answer = .error e
  | .ok next => ∃ reply after, answer = .ok (reply, after) ∧ after.chain = next ∧
      after.strict = session.strict

lemma replies_edit (session : Session) (edit : Edit) (reply : Session.Reply) :
    Replies session ((session.edit edit).map fun s => (reply, s)) (session.chain.apply edit) := by
  rw [Session.edit]
  cases session.chain.apply edit with
  | error e => rfl
  | ok next => exact ⟨_, _, rfl, rfl, rfl⟩

/-- What a session replies to a command is decided by its chain and its strictness. -/
lemma replies_inMemory (session : Session) (command : EditCommand) :
    Replies session (command.inMemory session) (command.result session.strict session.chain) := by
  cases command with
  | add kind =>
    rw [result, edit, inMemory, Session.run]
    cases Kind.ofName kind with
    | error e => rfl
    | ok kind => exact replies_edit session (.append kind) _
  | set id assignments flag =>
    rw [result, edit, inMemory]
    cases assignments.mapM SettingValue.ofAssignment with
    | error e => rfl
    | ok entries =>
      exact replies_edit session (.update (session.strict || flag) id (Settings.ofList entries)) _
  | remove id => exact replies_edit session (.remove id) _
  | inputDimension value => exact replies_edit session (.setInputDimension value) _
  | repropagate => exact replies_edit session .repropagate _

/-- Setting a layer that is not there fails. -/
lemma inMemory_set_of_missing {id : Nat} {assignments : List String}
    {entries : List (String × SettingValue)}
    (hparse : assignments.mapM SettingValue.ofAssignment = .ok entries)
    (hid : id ∉ session.chain.ids) (strict : Bool) :
    (set id assignments strict).inMemory session = .error (.layerNotFound id) := by
  have happly : session.chain.apply
      (.update (session.strict || strict) id (Settings.ofList entries)) =
        .error (.layerNotFound id) :=
    Chain.apply_of_find_error rfl (Chain.find_eq_error_iff.2 ⟨hid, rfl⟩)
  rw [inMemory, hparse]
  simp only [bind, Except.bind, Session.edit, happly]

/-! ## On disk -/

section

variable {α β : Type} {tree : FileTree} {path : String} {chain : Chain} {config : Config}
  {result : Except Error Chain}

/-- The program answers with an error and leaves all files as they are, or it leaves the text of a
chain in the file. -/
def Saves (tree : FileTree) (path : String) (answer : Except Error α × FileTree) :
    Except Error Chain → Prop
  | .error e => answer = (.error e, tree)
  | .ok next => ∃ a after, answer = (.ok a, after) ∧
      after.read path = .ok (Content.ofString (Project.ofChain next).text)

lemma saves_editProject (hload : (tree.perform (Project.load path)).1 = .ok (Project.ofChain chain))
    {call : Session.Call}
    (hr : Replies session ((Session.ofChain chain config).run call) result) :
    Saves tree path (tree.perform (Command.editProject path config call)) result := by
  obtain ⟨content, hread, haccept⟩ := FileTree.exists_content hload
  have hperform : tree.perform (Project.load path) = (.ok (Project.ofChain chain), tree) := by
    rw [FileTree.perform_load, hread, Project.ofAnswer, haccept]
  have hrun : tree.perform (liftM ((Session.ofChain chain config).run call)) =
      ((Session.ofChain chain config).run call, tree) := FileTree.perform_except _
  rw [Command.editProject, FileTree.perform_bind hperform]
  cases result with
  | error e =>
    have hfail : (Session.ofChain chain config).run call = .error e := hr
    exact FileTree.perform_bind_error (hrun.trans (by rw [hfail]))
  | ok next =>
    obtain ⟨reply, after, hreply, rfl, -⟩ := hr
    obtain ⟨saved, hsave, htext⟩ := FileTree.perform_save hread (Project.ofChain after.chain)
    refine ⟨(reply, after), saved, ?_, htext⟩
    refine (FileTree.perform_bind (hrun.trans (by rw [hreply]))).trans ?_
    exact FileTree.perform_bind hsave

lemma Saves.bind {action : FileAction (StateM FileTree) α}
    {rest : α → FileAction (StateM FileTree) β} (h : Saves tree path (tree.perform action) result)
    (hrest : ∀ a, ∃ b, ∀ t : FileTree, t.perform (rest a) = (.ok b, t)) :
    Saves tree path (tree.perform (action >>= rest)) result := by
  cases result with
  | error e => exact FileTree.perform_bind_error h
  | ok next =>
    obtain ⟨a, after, ha, htext⟩ := h
    obtain ⟨b, hb⟩ := hrest a
    exact ⟨b, after, (FileTree.perform_bind ha).trans (hb after), htext⟩

/-- What the program does with a project is decided by the chain in the file and by the
configuration. -/
lemma saves_onDisk (hload : (tree.perform (Project.load path)).1 = .ok (Project.ofChain chain))
    (config : Config) (command : EditCommand) :
    Saves tree path (command.onDisk config path tree)
      (command.result config.strictSettings chain) := by
  have hreplies := replies_inMemory (Session.ofChain chain config) command
  cases command with
  | add kind =>
    refine (saves_editProject hload hreplies).bind ?_
    rintro ⟨reply, after⟩
    cases reply <;> exact ⟨_, fun t => rfl⟩
  | set id assignments flag =>
    have hparse : tree.perform (liftM (assignments.mapM SettingValue.ofAssignment)) =
        (assignments.mapM SettingValue.ofAssignment, tree) := FileTree.perform_except _
    rw [EditCommand.result, edit]
    cases hentries : assignments.mapM SettingValue.ofAssignment with
    | error e =>
      exact FileTree.perform_bind_error (hparse.trans (by rw [hentries]))
    | ok entries =>
      -- the session on disk is strict from its start if the command asks for it
      let strictConfig := { config with strictSettings := config.strictSettings || flag }
      have hreplies : Replies (Session.ofChain chain strictConfig)
          ((Session.ofChain chain strictConfig).run (.update id (Settings.ofList entries)))
          (chain.apply (.update (config.strictSettings || flag) id (Settings.ofList entries))) :=
        replies_edit (Session.ofChain chain strictConfig) _ .done
      have hstep : (set id assignments flag).onDisk config path tree =
          tree.perform (Command.editProject path strictConfig (.update id (Settings.ofList entries))
            >>= fun _ => pure (Command.line ("Updated layer " ++ toString id))) :=
        FileTree.perform_bind (hparse.trans (by rw [hentries]))
      rw [hstep]
      exact (saves_editProject hload hreplies).bind fun _ => ⟨_, fun t => rfl⟩
  | remove id =>
    refine (saves_editProject hload hreplies).bind ?_
    rintro ⟨reply, after⟩
    exact ⟨_, fun t => rfl⟩
  | inputDimension value =>
    refine (saves_editProject hload hreplies).bind ?_
    rintro ⟨reply, after⟩
    exact ⟨_, fun t => rfl⟩
  | repropagate =>
    refine (saves_editProject hload hreplies).bind ?_
    rintro ⟨reply, after⟩
    exact ⟨_, fun t => rfl⟩

end

/-! ## Command by command -/

section

variable {config : Config} {path : String} {tree : FileTree}

/-- A file holds the chain of a session, which can be stored, and the program is as strict as the
session. -/
structure Mirrors (config : Config) (path : String) (tree : FileTree) (session : Session) :
    Prop where
  loads : (tree.perform (Project.load path)).1 = .ok (Project.ofChain session.chain)
  strict : session.strict = config.strictSettings
  storable : session.chain.Storable Project.placementDepth

/-- The program and the session agree on a command: both carry it out, or both refuse it with the
same error, and then no file is changed. -/
def Agree (config : Config) (path : String) (tree : FileTree) (session : Session)
    (command : EditCommand) : Prop :=
  (command.onDisk config path tree).1.map (fun _ => ()) =
      (command.inMemory session).map (fun _ => ()) ∧
    ((command.onDisk config path tree).2.perform (Project.load path)).1 =
      .ok (Project.ofChain (command.step session).chain) ∧
    ∀ e, (command.onDisk config path tree).1 = .error e →
      (command.onDisk config path tree).2 = tree

/-- A file with the text of a chain that can be stored loads to this chain. -/
lemma loads_of_read {chain : Chain} (h : chain.Storable Project.placementDepth)
    (hread : tree.read path = .ok (Content.ofString (Project.ofChain chain).text)) :
    (tree.perform (Project.load path)).1 = .ok (Project.ofChain chain) := by
  rw [FileTree.perform_load, hread]
  exact Project.ofContent_text h

/-- One command keeps the file in step with the session, if the chain after it can be stored. -/
theorem Mirrors.step (h : Mirrors config path tree session)
    (hfloats : (command.step session).chain.FloatsReadBack)
    (hmax : (command.step session).chain.nextId ≤ Layer.maxId) :
    Agree config path tree session command ∧
      Mirrors config path (command.onDisk config path tree).2 (command.step session) := by
  have hmemory := replies_inMemory session command
  have hdisk := saves_onDisk h.loads config command
  rw [← h.strict] at hdisk
  cases hresult : command.result session.strict session.chain with
  | error e =>
    -- both refuse, and everything stays
    rw [hresult] at hmemory hdisk
    have hm : command.inMemory session = .error e := hmemory
    have hd : command.onDisk config path tree = (.error e, tree) := hdisk
    have hstep : command.step session = session := by rw [EditCommand.step, hm]
    rw [hstep, hd]
    refine ⟨⟨?_, ?_, ?_⟩, h⟩
    · rw [hd, hm]
      rfl
    · rw [hd, hstep]
      exact h.loads
    · rw [hd]
      exact fun _ _ => rfl
  | ok next =>
    -- both take up the same chain, which can be stored and so is what the file loads to
    rw [hresult] at hmemory hdisk
    obtain ⟨reply, after, hm, rfl, hstrict⟩ := hmemory
    obtain ⟨text, saved, hd, hread⟩ := hdisk
    have hstep : command.step session = after := by rw [EditCommand.step, hm]
    rw [hstep] at hfloats hmax
    obtain ⟨edit, hedit, happly⟩ := bind_eq_ok.1 hresult
    have hstorable := h.storable.apply happly
      (fun id p hplace => absurd hplace (edit_ne_place hedit id p)) hfloats hmax
    have hloads := loads_of_read hstorable hread
    rw [hstep, hd]
    refine ⟨⟨?_, ?_, ?_⟩, hloads, hstrict.trans h.strict, hstorable⟩
    · rw [hd, hm]
      rfl
    · rw [hd, hstep]
      exact hloads
    · rw [hd]
      rintro e ⟨⟩

end

/-! ## Runs -/

/-- A command never takes the counter back. -/
lemma counter_le_step (hc : session.chain.nextId ≤ maxCounter) (command : EditCommand) :
    session.chain.nextId ≤ (command.step session).chain.nextId ∧
      (command.step session).chain.nextId ≤ maxCounter := by
  have hmemory := replies_inMemory session command
  cases hresult : command.result session.strict session.chain with
  | error e =>
    rw [hresult] at hmemory
    have hm : command.inMemory session = .error e := hmemory
    rw [step, hm]
    exact ⟨Nat.le_refl _, hc⟩
  | ok next =>
    rw [hresult] at hmemory
    obtain ⟨reply, after, hm, rfl, -⟩ := hmemory
    obtain ⟨edit, -, happly⟩ := bind_eq_ok.1 hresult
    rw [step, hm]
    exact Chain.counter_le_of_apply happly hc

lemma counter_le_sessionAfter (hc : session.chain.nextId ≤ maxCounter)
    (commands : List EditCommand) :
    session.chain.nextId ≤ (sessionAfter session commands).chain.nextId ∧
      (sessionAfter session commands).chain.nextId ≤ maxCounter := by
  induction commands generalizing session with
  | nil => exact ⟨Nat.le_refl _, hc⟩
  | cons command commands ih =>
    obtain ⟨hle, hmax⟩ := counter_le_step hc command
    obtain ⟨hrest, hlast⟩ := ih hmax
    exact ⟨Nat.le_trans hle hrest, hlast⟩

lemma sessionAfter_concat (session : Session) (commands : List EditCommand)
    (command : EditCommand) :
    sessionAfter session (commands ++ [command]) =
      command.step (sessionAfter session commands) := by
  rw [sessionAfter, List.foldl_append]
  rfl

/-- Some commands keep the file in step with the session, if the chain after each of them can be
stored. -/
theorem Mirrors.after {config : Config} {path : String} {tree : FileTree}
    {commands : List EditCommand} (h : Mirrors config path tree session)
    (hfloats : ∀ done, done <+: commands → (sessionAfter session done).chain.FloatsReadBack)
    (hmax : (sessionAfter session commands).chain.nextId ≤ Layer.maxId) :
    Mirrors config path (treeAfter config path tree commands) (sessionAfter session commands) := by
  induction commands generalizing tree session with
  | nil => exact h
  | cons command commands ih =>
    have hcounter : session.chain.nextId ≤ maxCounter :=
      Nat.le_trans h.storable.nextId_le (by decide)
    -- the counter never goes back, so it is within the ids after the first command, too
    have hle := (counter_le_sessionAfter (counter_le_step hcounter command).2 commands).1
    have hfirst : (command.step session).chain.FloatsReadBack :=
      hfloats [command] (List.prefix_append [command] commands)
    refine ih (h.step hfirst (Nat.le_trans hle hmax)).2 ?_ hmax
    intro done hdone
    exact hfloats (command :: done) (List.prefix_cons_inj command |>.2 hdone)

/-- Editing the project in a file agrees with editing it in memory: whatever commands were carried
out before, the program and the session answer the next one with the same success or the same
error, the file then loads to the chain of the session, and a command that fails changes no file.
The floating-point numbers that the project holds at the start and after each command come back from
their texts, and the counter stays within the ids. -/
theorem disk_agrees_with_memory (config : Config) {path : String} {tree : FileTree}
    {project : Project} (hload : (tree.perform (Project.load path)).1 = .ok project)
    (commands : List EditCommand) (command : EditCommand)
    (hfloats : ∀ done, done <+: commands ++ [command] →
      (sessionAfter (Session.ofChain project.chain config) done).chain.FloatsReadBack)
    (hcounter : (sessionAfter (Session.ofChain project.chain config)
      (commands ++ [command])).chain.nextId ≤ Layer.maxId) :
    Agree config path (treeAfter config path tree commands)
      (sessionAfter (Session.ofChain project.chain config) commands) command := by
  obtain ⟨content, -, haccept⟩ := FileTree.exists_content hload
  have hloaded : project.chain.FloatsReadBack := hfloats [] List.nil_prefix
  obtain ⟨hproject, hstorable⟩ := Project.storable_of_ofContent haccept hloaded
  have hstart : Mirrors config path tree (Session.ofChain project.chain config) :=
    ⟨hload.trans (congrArg _ hproject), rfl, hstorable⟩
  have hlast := hfloats _ List.prefix_rfl
  rw [sessionAfter_concat] at hlast hcounter
  -- the counter never goes back, so it was within the ids before the last command too
  have hmax : (Session.ofChain project.chain config).chain.nextId ≤ maxCounter :=
    Nat.le_trans hstorable.nextId_le (by decide)
  have hle := (counter_le_step (counter_le_sessionAfter hmax commands).2 command).1
  have hbefore := hstart.after
    (fun done hdone => hfloats done (hdone.trans (List.prefix_append commands [command])))
    (Nat.le_trans hle hcounter)
  exact (hbefore.step hlast hcounter).1

/-- A tree with the project of a chain in its only file. -/
def netOf (chain : Chain) : FileTree :=
  FileTree.empty.put ["net.json"] (.file (Content.ofString (Project.ofChain chain).text))

lemma loads_netOf {chain : Chain} (h : chain.Storable Project.placementDepth) :
    ((netOf chain).perform (Project.load "net.json")).1 = .ok (Project.ofChain chain) := by
  refine loads_of_read h ?_
  rw [netOf]
  generalize Content.ofString (Project.ofChain chain).text = content
  rfl

/-- On a project with a dropout layer, setting a layer that is not there fails both ways, whether or
not the number comes back that it was to be set to, and then a strict update of the rate agrees. -/
theorem disk_agrees_with_memory_on_dropout :
    let session := sessionAfter (Session.ofChain (Chain.new 784) {}) [.add "Dropout"]
    let missing : EditCommand := .set 99 ["eps=1e-23"] false
    missing.inMemory session = .error (.layerNotFound 99) ∧
      Agree {} "net.json" (treeAfter {} "net.json" (netOf (Chain.new 784)) [.add "Dropout"]) session
        missing ∧
      Agree {} "net.json"
        (treeAfter {} "net.json" (netOf (Chain.new 784)) [.add "Dropout", missing])
        (sessionAfter (Session.ofChain (Chain.new 784) {}) [.add "Dropout", missing])
        (.set 1 ["p=0.25"] true) := by
  intro session missing
  have hnew : (Chain.new 784).Storable Project.placementDepth := Chain.storable_new 784
  have hdropout := hnew.append .dropout (by decide)
  have hfails : missing.inMemory session = .error (.layerNotFound 99) := by
    have hparse : ["eps=1e-23"].mapM SettingValue.ofAssignment =
        .ok [("eps", Catalog.real 1 (-23))] := by decide +kernel
    exact inMemory_set_of_missing hparse (by decide +kernel) false
  have hkept : sessionAfter (Session.ofChain (Chain.new 784) {}) [.add "Dropout", missing] =
      session := by
    refine (sessionAfter_concat _ [.add "Dropout"] missing).trans ?_
    rw [step, hfails]
  have hset : (step session (.set 1 ["p=0.25"] true)).chain.FloatsReadBack := by
    obtain ⟨value, hvalue, hparse⟩ : ∃ value : SettingValue, value.FloatsReadBack ∧
        ["p=0.25"].mapM SettingValue.ofAssignment = .ok [("p", value)] :=
      ⟨Catalog.real 25 (-2), Catalog.floatsReadBack_real (Binary64.readsBack_of_scan
        ⟨false, [0], [2, 5], none⟩ (by decide +kernel) (by decide +kernel)), by decide +kernel⟩
    obtain ⟨hsettings, hplacement⟩ := List.forall_mem_singleton.1 hdropout.floatsReadBack
    rw [step, inMemory, hparse]
    exact List.forall_mem_singleton.2 ⟨hsettings.merge (Settings.floatsReadBack_empty.insertMany
      (List.forall_mem_singleton.2 hvalue)), hplacement⟩
  have hall : ∀ done, done <+: [.add "Dropout", missing, .set 1 ["p=0.25"] true] →
      (sessionAfter (Session.ofChain (Chain.new 784) {}) done).chain.FloatsReadBack := by
    intro done hdone
    rw [← List.mem_inits] at hdone
    simp only [List.inits, List.map_cons, List.map_nil, List.mem_cons, List.not_mem_nil,
      or_false] at hdone
    rcases hdone with rfl | rfl | rfl | rfl
    · exact hnew.floatsReadBack
    · exact hdropout.floatsReadBack
    · rw [hkept]
      exact hdropout.floatsReadBack
    · have hlast := sessionAfter_concat (Session.ofChain (Chain.new 784) {})
        [.add "Dropout", missing] (.set 1 ["p=0.25"] true)
      rw [hkept] at hlast
      exact hlast ▸ hset
  refine ⟨hfails, ?_, ?_⟩
  · refine disk_agrees_with_memory {} (loads_netOf hnew) [.add "Dropout"] missing ?_ ?_
    · intro done hdone
      exact hall done (hdone.trans ⟨[.set 1 ["p=0.25"] true], rfl⟩)
    · decide +kernel
  · refine disk_agrees_with_memory {} (loads_netOf hnew) [.add "Dropout", missing]
      (.set 1 ["p=0.25"] true) hall ?_
    decide +kernel

end EditCommand

end LayerChain
