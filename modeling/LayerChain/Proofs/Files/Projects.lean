import LayerChain.Project
import LayerChain.Proofs.Files.Rewriting

/-!
# Loading and saving in a tree

What the operations on project files do to a tree of files. Loading changes nothing. Saving a
project leaves exactly its text in the file, wherever it succeeds (`FileTree.read_of_save`), and over
a file that can be read it does succeed (`FileTree.perform_save`).
-/

namespace LayerChain

namespace FileTree

/-- What an operation answers on a tree, and the tree after it. -/
def perform {α : Type} (tree : FileTree) (action : FileAction (StateM FileTree) α) :
    Except Error α × FileTree :=
  action.run.run tree

variable {α β : Type} {tree after : FileTree} {path : String} {content : Content}

lemma perform_bind {action : FileAction (StateM FileTree) α}
    {rest : α → FileAction (StateM FileTree) β} {a : α} (h : tree.perform action = (.ok a, after)) :
    tree.perform (action >>= rest) = after.perform (rest a) := by
  rw [perform] at h
  rw [perform, ExceptT.run_bind, StateT.run_bind, h]
  rfl

lemma perform_bind_error {action : FileAction (StateM FileTree) α}
    {rest : α → FileAction (StateM FileTree) β} {e : Error}
    (h : tree.perform action = (.error e, after)) :
    tree.perform (action >>= rest) = (.error e, after) := by
  rw [perform] at h
  rw [perform, ExceptT.run_bind, StateT.run_bind, h]
  rfl

/-- Two operations succeed one after the other. -/
lemma perform_bind_eq_ok {action : FileAction (StateM FileTree) α}
    {rest : α → FileAction (StateM FileTree) β} {b : β}
    (h : tree.perform (action >>= rest) = (.ok b, after)) :
    ∃ a middle, tree.perform action = (.ok a, middle) ∧
      middle.perform (rest a) = (.ok b, after) := by
  generalize haction : tree.perform action = found
  obtain ⟨answer, middle⟩ := found
  cases answer with
  | error e =>
    rw [perform_bind_error haction] at h
    cases h
  | ok a =>
    rw [perform_bind haction] at h
    exact ⟨a, middle, rfl, h⟩

lemma perform_except (x : Except Error α) : tree.perform (liftM x) = (x, tree) := by
  cases x <;> rfl

lemma perform_lift {x : StateM FileTree α} {a : α} (h : x.run tree = (a, after)) :
    tree.perform (liftM x) = (.ok a, after) := by
  show (Except.ok (x.run tree).1, (x.run tree).2) = _
  rw [h]

/-! ## Directories -/

/-- Where a directory is there, making it with those above it succeeds and changes nothing. -/
lemma run_makeDirectories {above : List String} (ha : Path.ancestors path = path :: above)
    (hd : tree.isDirectory path = true) (hm : tree.makeDirectory path = .error .alreadyExists) :
    (FileSystem.makeDirectories path : StateM FileTree _).run tree = (.ok (), tree) := by
  have hmake : (FileSystem.makeDirectory path : StateM FileTree _).run tree =
      (.error .alreadyExists, tree) := by
    show tree.commit (tree.makeDirectory path) = _
    rw [hm]
    rfl
  have hisdir : (FileSystem.isDirectory path : StateM FileTree _).run tree = (true, tree) := by
    show (tree.isDirectory path, tree) = _
    rw [hd]
  have hensure : (FileSystem.ensureDirectory path : StateM FileTree _).run tree =
      (.ok (), tree) := by
    have hrest : (do
        if ← FileSystem.isDirectory path then return .ok () else return .error .alreadyExists :
          StateM FileTree (Except FileFault Unit)).run tree = (.ok (), tree) := by
      rw [StateT.run_bind, hisdir]
      rfl
    rw [FileSystem.ensureDirectory, StateT.run_bind, hmake]
    exact hrest
  rw [FileSystem.makeDirectories, ha, FileSystem.ensureAll, StateT.run_bind, hensure]
  rfl

/-- The directory of a file that can be read is there already. -/
lemma perform_makeParent (h : tree.read path = .ok content) :
    tree.perform (Project.makeParent path) = (.ok (), tree) := by
  obtain ⟨init, last, dir, hholds⟩ := exists_holds h
  rcases hholds.parent with hnone | ⟨parent, above, hparent, habove, hd, hm⟩
  · rw [Project.makeParent, hnone]
    rfl
  · rw [Project.makeParent, hparent]
    exact perform_bind (perform_lift (run_makeDirectories habove hd hm))

/-! ## Projects -/

/-- Loading looks at the file and changes nothing. -/
theorem perform_load (tree : FileTree) (path : String) :
    tree.perform (Project.load path) = (Project.ofAnswer path (tree.read path), tree) :=
  perform_except _

/-- A project that was loaded was read from the file. -/
lemma exists_content {project : Project}
    (h : (tree.perform (Project.load path)).1 = .ok project) :
    ∃ content, tree.read path = .ok content ∧ Project.ofContent content = .ok project := by
  rw [perform_load] at h
  cases hread : tree.read path with
  | ok content =>
    rw [hread] at h
    exact ⟨content, rfl, h⟩
  | error fault =>
    rw [hread] at h
    cases fault <;> cases h

/-- Saving over a file that can be read succeeds, and leaves the text of the project in it. -/
theorem perform_save (h : tree.read path = .ok content) (project : Project) :
    ∃ after, tree.perform (Project.save path project) = (.ok (), after) ∧
      after.read path = .ok (Content.ofString project.text) := by
  obtain ⟨after, hwrite, hread⟩ := write_of_read h project.text
  refine ⟨after, ?_, hread⟩
  have hcommit : (FileSystem.write path project.text : StateM FileTree _).run tree =
      (.ok (), after) := by
    show tree.commit (tree.write path project.text) = _
    rw [hwrite]
    rfl
  rw [Project.save, perform_bind (perform_makeParent h)]
  exact perform_bind (perform_lift hcommit)

/-- Wherever saving a project succeeds, the path is read with its text. -/
theorem read_of_save {project : Project}
    (h : tree.perform (Project.save path project) = (.ok (), after)) :
    after.read path = .ok (Content.ofString project.text) := by
  obtain ⟨-, made, -, h⟩ := perform_bind_eq_ok h
  have hwritten : made.perform (liftM (FileSystem.write path project.text : StateM FileTree _)) =
      (.ok (made.commit (made.write path project.text)).1,
        (made.commit (made.write path project.text)).2) := perform_lift rfl
  rw [perform_bind hwritten, perform_except] at h
  cases hwrite : made.write path project.text with
  | error fault =>
    rw [hwrite] at h
    cases (Prod.mk.inj h).1
  | ok written =>
    rw [hwrite] at h
    obtain ⟨-, rfl⟩ := Prod.mk.inj h
    exact read_of_write hwrite

end FileTree

end LayerChain
