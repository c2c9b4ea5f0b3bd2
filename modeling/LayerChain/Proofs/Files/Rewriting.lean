import LayerChain.Files.Tree
import LayerChain.Proofs.Files.Paths
import LayerChain.Proofs.Results

/-!
# Writing to a file

Wherever a write succeeds, over a file or in a new place, the path is read with what was written
(`FileTree.read_of_write`). Where a file of a tree can be read, it can be written
(`FileTree.write_of_read`), and the directory in which it stands is there and cannot be made anew
(`FileTree.Holds.parent`).
-/

namespace LayerChain.FileTree

variable {tree : FileTree} {place dir : List String} {names : List String} {name path : String}

/-! ## Nodes -/

lemma node?_of_isAncestor (h : isAncestor place = true) : tree.node? place = some .directory := by
  rw [node?, if_pos h]

lemma node?_put_self (h : isAncestor place = false) (node : FileNode) :
    (tree.put place node).node? place = some node := by
  rw [node?, if_neg (by simp [h]), put, List.find?_cons_of_pos (by simp)]
  rfl

lemma node?_put_of_ne {other : List String} (h : other ≠ place) (node : FileNode) :
    (tree.put place node).node? other = tree.node? other := by
  rw [node?, node?, put, List.find?_cons_of_neg (by simpa using Ne.symm h)]
  have hfind : (tree.nodes.filter fun n => n.1 != place).find? (fun n => n.1 == other) =
      tree.nodes.find? fun n => n.1 == other := by
    rw [List.find?_filter]
    congr 1
    funext n
    by_cases hn : n.1 = other
    · simp [hn, h]
    · simp [hn]
  rw [hfind]

/-! ## Walks -/

lemma descend_self (h : Path.isSelf name = true) (place : List String) :
    descend place name = place := by
  rw [descend, if_pos h]

lemma walk_cons (place : List String) (name : String) (names : List String) :
    tree.walk place (name :: names) = tree.walk place [name] >>= fun next => tree.walk next names := by
  rw [walk.eq_def, walk.eq_def tree place [name]]
  dsimp only
  cases tree.node? place with
  | none => rfl
  | some node =>
    cases node with
    | file content => rfl
    | directory =>
      dsimp only
      split_ifs
      · rfl
      · rfl

lemma walk_append (place : List String) (names more : List String) :
    tree.walk place (names ++ more) =
      tree.walk place names >>= fun next => tree.walk next more := by
  induction names generalizing place with
  | nil => rfl
  | cons name names ih =>
    rw [List.cons_append, walk_cons, walk_cons place name names]
    cases tree.walk place [name] with
    | error fault => rfl
    | ok next => exact ih next

lemma walk_single_eq_ok {next : List String} :
    tree.walk place [name] = .ok next ↔
      tree.node? place = some .directory ∧ Path.isTooLong name = false ∧
        next = descend place name := by
  rw [walk]
  cases tree.node? place with
  | none => simp
  | some node =>
    cases node with
    | file content => simp
    | directory =>
      dsimp only
      by_cases hlong : Path.isTooLong name = true
      · simp [hlong]
      · rw [if_neg hlong, walk]
        simp [hlong, eq_comm]

/-- Names that mean the directory itself lead nowhere else. -/
lemma walk_selfs {next : List String} (h : ∀ n ∈ names, Path.isSelf n)
    (hw : tree.walk place names = .ok next) : next = place := by
  induction names with
  | nil =>
    cases hw
    rfl
  | cons name names ih =>
    rw [walk_cons, bind_eq_ok] at hw
    obtain ⟨middle, hstep, hw⟩ := hw
    obtain ⟨-, -, rfl⟩ := walk_single_eq_ok.1 hstep
    rw [descend_self (h name List.mem_cons_self)] at hw
    exact ih (fun n hn => h n (List.mem_cons_of_mem _ hn)) hw

/-- A walk leads through directories only, so it does not see what is put in another place. -/
lemma walk_put (hplace : tree.node? place ≠ some .directory) (node : FileNode)
    {start next : List String} (hw : tree.walk start names = .ok next) :
    (tree.put place node).walk start names = .ok next := by
  induction names generalizing start with
  | nil => exact hw
  | cons name names ih =>
    rw [walk_cons, bind_eq_ok] at hw ⊢
    obtain ⟨middle, hstep, hw⟩ := hw
    refine ⟨middle, ?_, ih hw⟩
    rw [walk_single_eq_ok] at hstep ⊢
    have hne : start ≠ place := by
      rintro rfl
      exact hplace hstep.1
    rw [node?_put_of_ne hne]
    exact hstep

/-! ## What was written -/

lemma namesOf_eq_ok {ns : List String} :
    namesOf path = .ok ns ↔ ('\x00' ∉ path.toList ∧ path.utf8ByteSize ≤ Path.maxPath) ∧
      ¬(path = "" ∨ path.toList.head? = some '/') ∧ ns = Path.names path := by
  rw [namesOf]
  split_ifs with hnul hlong hbelow
  · simp [hnul]
  · have : ¬path.utf8ByteSize ≤ Path.maxPath := by omega
    simp [this]
  · simp [hbelow]
  · have : path.utf8ByteSize ≤ Path.maxPath := by omega
    constructor
    · rintro ⟨⟩
      exact ⟨⟨hnul, this⟩, hbelow, rfl⟩
    · rintro ⟨-, -, rfl⟩
      rfl

lemma exists_last_of_namesOf {ns : List String} (h : namesOf path = .ok ns) :
    ∃ init last, ns = init ++ [last] := by
  have hne : ns ≠ [] := (namesOf_eq_ok.1 h).2.2 ▸ Path.names_ne_nil path
  exact ⟨_, _, (List.dropLast_concat_getLast hne).symm⟩

/-- What a path leads to, its last name leads to from a directory. -/
lemma exists_last_step {ns : List String} (hns : namesOf path = .ok ns)
    (hwalk : tree.walk [] ns = .ok place) :
    ∃ init last dir, ns = init ++ [last] ∧ tree.walk [] init = .ok dir ∧
      tree.walk dir [last] = .ok place := by
  obtain ⟨init, last, rfl⟩ := exists_last_of_namesOf hns
  rw [walk_append, bind_eq_ok] at hwalk
  obtain ⟨dir, hdir, hstep⟩ := hwalk
  exact ⟨init, last, dir, rfl, hdir, hstep⟩

/-- A write that succeeds puts the text into the place that the names lead to, where no directory
is. -/
lemma exists_place_of_write {after : FileTree} {text : String}
    (h : tree.write path text = .ok after) :
    ∃ ns place, namesOf path = .ok ns ∧ tree.walk [] ns = .ok place ∧
      tree.node? place ≠ some .directory ∧
      after = tree.put place (.file (Content.ofString text)) := by
  obtain ⟨⟨dir, name⟩, hentry, h⟩ := bind_eq_ok.1 h
  obtain ⟨ns, hns, hentry⟩ := bind_eq_ok.1 hentry
  obtain ⟨_, hwalk, hnamed⟩ := bind_eq_ok.1 hentry
  cases hnamed
  dsimp only at h
  split_ifs at h with hslash
  · cases h
  obtain ⟨place, hstep, hput⟩ := bind_eq_ok.1 h
  -- no slash stands at the end, so the last name is the one that is written to
  obtain ⟨-, hbelow, hpath⟩ := namesOf_eq_ok.1 hns
  obtain ⟨init, last, rfl⟩ := exists_last_of_namesOf hns
  have hlast : last ≠ "" := by
    rintro rfl
    refine hslash (Path.slash_of_getLast?_names (fun he => hbelow (.inl he)) ?_)
    rw [← hpath, List.getLast?_concat]
  have hnamed : (((init ++ [last]).reverse.dropWhile (· == "")).reverse) = init ++ [last] := by
    simp [hlast]
  rw [hnamed, List.dropLast_concat, walk_append, bind_eq_ok] at hwalk
  rw [hnamed, List.getLastD_concat] at hstep
  obtain ⟨middle, hmiddle, hdot⟩ := hwalk
  obtain ⟨-, -, hdir⟩ := walk_single_eq_ok.1 hdot
  rw [hdir, descend_self (by decide)] at hstep
  refine ⟨_, place, hns, ?_, ?_⟩
  · rw [walk_append, bind_eq_ok]
    exact ⟨middle, hmiddle, hstep⟩
  · cases hnode : tree.node? place with
    | none =>
      rw [hnode] at hput
      exact ⟨by simp, (Except.ok.inj hput).symm⟩
    | some node =>
      rw [hnode] at hput
      cases node with
      | directory => cases hput
      | file content => exact ⟨by simp, (Except.ok.inj hput).symm⟩

/-- Wherever a write succeeds, the path is read with what was written. -/
theorem read_of_write {after : FileTree} {text : String} (h : tree.write path text = .ok after) :
    after.read path = .ok (Content.ofString text) := by
  obtain ⟨ns, place, hns, hwalk, hplace, rfl⟩ := exists_place_of_write h
  have hancestor : isAncestor place = false := by
    by_contra hne
    exact hplace (node?_of_isAncestor (by simpa using hne))
  have hafter := walk_put hplace (.file (Content.ofString text)) hwalk
  rw [FileTree.read, find, hns]
  simp only [bind, Except.bind, hafter, node?_put_self hancestor]
  rfl

/-! ## Files that can be read -/

/-- A file stands in a directory under a name of its own, and the path is made of the names that
lead to the directory and of that name. -/
structure Holds (tree : FileTree) (path : String) (content : Content) (init : List String)
    (last : String) (dir : List String) : Prop where
  names : namesOf path = .ok (init ++ [last])
  walk : tree.walk [] init = .ok dir
  directory : tree.node? dir = some .directory
  fits : Path.isTooLong last = false
  named : Path.isSelf last = false
  file : tree.node? (descend dir last) = some (.file content)

lemma exists_holds {content : Content} (h : tree.read path = .ok content) :
    ∃ init last dir, tree.Holds path content init last dir := by
  obtain ⟨node, hfind, hnode⟩ := bind_eq_ok.1 h
  obtain ⟨ns, hns, hfind⟩ := bind_eq_ok.1 hfind
  obtain ⟨place, hwalk, hfind⟩ := bind_eq_ok.1 hfind
  obtain ⟨init, last, dir, rfl, hdir, hstep⟩ := exists_last_step hns hwalk
  obtain ⟨hdirectory, hfits, rfl⟩ := walk_single_eq_ok.1 hstep
  have hfile : tree.node? (descend dir last) = some (.file content) := by
    cases hnode' : tree.node? (descend dir last) with
    | none =>
      rw [hnode'] at hfind
      cases hfind
    | some found =>
      rw [hnode'] at hfind
      cases hfind
      cases node with
      | directory => cases hnode
      | file c =>
        cases hnode
        rfl
  have hnamed : Path.isSelf last = false := by
    -- otherwise the walk ends where it was, in a directory
    by_contra hself
    rw [descend_self (by simpa using hself), hdirectory] at hfile
    cases hfile
  exact ⟨init, last, dir, hns, hdir, hdirectory, hfits, hnamed, hfile⟩

/-- The entry of a path is found in the directory to which the other names lead. -/
lemma entry_eq {init : List String} {last : String} (hns : namesOf path = .ok (init ++ [last]))
    (hlast : last ≠ "") (hwalk : tree.walk [] init = .ok dir)
    (hdir : tree.node? dir = some .directory) : tree.entry path = .ok (dir, last) := by
  have hnamed : (((init ++ [last]).reverse.dropWhile (· == "")).reverse) = init ++ [last] := by
    simp [hlast]
  have hdot : tree.walk dir ["."] = .ok dir :=
    walk_single_eq_ok.2 ⟨hdir, by decide, (descend_self (by decide) dir).symm⟩
  rw [entry, hns]
  simp only [bind, Except.bind]
  rw [hnamed, List.dropLast_concat, walk_append, hwalk]
  simp only [bind, Except.bind]
  rw [hdot, List.getLastD_concat]
  rfl

namespace Holds

variable {content : Content} {init : List String} {last : String}

lemma walk_last (h : tree.Holds path content init last dir) :
    tree.walk dir [last] = .ok (descend dir last) :=
  walk_single_eq_ok.2 ⟨h.directory, h.fits, rfl⟩

lemma last_ne (h : tree.Holds path content init last dir) : last ≠ "" := by
  rintro rfl
  cases h.named

/-- Writing puts the text into the place of the file. -/
lemma write (h : tree.Holds path content init last dir) (text : String) :
    tree.write path text =
      .ok (tree.put (descend dir last) (.file (Content.ofString text))) := by
  have hslash : path.toList.getLast? ≠ some '/' := by
    intro hslash
    have hlast := Path.getLast?_names_of_slash hslash
    rw [← (namesOf_eq_ok.1 h.names).2.2, List.getLast?_concat] at hlast
    exact h.last_ne (Option.some.inj hlast)
  rw [FileTree.write, entry_eq h.names h.last_ne h.walk h.directory]
  simp only [bind, Except.bind, if_neg hslash, h.walk_last, h.file]
  rfl

end Holds

/-- A file that can be read can be written, and is read again with what was written. -/
theorem write_of_read {content : Content} (h : tree.read path = .ok content) (text : String) :
    ∃ after, tree.write path text = .ok after ∧ after.read path = .ok (Content.ofString text) := by
  obtain ⟨init, last, dir, hholds⟩ := exists_holds h
  have hwrite := hholds.write text
  exact ⟨_, hwrite, read_of_write hwrite⟩

/-! ## The directory of a file -/

lemma parentNames_eq (first : String) (init : List String) {last : String}
    (h : Path.isSelf last = false) :
    Path.parentNames (first :: init ++ [last]) = Path.trimEnd (first :: init) := by
  have htrim : Path.trimEnd (first :: init ++ [last]) = first :: init ++ [last] := by
    simp [Path.trimEnd, h]
  rw [Path.parentNames, htrim, List.dropLast_concat]

/-- What leads to a directory can be found as a directory, and cannot be made. -/
lemma directory_of_walk {ns : List String} (hns : namesOf path = .ok ns)
    (hlast : ∀ n ∈ ns.getLast?, n ≠ "") (hwalk : tree.walk [] ns = .ok dir)
    (hdir : tree.node? dir = some .directory) :
    tree.isDirectory path = true ∧ tree.makeDirectory path = .error .alreadyExists := by
  constructor
  · rw [isDirectory, find, hns]
    simp only [bind, Except.bind, hwalk, hdir]
    rfl
  · obtain ⟨init, last, above, rfl, habove, hstep⟩ := exists_last_step hns hwalk
    have hdirectory := (walk_single_eq_ok.1 hstep).1
    rw [makeDirectory, entry_eq hns (hlast last (by simp)) habove hdirectory]
    simp only [bind, Except.bind, hstep, hdir]
    rfl

/-- The first names of a path are the names of a path that is as good. -/
lemma namesOf_front {front behind : List String} (h : namesOf path = .ok (front ++ behind))
    (hfront : front ≠ []) (hbehind : behind ≠ []) :
    namesOf (Path.ofNames front) = .ok front := by
  obtain ⟨⟨hnul, hsize⟩, hbelow, hpath⟩ := namesOf_eq_ok.1 h
  have happend : path = Path.ofNames front ++ "/" ++ Path.ofNames behind := by
    rw [← Path.ofNames_names path, ← hpath, Path.ofNames, Path.ofNames, Path.ofNames,
      String.intercalate_append_of_ne_nil hfront hbehind]
  have hnames : Path.names (Path.ofNames front) = front := by
    refine Path.names_ofNames hfront fun n hn => ?_
    exact Path.slash_not_mem_of_mem_names (hpath ▸ List.mem_append_left behind hn)
  refine namesOf_eq_ok.2 ⟨⟨?_, ?_⟩, ?_, hnames.symm⟩
  · intro hmem
    exact hnul (by rw [happend]; simp [hmem])
  · rw [happend, String.utf8ByteSize_append, String.utf8ByteSize_append] at hsize
    omega
  · rintro (hempty | hhead)
    · exact hbelow (.inr (by rw [happend, hempty]; simp))
    · exact hbelow (.inr (by rw [happend]; simp [hhead]))

lemma last_ne_of_namesOf {first : String} {kept : List String}
    (hns : namesOf (Path.ofNames (first :: kept)) = .ok (first :: kept))
    (hkept : ∀ n ∈ kept.getLast?, Path.isSelf n = false) :
    ∀ n ∈ (first :: kept).getLast?, n ≠ "" := by
  rintro n hn rfl
  cases kept with
  | nil =>
    have hfirst : first = "" := by simpa using hn
    refine (namesOf_eq_ok.1 hns).2.1 (.inl ?_)
    rw [hfirst]
    rfl
  | cons k kept =>
    rw [List.getLast?_cons_cons] at hn
    cases hkept "" hn

/-- A file stands in the current directory, or its path names a directory that is there. -/
lemma Holds.parent {content : Content} {init : List String} {last : String}
    (h : tree.Holds path content init last dir) :
    Path.parent? path = none ∨ ∃ parent above, Path.parent? path = some parent ∧
      Path.ancestors parent = parent :: above ∧ tree.isDirectory parent = true ∧
      tree.makeDirectory parent = .error .alreadyExists := by
  have hpath := (namesOf_eq_ok.1 h.names).2.2
  cases init with
  | nil =>
    left
    rw [Path.parent?, ← hpath, List.nil_append, Path.parentNames]
    rfl
  | cons first init =>
    right
    obtain ⟨kept, selfs, htrim, rfl, hselfs, hkept⟩ := Path.exists_trimEnd first init
    have hparent : Path.parentNames (Path.names path) = first :: kept := by
      rw [← hpath, parentNames_eq first _ h.named, htrim]
    have hns : namesOf (Path.ofNames (first :: kept)) = .ok (first :: kept) := by
      have hall : namesOf path = .ok (first :: kept ++ (selfs ++ [last])) := by
        simpa using h.names
      exact namesOf_front hall (by simp) (by simp)
    -- the names that were trimmed off lead nowhere else
    have hwalk : tree.walk [] (first :: kept) = .ok dir := by
      have hw := h.walk
      rw [← List.cons_append, walk_append, bind_eq_ok] at hw
      obtain ⟨next, hnext, hw⟩ := hw
      rw [walk_selfs hselfs hw]
      exact hnext
    obtain ⟨hisdir, hmake⟩ :=
      directory_of_walk hns (last_ne_of_namesOf hns hkept) hwalk h.directory
    obtain ⟨-, hbelow, hnames⟩ := namesOf_eq_ok.1 hns
    have hne : Path.ofNames (first :: kept) ≠ "" := fun he => hbelow (.inl he)
    refine ⟨Path.ofNames (first :: kept), Path.ancestorsFrom (Path.parentNames (first :: kept)),
      ?_, ?_, hisdir, hmake⟩
    · rw [Path.parent?, hparent]
      exact if_neg hne
    · rw [Path.ancestors, ← hnames, Path.ancestorsFrom]
      exact if_neg hne

end LayerChain.FileTree
