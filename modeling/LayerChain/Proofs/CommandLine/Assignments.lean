import LayerChain.Proofs.Chain.Patches
import LayerChain.Proofs.CommandLine.Editing

/-!
# Assignments one at a time

One command sets all of its assignments at once, with the patch that they make. A session that
carries out a command for each of them (`EditCommand.inTurn`) comes to the same chain, however often
a key is repeated: assignments that are accepted are entries of patches
(`EditCommand.foldlM_result_inTurn`), and patches compose (`patches_compose`).
-/

namespace LayerChain

namespace EditCommand

/-- The session in memory after some commands, if it carries out each of them. -/
def runAll (session : Session) (commands : List EditCommand) : Except Error Session :=
  commands.foldlM (fun s command => (command.inMemory s).map Prod.snd) session

/-- A command of its own for each assignment. -/
def inTurn (id : Nat) (flag : Bool) (assignments : List String) : List EditCommand :=
  assignments.map fun assignment => .set id [assignment] flag

variable {session after : Session} {chain next : Chain} {strict flag : Bool} {id : Nat}
  {assignments : List String}

/-- A session that carries out commands changes its chain by each of them in turn. -/
lemma foldlM_result_of_runAll {commands : List EditCommand}
    (h : runAll session commands = .ok after) :
    commands.foldlM (fun c command => command.result session.strict c) session.chain =
      .ok after.chain := by
  induction commands generalizing session with
  | nil =>
    cases h
    rfl
  | cons command commands ih =>
    rw [runAll, List.foldlM_cons] at h
    obtain ⟨mid, hfirst, hrest⟩ := bind_eq_ok.1 h
    obtain ⟨answer, hanswer, rfl⟩ := map_eq_ok.1 hfirst
    have hreplies := replies_inMemory session command
    rw [hanswer] at hreplies
    rw [List.foldlM_cons]
    cases hresult : command.result session.strict session.chain with
    | error e =>
      rw [hresult] at hreplies
      cases hreplies
    | ok next =>
      rw [hresult] at hreplies
      obtain ⟨reply, mid, hmid, rfl, hstrict⟩ := hreplies
      cases hmid
      -- the session stays as strict as it was, so the other commands are judged alike
      rw [← hstrict]
      exact ih hrest

lemma result_set_eq_ok : (set id assignments flag).result strict chain = .ok next ↔
    ∃ entries, List.Forall₂ (fun a e => SettingValue.ofAssignment a = .ok e) assignments entries ∧
      chain.apply (.update (strict || flag) id (Settings.ofList entries)) = .ok next := by
  simp only [result, edit, bind_eq_ok, map_eq_ok, mapM_eq_ok_iff, exists_exists_and_eq_and]

/-- Assignments that are accepted one at a time are entries that are set one at a time. -/
lemma foldlM_result_inTurn
    (h : (inTurn id flag assignments).foldlM (fun c command => command.result strict c) chain =
      .ok next) :
    ∃ entries, List.Forall₂ (fun a e => SettingValue.ofAssignment a = .ok e) assignments entries ∧
      entries.foldlM (fun c e =>
        c.apply (.update (strict || flag) id (Settings.ofList [e]))) chain = .ok next := by
  induction assignments generalizing chain with
  | nil => exact ⟨[], .nil, h⟩
  | cons assignment assignments ih =>
    rw [inTurn, List.map_cons, List.foldlM_cons] at h
    obtain ⟨mid, hfirst, hrest⟩ := bind_eq_ok.1 h
    obtain ⟨single, hsingle, hmid⟩ := result_set_eq_ok.1 hfirst
    obtain ⟨e, nothing, he, hnothing, rfl⟩ := List.forall₂_cons_left_iff.1 hsingle
    obtain rfl := List.forall₂_nil_left_iff.1 hnothing
    obtain ⟨entries, hentries, hnext⟩ := ih hrest
    refine ⟨e :: entries, .cons he hentries, ?_⟩
    rw [List.foldlM_cons, hmid]
    exact hnext

/-- One command that sets all assignments does what a command for each of them does, if a session
carries these out. -/
theorem result_set_of_runAll (h : assignments = [] → id ∈ session.chain.ids)
    (hturn : runAll session (inTurn id flag assignments) = .ok after) :
    (set id assignments flag).result session.strict session.chain = .ok after.chain := by
  obtain ⟨entries, hentries, hnext⟩ := foldlM_result_inTurn (foldlM_result_of_runAll hturn)
  refine result_set_eq_ok.2 ⟨entries, hentries, ?_⟩
  cases hentries with
  | nil =>
    -- nothing was done one at a time, and one update without entries does nothing either
    rw [← show session.chain = after.chain from Except.ok.inj hnext]
    exact Chain.update_nil (h rfl) _
  | @cons a e as es he hes =>
    rw [← Chain.foldlM_update (List.cons_ne_nil e es)]
    exact hnext

end EditCommand

/-- Patches compose. Merging is associative, has the empty patch as its unit, and merging a patch
again changes nothing. Two updates of a layer, strict or not, are one update with the merged patch,
with the same error: a strict one names the first undeclared key, first in the one patch and then in
the other. And a command that sets assignments comes to the same chain, in memory and in the file, as
a command for each of them, if a session carries these out. -/
theorem patches_compose :
    (∀ a b c : Settings, (a.merge b).merge c = a.merge (b.merge c)) ∧
    (∀ a : Settings, Settings.empty.merge a = a ∧ a.merge .empty = a ∧ a.merge a = a) ∧
    (∀ (chain : Chain) (id : Nat) (p q : Settings),
      (chain.update id p >>= fun c => c.update id q) = chain.update id (p.merge q) ∧
      (chain.updateStrict id p >>= fun c => c.updateStrict id q) =
        chain.updateStrict id (p.merge q) ∧
      ∀ layer, chain.find id = .ok layer → ∀ e, chain.updateStrict id (p.merge q) = .error e ↔
        ∃ key, (p.keys ++ q.keys).find? (fun key => !layer.descriptor.declares key) = some key ∧
          e = .unknownSetting key layer.kind.name) ∧
    (∀ (session after : Session) (id : Nat) (flag : Bool) (assignments : List String),
      (assignments = [] → id ∈ session.chain.ids) →
      EditCommand.runAll session (EditCommand.inTurn id flag assignments) = .ok after →
      ∃ reply once, (EditCommand.set id assignments flag).inMemory session = .ok (reply, once) ∧
        once.chain = after.chain) ∧
    ∀ (config : Config) (path : String) (tree : FileTree) (project : Project) (after : Session)
      (id : Nat) (flag : Bool) (assignments : List String),
      (tree.perform (Project.load path)).1 = .ok project →
      (assignments = [] → id ∈ project.chain.ids) →
      EditCommand.runAll (Session.ofChain project.chain config)
        (EditCommand.inTurn id flag assignments) = .ok after →
      ∃ printed saved,
        (EditCommand.set id assignments flag).onDisk config path tree = (.ok printed, saved) ∧
          saved.read path = .ok (Content.ofString (Project.ofChain after.chain).text) := by
  refine ⟨Settings.merge_assoc,
    fun a => ⟨Settings.empty_merge a, Settings.merge_empty a, Settings.merge_self a⟩, ?_, ?_, ?_⟩
  · intro chain id p q
    exact ⟨chain.update_update false id p q, chain.update_update true id p q,
      fun layer hfind e => Chain.updateStrict_merge_eq_error_iff hfind⟩
  · intro session after id flag assignments hfound hturn
    have hreplies := EditCommand.replies_inMemory session (.set id assignments flag)
    rw [EditCommand.result_set_of_runAll hfound hturn] at hreplies
    obtain ⟨reply, once, hreply, hchain, -⟩ := hreplies
    exact ⟨reply, once, hreply, hchain⟩
  · intro config path tree project after id flag assignments hload hfound hturn
    obtain ⟨content, -, haccept⟩ := FileTree.exists_content hload
    have hproject := (Project.exists_chain_of_ofContent haccept).1
    have hresult : (EditCommand.set id assignments flag).result config.strictSettings project.chain =
        .ok after.chain := EditCommand.result_set_of_runAll hfound hturn
    have hsaves := EditCommand.saves_onDisk (hload.trans (congrArg _ hproject)) config
      (.set id assignments flag)
    rw [hresult] at hsaves
    exact hsaves

/-- In the project of a dropout layer, a strict command sets the rate, then whether it works in
place, and then the rate again. Two strict updates of this layer name the key that only the second
of them should not have. -/
theorem patches_compose_on_dropout :
    let chain := (Chain.new 784).append .dropout
    let assignments := ["p=0.25", "inplace=true", "p=0.5"]
    let tree := FileTree.empty.put ["net.json"]
      (.file (Content.ofString (Project.ofChain chain).text))
    (chain.updateStrict 1 (.ofList [("p", .int 1)]) >>= fun c =>
      c.updateStrict 1 (.ofList [("p", .int 0), ("rate", .int 1)])) =
        .error (.unknownSetting "rate" "Dropout") ∧
    ∃ after, EditCommand.runAll (Session.ofChain chain {})
        (EditCommand.inTurn 1 true assignments) = .ok after ∧
      (∃ reply once, (EditCommand.set 1 assignments true).inMemory (Session.ofChain chain {}) =
        .ok (reply, once) ∧ once.chain = after.chain) ∧
      ∃ printed saved,
        (EditCommand.set 1 assignments true).onDisk {} "net.json" tree = (.ok printed, saved) ∧
          saved.read "net.json" = .ok (Content.ofString (Project.ofChain after.chain).text) := by
  intro chain assignments tree
  obtain ⟨-, -, hcompose, hmemory, hdisk⟩ := patches_compose
  have hstorable : chain.Storable Project.placementDepth :=
    (Chain.storable_new 784).append .dropout (by decide)
  have hread : tree.read "net.json" = .ok (Content.ofString (Project.ofChain chain).text) := by
    show (FileTree.empty.put ["net.json"]
      (.file (Content.ofString (Project.ofChain chain).text))).read "net.json" = _
    generalize Content.ofString (Project.ofChain chain).text = content
    rfl
  refine ⟨?_, ?_⟩
  · obtain ⟨-, hstrict, herror⟩ := hcompose chain 1 (.ofList [("p", .int 1)])
      (.ofList [("p", .int 0), ("rate", .int 1)])
    have hrate := (herror ((Chain.new 784).newLayer .dropout) rfl _).2 ⟨"rate", by decide, rfl⟩
    exact hstrict.trans hrate
  · cases hrun : EditCommand.runAll (Session.ofChain chain {})
      (EditCommand.inTurn 1 true assignments) with
    | error e =>
      have hok : (EditCommand.runAll (Session.ofChain chain {})
        (EditCommand.inTurn 1 true assignments)).toOption.isSome = true := by decide +kernel
      rw [hrun] at hok
      cases hok
    | ok after =>
      exact ⟨after, rfl,
        hmemory _ after 1 true assignments (by decide) hrun,
        hdisk {} "net.json" tree (Project.ofChain chain) after 1 true assignments
          (EditCommand.loads_of_read hstorable hread) (by decide) hrun⟩

end LayerChain
