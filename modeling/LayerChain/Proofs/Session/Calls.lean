import LayerChain.Proofs.Chain.Edits
import LayerChain.Session.Basic

/-!
# What a call does to a session

`Session.Effect` says once what a call can do: it takes up the chain after an edit, or it restores
a chain of the session's history, or it leaves both as they are. Only an append hands out an id.
Invariants of sessions are proved by cases on it.
-/

namespace LayerChain

/-- All chains that the entries of a history hold. -/
def History.chains (history : History) : List Chain :=
  (history.undoable ++ history.redoable).flatMap fun entry => [entry.before, entry.after]

namespace History

variable {history : History} {entry : Entry} {rest : List Entry}

/-- Undoing an entry brings no chain into a history. -/
lemma chains_undo (hu : history.undoable = entry :: rest) :
    { history with undoable := rest, redoable := entry :: history.redoable : History }.chains ⊆
      history.chains := by
  intro c hc
  simp only [chains, hu, List.mem_flatMap, List.mem_append, List.mem_cons] at hc ⊢
  obtain ⟨e, he, hc⟩ := hc
  exact ⟨e, by tauto, hc⟩

/-- Redoing an entry brings no chain into a history. -/
lemma chains_redo (hr : history.redoable = entry :: rest) :
    { history with undoable := entry :: history.undoable, redoable := rest : History }.chains ⊆
      history.chains := by
  intro c hc
  simp only [chains, hr, List.mem_flatMap, List.mem_append, List.mem_cons] at hc ⊢
  obtain ⟨e, he, hc⟩ := hc
  exact ⟨e, by tauto, hc⟩

end History

namespace Session

/-- The session after a list of calls. -/
def after (session : Session) (calls : List Call) : Session := calls.foldl step session

/-- All chains that a session holds. -/
def held (session : Session) : List Chain := session.chain :: session.history.chains

/-- The id that a reply hands out, if it hands one out. -/
def Reply.issuedId? : Reply → Option Nat
  | .appended id => some id
  | _ => none

/-- The id that a call hands out, if it hands one out. -/
def issuedBy (session : Session) (call : Call) : Option Nat :=
  match session.run call with
  | .ok (reply, _) => reply.issuedId?
  | .error _ => none

/-- What a call can do to a session, and the id it hands out. -/
inductive Effect (session : Session) : Session → Option Nat → Prop where
  /-- An edit that a call asks for succeeds. -/
  | edited {edit : Edit} {next : Chain} (success : session.chain.apply edit = .ok next)
    (asked : ∃ call, session.editOf call = some edit) :
    Effect session (session.commit (describe session.chain edit) next)
      (session.chain.issuedId? edit)
  /-- A chain of the history comes back. -/
  | restored {chain : Chain} {history : History} (mem : chain ∈ session.history.chains)
    (subset : history.chains ⊆ session.history.chains) :
    Effect session (session.restore chain history) none
  /-- The call fails, or it looks at the source. -/
  | kept (cache : SourceCache) : Effect session { session with cache := cache } none

variable {session : Session}

/-- A call that asks for an edit carries it out, and its reply hands out the id of the edit. -/
lemma exists_reply_of_editOf {call : Call} {edit : Edit} (h : session.editOf call = some edit) :
    ∃ reply : Reply, session.run call = (session.edit edit).map (fun s => (reply, s)) ∧
      reply.issuedId? = session.chain.issuedId? edit := by
  cases call with
  | append kind =>
    cases h
    exact ⟨.appended session.chain.nextId, rfl, rfl⟩
  | appendNamed name =>
    obtain ⟨kind, hkind, rfl⟩ := Option.map_eq_some_iff.1 h
    refine ⟨.appended session.chain.nextId, ?_, rfl⟩
    rw [run, Kind.ofName, hkind]
    rfl
  | update id patch =>
    cases h
    exact ⟨.done, rfl, rfl⟩
  | remove id =>
    cases h
    exact ⟨.done, rfl, rfl⟩
  | setInputDimension n =>
    cases h
    exact ⟨.done, rfl, rfl⟩
  | place id placement =>
    cases h
    exact ⟨.done, rfl, rfl⟩
  | repropagate =>
    cases h
    exact ⟨.done, rfl, rfl⟩
  | undo => cases h
  | redo => cases h
  | source => cases h

/-- The calls that ask for no edit: a name that is no kind, and those that are not about edits. -/
lemma cases_of_editOf_eq_none {call : Call} (h : session.editOf call = none) :
    (∃ name, call = .appendNamed name ∧ Kind.ofName name = .error (.unknownKind name)) ∨
      call = .undo ∨ call = .redo ∨ call = .source := by
  cases call with
  | appendNamed name =>
    refine .inl ⟨name, rfl, ?_⟩
    rw [Kind.ofName, Option.map_eq_none_iff.1 h]
  | undo => exact .inr (.inl rfl)
  | redo => exact .inr (.inr (.inl rfl))
  | source => exact .inr (.inr (.inr rfl))
  | append kind => cases h
  | update id patch => cases h
  | remove id => cases h
  | setInputDimension n => cases h
  | place id placement => cases h
  | repropagate => cases h

lemma effect_of_error {call : Call} {e : Error} (hr : session.run call = .error e) :
    session.Effect (session.step call) (session.issuedBy call) := by
  rw [step, issuedBy, hr]
  exact .kept session.cache

/-- A call that asks for an edit does what the edit does. -/
lemma effect_of_edit {call : Call} {edit : Edit} (hasked : session.editOf call = some edit) :
    session.Effect (session.step call) (session.issuedBy call) := by
  obtain ⟨reply, hr, hi⟩ := exists_reply_of_editOf hasked
  cases ha : session.chain.apply edit with
  | error e =>
    have he : session.edit edit = .error e := by
      rw [Session.edit, ha]
      rfl
    rw [he] at hr
    exact effect_of_error hr
  | ok next =>
    have he : session.edit edit = .ok (session.commit (describe session.chain edit) next) := by
      rw [Session.edit, ha]
      rfl
    rw [he, Except.map] at hr
    rw [step, issuedBy, hr]
    have hedited := Effect.edited ha ⟨call, hasked⟩
    rwa [← hi] at hedited

lemma effect_of_undo (session : Session) :
    session.Effect (session.step .undo) (session.issuedBy .undo) := by
  cases hu : session.history.undoable with
  | nil =>
    refine effect_of_error (e := .nothingToUndo) ?_
    rw [run, History.undo, hu]
    rfl
  | cons entry rest =>
    have hr : session.run .undo = .ok (.moved entry.description,
        session.restore entry.before { session.history with
          undoable := rest, redoable := entry :: session.history.redoable }) := by
      rw [run, History.undo, hu]
      rfl
    rw [step, issuedBy, hr]
    exact .restored (by simp [History.chains, hu]) (History.chains_undo hu)

lemma effect_of_redo (session : Session) :
    session.Effect (session.step .redo) (session.issuedBy .redo) := by
  cases hr : session.history.redoable with
  | nil =>
    refine effect_of_error (e := .nothingToRedo) ?_
    rw [run, History.redo, hr]
    rfl
  | cons entry rest =>
    have hrun : session.run .redo = .ok (.moved entry.description,
        session.restore entry.after { session.history with
          undoable := entry :: session.history.undoable, redoable := rest }) := by
      rw [run, History.redo, hr]
      rfl
    rw [step, issuedBy, hrun]
    exact .restored (by simp [History.chains, hr]) (History.chains_redo hr)

lemma effect_of_source (session : Session) :
    session.Effect (session.step .source) (session.issuedBy .source) := by
  cases hf : session.cache.fetch session.generator session.model with
  | error e =>
    refine effect_of_error (e := e) ?_
    rw [run, hf]
    rfl
  | ok found =>
    have hr : session.run .source = .ok (.source found.1, { session with cache := found.2 }) := by
      rw [run, hf]
      rfl
    rw [step, issuedBy, hr]
    exact .kept found.2

/-- Each call has one of the effects. -/
theorem effect_step (session : Session) (call : Call) :
    session.Effect (session.step call) (session.issuedBy call) := by
  cases hasked : session.editOf call with
  | some edit => exact effect_of_edit hasked
  | none =>
    rcases cases_of_editOf_eq_none hasked with ⟨name, rfl, hname⟩ | rfl | rfl | rfl
    · refine effect_of_error (e := .unknownKind name) ?_
      rw [run, hname]
      rfl
    · exact session.effect_of_undo
    · exact session.effect_of_redo
    · exact session.effect_of_source

/-! ## What a session holds after a call -/

/-- After an edit a session holds nothing but what it held before and the new chain. -/
lemma held_commit (session : Session) (description : String) (next : Chain) :
    (session.commit description next).held ⊆ next :: session.held := by
  intro c hc
  rcases List.mem_cons.1 hc with rfl | hc
  · exact List.mem_cons_self
  · simp only [History.chains, commit, History.record, List.append_nil, List.mem_flatMap,
      List.mem_cons, List.not_mem_nil, or_false] at hc
    obtain ⟨entry, he, hc⟩ := hc
    rcases List.mem_cons.1 (List.mem_of_mem_take he) with rfl | he
    · rcases hc with rfl | rfl
      · exact List.mem_cons_of_mem _ List.mem_cons_self
      · exact List.mem_cons_self
    · refine List.mem_cons_of_mem _ (List.mem_cons_of_mem _ ?_)
      exact List.mem_flatMap.2 ⟨entry, List.mem_append_left _ he, by simpa using hc⟩

end Session

end LayerChain
