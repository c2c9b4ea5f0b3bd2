import LayerChain.Proofs.Session.Calls

/-!
# Sessions that change in place

`Session.run` gives the session after a call, or an error and no session. A program that holds a
session changes it piece by piece instead, one assignment after the other, and a call that fails in
between could leave it half changed. `Session.inPlace` carries calls out in this way. It comes to the
same as `Session.run`, and a call that fails has not changed anything (`Session.on_inPlace`).
-/

namespace LayerChain

/-! ## Programs that change a state -/

/-- A program that changes a state as it goes, and may fail in between. What it has changed by then
stays changed. -/
abbrev InPlace (σ α : Type) : Type := ExceptT Error (StateM σ) α

namespace InPlace

variable {σ τ α β : Type}

/-- What a program answers when it starts in a state, and the state that it leaves. -/
def on (program : InPlace σ α) (state : σ) : Except Error α × σ := program.run.run state

/-- A program on a part of the state. -/
def part (read : σ → τ) (write : τ → σ → σ) (program : InPlace τ α) : InPlace σ α :=
  ExceptT.mk fun state =>
    ((program.on (read state)).1, write (program.on (read state)).2 state)

/-- The answer and the state if all is decided at once: a new state is taken up on success only. -/
def settled (state : σ) : Except Error (α × σ) → Except Error α × σ
  | .ok (a, next) => (.ok a, next)
  | .error e => (.error e, state)

/-- What is decided at once leaves the state as it was if it fails. -/
lemma settled_snd_of_error {state : σ} {result : Except Error (α × σ)} {e : Error}
    (h : (settled state result).1 = .error e) : (settled state result).2 = state := by
  cases result with
  | error _ => rfl
  | ok _ => cases h

section

variable (state : σ)

@[simp] lemma on_pure (a : α) : on (pure a) state = (.ok a, state) := rfl

@[simp] lemma on_get : on (get : InPlace σ σ) state = (.ok state, state) := rfl

@[simp] lemma on_modify (f : σ → σ) : on (modify f) state = (.ok ⟨⟩, f state) := rfl

@[simp] lemma on_liftM (x : Except Error α) : on (liftM x : InPlace σ α) state = (x, state) := by
  cases x <;> rfl

@[simp] lemma on_bind (program : InPlace σ α) (rest : α → InPlace σ β) :
    on (program >>= rest) state =
      match program.on state with
      | (.ok a, next) => (rest a).on next
      | (.error e, next) => (.error e, next) := by
  show ((program.run >>= ExceptT.bindCont rest).run state : Except Error β × σ) = _
  rw [StateT.run_bind, ← show program.on state = program.run.run state from rfl]
  obtain ⟨a | e, next⟩ := program.on state <;> rfl

@[simp] lemma on_part (read : σ → τ) (write : τ → σ → σ) (program : InPlace τ α) :
    on (part read write program) state =
      ((program.on (read state)).1, write (program.on (read state)).2 state) := rfl

end

end InPlace

open InPlace (settled)

/-! ## History -/

namespace History

/-- Records an edit: what could be redone goes first, and what is beyond the limit goes last. -/
def recordInPlace (entry : Entry) : InPlace History Unit := do
  modify fun history => { history with redoable := [] }
  modify fun history => { history with undoable := entry :: history.undoable }
  let history ← get
  if history.limit < history.undoable.length then
    modify fun history => { history with undoable := history.undoable.take history.limit }

/-- Moves the latest edit from the one stack to the other, and looks for it there. -/
def undoInPlace : InPlace History Entry := do
  match (← get).undoable with
  | [] => throw .nothingToUndo
  | entry :: rest =>
    modify fun history => { history with undoable := rest }
    modify fun history => { history with redoable := entry :: history.redoable }
    -- an entry was just put there, so this is no other way to fail
    match (← get).redoable with
    | [] => throw .nothingToUndo
    | last :: _ => return last

/-- Moves the edit that was undone last back, and looks for it there. -/
def redoInPlace : InPlace History Entry := do
  match (← get).redoable with
  | [] => throw .nothingToRedo
  | entry :: rest =>
    modify fun history => { history with redoable := rest }
    modify fun history => { history with undoable := entry :: history.undoable }
    -- as before, an entry was just put there
    match (← get).undoable with
    | [] => throw .nothingToRedo
    | last :: _ => return last

lemma on_recordInPlace (entry : Entry) (history : History) :
    (recordInPlace entry).on history = (.ok ⟨⟩, history.record entry) := by
  simp only [recordInPlace, InPlace.on_bind, InPlace.on_modify, InPlace.on_get]
  split_ifs with h
  · rfl
  · -- a stack within the limit stays whole
    rw [record, List.take_of_length_le (Nat.le_of_not_lt h)]
    rfl

lemma on_undoInPlace (history : History) :
    undoInPlace.on history = settled history history.undo := by
  simp only [undoInPlace, InPlace.on_bind, InPlace.on_get, undo]
  cases history.undoable with
  | nil => rfl
  | cons entry rest => rfl

lemma on_redoInPlace (history : History) :
    redoInPlace.on history = settled history history.redo := by
  simp only [redoInPlace, InPlace.on_bind, InPlace.on_get, redo]
  cases history.redoable with
  | nil => rfl
  | cons entry rest => rfl

end History

/-! ## Remembered sources -/

namespace SourceCache

/-- Gives a remembered source and counts this as a use, or generates the source, counts that, and
makes room before it is kept. -/
def fetchInPlace (generator : Generator) (model : Model) : InPlace SourceCache String := do
  match (← get).get? (key generator model) with
  | some source =>
    modify fun cache => { cache with hits := cache.hits + 1 }
    modify fun cache =>
      if key generator model ∈ cache.order then
        { cache with order := cache.order.erase (key generator model) ++ [key generator model] }
      else cache
    return source
  | none =>
    -- what may fail comes first, before anything is counted or given up
    let source ← generator.generate model
    modify fun cache => { cache with misses := cache.misses + 1 }
    modify fun cache =>
      let (table, order) := giveUp cache.capacity cache.table cache.order
      { cache with table, order }
    modify fun cache => { cache with table := cache.table.insert (key generator model) source }
    modify fun cache => { cache with order := cache.order ++ [key generator model] }
    return source

lemma on_fetchInPlace (generator : Generator) (model : Model) (cache : SourceCache) :
    (fetchInPlace generator model).on cache = settled cache (cache.fetch generator model) := by
  simp only [fetchInPlace, InPlace.on_bind, InPlace.on_get, fetch, supply]
  cases cache.get? (key generator model) with
  | some source =>
    simp only [InPlace.on_bind, InPlace.on_modify, InPlace.on_pure, settled, touch]
    split_ifs <;> rfl
  | none =>
    simp only [InPlace.on_bind, InPlace.on_liftM]
    cases generator.generate model with
    | error e => rfl
    | ok source => rfl

end SourceCache

/-! ## Sessions -/

namespace Session

/-- A program on the history of a session. -/
def onHistory {α : Type} : InPlace History α → InPlace Session α :=
  InPlace.part history fun history session => { session with history }

/-- A program on the remembered sources of a session. -/
def onCache {α : Type} : InPlace SourceCache α → InPlace Session α :=
  InPlace.part cache fun cache session => { session with cache }

/-- Takes up the chain after an edit: the counter is raised, the chains change places, and the edit is
recorded. -/
def commitInPlace (description : String) (next : Chain) : InPlace Session Unit := do
  modify fun session => { session with counter := max session.counter next.nextId }
  let before := (← get).chain
  modify fun session => { session with chain := next }
  onHistory (History.recordInPlace ⟨description, before, (← get).chain⟩)

/-- Carries out an edit on the chain, and takes up what it gives. -/
def editInPlace (edit : Edit) : InPlace Session Unit := do
  let chain := (← get).chain
  let next ← chain.apply edit
  commitInPlace (describe chain edit) next

/-- Appends a layer of a kind. -/
def appendInPlace (kind : Kind) : InPlace Session Reply := do
  let id := (← get).chain.nextId
  editInPlace (.append kind)
  return .appended id

/-- Carries out a call. -/
def inPlace : Call → InPlace Session Reply
  | .append kind => appendInPlace kind
  | .appendNamed name => do appendInPlace (← Kind.ofName name)
  | .update id patch => do
    editInPlace (.update (← get).strict id patch)
    return .done
  | .remove id => do
    editInPlace (.remove id)
    return .done
  | .setInputDimension n => do
    editInPlace (.setInputDimension n)
    return .done
  | .place id placement => do
    editInPlace (.place id placement)
    return .done
  | .repropagate => do
    editInPlace .repropagate
    return .done
  | .undo => do
    let entry ← onHistory History.undoInPlace
    modify fun session => { session with chain := entry.before.raiseCounter session.counter }
    return .moved entry.description
  | .redo => do
    let entry ← onHistory History.redoInPlace
    modify fun session => { session with chain := entry.after.raiseCounter session.counter }
    return .moved entry.description
  | .source => do
    let session ← get
    return .source (← onCache (SourceCache.fetchInPlace session.generator session.model))

variable (session : Session)

lemma on_commitInPlace (description : String) (next : Chain) :
    (commitInPlace description next).on session = (.ok ⟨⟩, session.commit description next) := by
  simp only [commitInPlace, onHistory, InPlace.on_bind, InPlace.on_modify, InPlace.on_get,
    InPlace.on_part, History.on_recordInPlace]
  rfl

lemma on_editInPlace (edit : Edit) : (editInPlace edit).on session =
    settled session ((session.edit edit).map fun after => (⟨⟩, after)) := by
  simp only [editInPlace, InPlace.on_bind, InPlace.on_get, InPlace.on_liftM, Session.edit]
  cases session.chain.apply edit with
  | error e => rfl
  | ok next => exact session.on_commitInPlace _ next

/-- An edit with a reply that is fixed before. -/
lemma on_editInPlace_reply (edit : Edit) (reply : Reply) :
    (editInPlace edit >>= fun _ => pure reply : InPlace Session Reply).on session =
      settled session ((session.edit edit).map fun after => (reply, after)) := by
  rw [InPlace.on_bind, on_editInPlace]
  cases session.edit edit with
  | error e => rfl
  | ok after => rfl

lemma on_appendInPlace (kind : Kind) :
    (appendInPlace kind).on session = settled session (session.append kind) := by
  rw [appendInPlace, InPlace.on_bind, InPlace.on_get]
  exact session.on_editInPlace_reply (.append kind) _

/-- Carrying out a call in place comes to what `Session.run` gives, and leaves the session as it was if
the call fails. -/
theorem on_inPlace (call : Call) :
    (inPlace call).on session = settled session (session.run call) := by
  cases call with
  | append kind => exact session.on_appendInPlace kind
  | appendNamed name =>
    simp only [inPlace, InPlace.on_bind, InPlace.on_liftM, run]
    cases Kind.ofName name with
    | error e => rfl
    | ok kind => exact session.on_appendInPlace kind
  | update id patch =>
    rw [inPlace, InPlace.on_bind, InPlace.on_get]
    exact session.on_editInPlace_reply (.update session.strict id patch) .done
  | remove id => exact session.on_editInPlace_reply (.remove id) .done
  | setInputDimension n => exact session.on_editInPlace_reply (.setInputDimension n) .done
  | place id placement => exact session.on_editInPlace_reply (.place id placement) .done
  | repropagate => exact session.on_editInPlace_reply .repropagate .done
  | undo =>
    simp only [inPlace, onHistory, InPlace.on_bind, InPlace.on_part, History.on_undoInPlace, run]
    cases session.history.undo with
    | error e => rfl
    | ok found => rfl
  | redo =>
    simp only [inPlace, onHistory, InPlace.on_bind, InPlace.on_part, History.on_redoInPlace, run]
    cases session.history.redo with
    | error e => rfl
    | ok found => rfl
  | source =>
    simp only [inPlace, onCache, InPlace.on_bind, InPlace.on_get, InPlace.on_part,
      SourceCache.on_fetchInPlace, run]
    cases session.cache.fetch session.generator session.model with
    | error e => rfl
    | ok found => rfl

/-- A call in place answers like `Session.run` and leaves the session after the call. -/
lemma on_inPlace_eq (call : Call) :
    (inPlace call).on session = ((session.run call).map Prod.fst, session.step call) := by
  rw [on_inPlace, step]
  cases session.run call with
  | error e => rfl
  | ok found => rfl

/-- The session that calls in place leave, one after the other. -/
def leftBy (session : Session) (calls : List Call) : Session :=
  calls.foldl (fun s call => ((inPlace call).on s).2) session

theorem leftBy_eq_after (calls : List Call) : session.leftBy calls = session.after calls := by
  have hstep : (fun (s : Session) call => ((inPlace call).on s).2) = step :=
    funext₂ fun s call => by rw [on_inPlace_eq]
  rw [leftBy, hstep, after]

end Session

end LayerChain
