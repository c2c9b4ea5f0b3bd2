import LayerChain.Chain.Edit
import LayerChain.Config

/-!
# Sessions

A session holds a chain that is being edited, what can be undone and redone, and remembered
sources. What a front end may ask of it is a `Session.Call`; `Session.run` gives the reply and the
session after the call, or an error, and then the session is as before.

Ids are never used again, not even after an edit was undone: the session keeps the greatest counter
that any of its chains has reached, and every chain that it restores starts from there.
-/

namespace LayerChain

/-- A chain that is being edited. -/
structure Session where
  chain : Chain
  history : History
  cache : SourceCache
  generator : Generator
  /-- Whether updates take declared settings only. -/
  strict : Bool
  /-- The greatest id counter so far. -/
  counter : Nat

/-- What can be asked of a session. -/
inductive Session.Call where
  | append (kind : Kind)
  | appendNamed (name : String)
  | update (id : Nat) (patch : Settings)
  | remove (id : Nat)
  | setInputDimension (inputDimension : UInt64)
  | place (id : Nat) (placement : Json)
  | repropagate
  | undo
  | redo
  | source

/-- What a session replies to a call. -/
inductive Session.Reply where
  | done
  /-- The id of a new layer. -/
  | appended (id : Nat)
  /-- The description of the edit that was undone or redone. -/
  | moved (description : String)
  | source (text : String)
deriving DecidableEq, Repr

namespace Session

/-! ## Starting -/

/-- A session on a chain. -/
def ofChain (chain : Chain) (config : Config) : Session where
  chain := chain
  history := History.new config.maxUndoLevels
  cache := SourceCache.bounded config.sourceCacheEntries
  generator := ⟨config.className⟩
  strict := config.strictSettings
  counter := chain.nextId

/-- A session on an empty chain. -/
def new (config : Config) : Session := ofChain (Chain.new config.inputDimension) config

/-- What the chain of a session says about a network. -/
def model (session : Session) : Model := Model.ofChain session.chain

/-! ## Edits -/

/-- How the history describes an edit of a chain. -/
def describe (chain : Chain) : Edit → String
  | .append kind =>
    "Append " ++ kind.name ++ " (layer " ++ toString chain.nextId ++ ")"
  | .update _ id patch =>
    "Update layer " ++ toString id ++ " (" ++ ", ".intercalate patch.keys ++ ")"
  | .remove id => "Remove layer " ++ toString id
  | .setInputDimension n => "Set input dimension to " ++ toString n.toNat
  | .place id _ => "Move layer " ++ toString id
  | .repropagate => "Repropagate dimensions"

/-- Takes up the chain after an edit. -/
def commit (session : Session) (description : String) (next : Chain) : Session :=
  { session with
    chain := next
    history := session.history.record ⟨description, session.chain, next⟩
    counter := max session.counter next.nextId }

/-- Carries out an edit. -/
def edit (session : Session) (edit : Edit) : Except Error Session := do
  let next ← session.chain.apply edit
  return session.commit (describe session.chain edit) next

/-- The edit that a call asks for, if it asks for one. -/
def editOf (session : Session) : Call → Option Edit
  | .append kind => some (.append kind)
  | .appendNamed name => (Kind.ofName? name).map .append
  | .update id patch => some (.update session.strict id patch)
  | .remove id => some (.remove id)
  | .setInputDimension n => some (.setInputDimension n)
  | .place id placement => some (.place id placement)
  | .repropagate => some .repropagate
  | .undo | .redo | .source => none

/-! ## Calls -/

/-- The session with a chain of its history restored. -/
def restore (session : Session) (chain : Chain) (history : History) : Session :=
  { session with chain := chain.raiseCounter session.counter, history }

/-- Appends a layer of a kind: its id, and the session after. -/
def append (session : Session) (kind : Kind) : Except Error (Reply × Session) :=
  (session.edit (.append kind)).map fun s => (.appended session.chain.nextId, s)

/-- Carries out a call. -/
def run (session : Session) : Call → Except Error (Reply × Session)
  | .append kind => session.append kind
  | .appendNamed name => do session.append (← Kind.ofName name)
  | .update id patch => (session.edit (.update session.strict id patch)).map (.done, ·)
  | .remove id => (session.edit (.remove id)).map (.done, ·)
  | .setInputDimension n => (session.edit (.setInputDimension n)).map (.done, ·)
  | .place id placement => (session.edit (.place id placement)).map (.done, ·)
  | .repropagate => (session.edit .repropagate).map (.done, ·)
  | .undo => do
    let (entry, history) ← session.history.undo
    -- the old chain comes back, but with the counter of all chains so far
    return (.moved entry.description, session.restore entry.before history)
  | .redo => do
    let (entry, history) ← session.history.redo
    return (.moved entry.description, session.restore entry.after history)
  | .source => do
    let (text, cache) ← session.cache.fetch session.generator session.model
    return (.source text, { session with cache })

/-- The session after a call. A call that fails changes nothing. -/
def step (session : Session) (call : Call) : Session :=
  match session.run call with
  | .ok (_, after) => after
  | .error _ => session

/-- What a call reports. -/
def notes (session : Session) (call : Call) : List Note :=
  match session.editOf call with
  | some edit =>
    match session.chain.apply edit with
    | .ok _ => session.chain.editNotes edit ++
        [.debug ("Commit: " ++ describe session.chain edit)]
    | .error _ => []
  | none =>
    match call, session.run call with
    | .undo, .ok (.moved description, _) => [.info ("Undone: " ++ description)]
    | .redo, .ok (.moved description, _) => [.info ("Redone: " ++ description)]
    | .source, _ => session.cache.fetchNotes session.generator session.model
    | _, _ => []

end Session

end LayerChain
