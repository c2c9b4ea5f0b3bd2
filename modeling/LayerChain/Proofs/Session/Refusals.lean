import LayerChain.Proofs.Chain.Keys
import LayerChain.Proofs.Chain.Targets
import LayerChain.Proofs.Session.InPlace
import LayerChain.Proofs.Session.Sourcing
import LayerChain.Proofs.Source.Resemblance

/-!
# Calls that fail

A session refuses a call for one of a few causes (`Session.Refuses`), each of which can be seen from
the call and from what the session holds. A call fails exactly if there is such a cause, with the
error that names it (`Session.run_eq_error_iff`), and it leaves the session as it was
(`calls_fail_atomically`).

Whether the source of a session can be generated shows in its chain. A session that remembers sources
does not look, though, if it finds one; what it finds was generated from the same text, as far as the
digests of texts differ.
-/

namespace LayerChain

/-! ## Edits that fail -/

namespace Layer

/-- A key of a patch is the first one that the layer's kind does not declare. -/
structure FirstUndeclared (layer : Layer) (patch : Settings) (key : String) : Prop where
  exists_split : ∃ before behind, patch.keys = before ++ key :: behind ∧
    ∀ k ∈ before, k ∈ layer.descriptor.fieldNames
  undeclared : key ∉ layer.descriptor.fieldNames

lemma refusedKey?_eq_some_iff {layer : Layer} {strict : Bool} {patch : Settings} {key : String} :
    layer.refusedKey? strict patch = some key ↔
      strict = true ∧ layer.FirstUndeclared patch key := by
  cases strict with
  | false => simp [refusedKey?]
  | true =>
    have hdeclares : ∀ k, (!layer.descriptor.declares k) = true ↔
        k ∉ layer.descriptor.fieldNames := by
      intro k
      rw [← Descriptor.declares_iff, Bool.not_eq_true', Bool.not_eq_true]
    rw [refusedKey?, if_pos rfl, List.find?_eq_some_iff_append]
    simp only [Bool.not_not, Descriptor.declares_iff, hdeclares]
    constructor
    · rintro ⟨hkey, hsplit⟩
      exact ⟨trivial, hsplit, hkey⟩
    · rintro ⟨-, hsplit, hkey⟩
      exact ⟨hkey, hsplit⟩

end Layer

namespace Chain

variable {chain : Chain} {edit : Edit} {id : Nat} {e : Error}

/-- An edit of a layer fails if the layer is missing, or if nothing can remain of it. -/
lemma apply_eq_error_iff (h : edit.target? = some id) : chain.apply edit = .error e ↔
    (id ∉ chain.ids ∧ e = .layerNotFound id) ∨
      ∃ layer, chain.find id = .ok layer ∧ edit.remains layer = .error e := by
  rw [apply_of_target h, map_eq_error, left, bind_eq_error, find_eq_error_iff]

/-- An update fails if the layer is missing, or if it is strict and some key is not declared. -/
lemma apply_update_eq_error_iff {strict : Bool} {patch : Settings} :
    chain.apply (.update strict id patch) = .error e ↔
      (id ∉ chain.ids ∧ e = .layerNotFound id) ∨
        ∃ layer key, strict = true ∧ chain.get? id = some layer ∧
          layer.FirstUndeclared patch key ∧ e = .unknownSetting key layer.kind.name := by
  have htarget : (Edit.update strict id patch).target? = some id := rfl
  simp only [apply_eq_error_iff htarget, Edit.remains_update_eq_error_iff,
    Layer.refusedKey?_eq_some_iff]
  refine or_congr_right ⟨?_, ?_⟩
  · rintro ⟨layer, hfind, key, ⟨hstrict, hfirst⟩, he⟩
    exact ⟨layer, key, hstrict, find_eq_ok.1 hfind, hfirst, he⟩
  · rintro ⟨layer, key, hstrict, hfound, hfirst, he⟩
    exact ⟨layer, find_eq_ok.2 hfound, key, ⟨hstrict, hfirst⟩, he⟩

/-- An edit of which something can always remain fails only if the layer is missing. -/
lemma apply_eq_error_iff_missing (h : edit.target? = some id)
    (hremains : ∀ layer, ∃ left, edit.remains layer = .ok left) :
    chain.apply edit = .error e ↔ id ∉ chain.ids ∧ e = .layerNotFound id := by
  rw [apply_eq_error_iff h]
  refine or_iff_left ?_
  rintro ⟨layer, -, herror⟩
  obtain ⟨left, hleft⟩ := hremains layer
  cases hleft.symm.trans herror

end Chain

/-! ## Calls that fail -/

lemma Kind.ofName_eq_error_iff {name : String} {e : Error} :
    ofName name = .error e ↔ (∀ kind : Kind, kind.name ≠ name) ∧ e = .unknownKind name := by
  rw [ofName, ← ofName?_eq_none_iff]
  cases ofName? name with
  | none => simp [eq_comm]
  | some kind => simp

lemma History.undo_eq_error_iff {history : History} {e : Error} :
    history.undo = .error e ↔ history.undoable = [] ∧ e = .nothingToUndo := by
  rw [undo]
  cases history.undoable with
  | nil => simp [eq_comm]
  | cons entry rest => simp

lemma History.redo_eq_error_iff {history : History} {e : Error} :
    history.redo = .error e ↔ history.redoable = [] ∧ e = .nothingToRedo := by
  rw [redo]
  cases history.redoable with
  | nil => simp [eq_comm]
  | cons entry rest => simp

namespace Session

/-- A session has cause to refuse a call with an error. -/
def Refuses (session : Session) : Call → Error → Prop
  | .appendNamed name, e => (∀ kind : Kind, kind.name ≠ name) ∧ e = .unknownKind name
  | .update id patch, e =>
    (id ∉ session.chain.ids ∧ e = .layerNotFound id) ∨
      ∃ layer key, session.strict = true ∧ session.chain.get? id = some layer ∧
        layer.FirstUndeclared patch key ∧ e = .unknownSetting key layer.kind.name
  | .remove id, e | .place id _, e => id ∉ session.chain.ids ∧ e = .layerNotFound id
  | .undo, e => session.history.undoable = [] ∧ e = .nothingToUndo
  | .redo, e => session.history.redoable = [] ∧ e = .nothingToRedo
  | .source, e => session.generator.generate session.model = .error e
  | .append _, _ | .setInputDimension _, _ | .repropagate, _ => False

variable {session : Session} {e : Error}

/-- A call that carries out an edit fails if the edit does. -/
lemma edit_eq_error_iff {α : Type} (edit : Edit) (f : Session → α) :
    (session.edit edit).map f = .error e ↔ session.chain.apply edit = .error e := by
  rw [map_eq_error, Session.edit, bind_eq_error]
  exact or_iff_left (by rintro ⟨next, -, ⟨⟩⟩)

/-- A call fails iff the session refuses it, if looks at the source fail where generating does. -/
theorem run_eq_error_iff (call : Call)
    (hsource : call = .source → (session.cache.fetch session.generator session.model = .error e ↔
      session.generator.generate session.model = .error e)) :
    session.run call = .error e ↔ session.Refuses call e := by
  cases call with
  | append kind => exact iff_of_false nofun id
  | setInputDimension n => exact iff_of_false nofun id
  | repropagate => exact iff_of_false nofun id
  | appendNamed name =>
    rw [run, bind_eq_error, Kind.ofName_eq_error_iff]
    exact or_iff_left (by rintro ⟨kind, -, ⟨⟩⟩)
  | update id patch => rw [run, edit_eq_error_iff, Chain.apply_update_eq_error_iff, Refuses]
  | remove id =>
    rw [run, edit_eq_error_iff]
    exact Chain.apply_eq_error_iff_missing rfl fun _ => ⟨_, rfl⟩
  | place id placement =>
    rw [run, edit_eq_error_iff]
    exact Chain.apply_eq_error_iff_missing rfl fun _ => ⟨_, rfl⟩
  | undo =>
    rw [run, bind_eq_error, History.undo_eq_error_iff]
    exact or_iff_left (by rintro ⟨_, -, ⟨⟩⟩)
  | redo =>
    rw [run, bind_eq_error, History.redo_eq_error_iff]
    exact or_iff_left (by rintro ⟨_, -, ⟨⟩⟩)
  | source =>
    rw [run, bind_eq_error, hsource rfl]
    exact or_iff_left (by rintro ⟨_, -, ⟨⟩⟩)

/-- After any calls, a look at the source fails iff generating does, if no digests collide. -/
lemma fetch_eq_error_iff_after (chain : Chain) (config : Config) (calls : List Call)
    (hdigests : DigestsDiffer ((ofChain chain config).sourced (calls ++ [.source]))) :
    let session := (ofChain chain config).after calls
    session.cache.fetch session.generator session.model = .error e ↔
      session.generator.generate session.model = .error e := by
  intro session
  rw [sourced_append] at hdigests
  have hstart : SourceCache.Sound
      ((ofChain chain config).sourced calls ++ session.sourced [.source])
      (ofChain chain config).cache := SourceCache.sound_bounded _ config.sourceCacheEntries
  have hsound := (sound_after hstart (List.subset_append_left _ _)).2
  exact hsound.fetch_eq_error_iff hdigests (List.mem_append_right _ List.mem_cons_self)

end Session

/-- Calls that fail are atomic, and they fail exactly when they should. Let a session on any chain
have carried out any calls, each of them piece by piece. Then a further call that fails leaves all of
the session as it was: the chain, both stacks of the history, the remembered sources with their order
and their counts, and the counter. And a call fails with an error iff the session refuses it with this
error. For a look at the source it is assumed that no digests of the texts that occur collide. -/
theorem calls_fail_atomically (chain : Chain) (config : Config) (calls : List Session.Call)
    (call : Session.Call) :
    let start := Session.ofChain chain config
    let session := start.leftBy calls
    session = start.after calls ∧
    (Session.inPlace call).on session = ((session.run call).map Prod.fst, session.step call) ∧
    (∀ e, ((Session.inPlace call).on session).1 = .error e →
      ((Session.inPlace call).on session).2 = session) ∧
    ((call = .source → DigestsDiffer (start.sourced (calls ++ [.source]))) →
      ∀ e, ((Session.inPlace call).on session).1 = .error e ↔ session.Refuses call e) := by
  intro start session
  have hafter : session = start.after calls := start.leftBy_eq_after calls
  refine ⟨hafter, session.on_inPlace_eq call, ?_, ?_⟩
  · intro e he
    rw [Session.on_inPlace] at he ⊢
    exact InPlace.settled_snd_of_error he
  · intro hdigests e
    rw [Session.on_inPlace_eq, map_eq_error]
    refine session.run_eq_error_iff call fun hc => ?_
    rw [hafter]
    exact Session.fetch_eq_error_iff_after chain config calls (hdigests hc)

/-- The model of a dense layer with an activation that is no identifier. -/
def hyphenDense : Model := ⟨4, [⟨"Dense", .ofList [("inFeatures", .int 4),
  ("outFeatures", .int 128), ("bias", .bool true), ("activation", .choice "Leaky-ReLU")]⟩]⟩

/-- The calls that make such a layer and ask for its source. -/
def hyphenCalls : List Session.Call := [
  .append .dense,
  .update 1 (.ofList [("activation", .choice "Leaky-ReLU")]),
  .source]

/-- In a strict session, the source of such a layer fails again, and so do an update with an undeclared
key behind a declared one, and a redo. -/
theorem calls_fail_atomically_on_hyphen :
    let start := Session.ofChain (Chain.new 4) { strictSettings := true }
    let session := start.leftBy hyphenCalls
    DigestsDiffer (start.sourced (hyphenCalls ++ [.source])) ∧
    (Session.inPlace .source).on session =
      (.error (.invalidActivation "Leaky-ReLU" 0), session) ∧
    (Session.inPlace (.update 1 (.ofList [("bias", .bool true), ("rate", .auto)]))).on session =
      (.error (.unknownSetting "rate" "Dense"), session) ∧
    (Session.inPlace .redo).on session = (.error .nothingToRedo, session) := by
  intro start session
  have hsourced : start.sourced (hyphenCalls ++ [.source]) = [hyphenDense, hyphenDense] := by
    decide +kernel
  have hdigests : DigestsDiffer (start.sourced (hyphenCalls ++ [.source])) := by
    rw [hsourced]
    intro m hm n hn _
    simp only [List.mem_cons, List.not_mem_nil, or_false, or_self] at hm hn
    rw [hm, hn]
  have hfails : ∀ call e, session.Refuses call e →
      (Session.inPlace call).on session = (.error e, session) := by
    intro call e hrefuses
    obtain ⟨-, -, hatomic, herror⟩ :=
      calls_fail_atomically (Chain.new 4) { strictSettings := true } hyphenCalls call
    have he := (herror (fun _ => hdigests) e).2 hrefuses
    exact Prod.ext he (hatomic e he)
  have hsession : session = start.after hyphenCalls := start.leftBy_eq_after hyphenCalls
  have hmodel : session.model = hyphenDense := by
    rw [hsession]
    decide +kernel
  have hlayer : (session.chain.get? 1).map Layer.kind = some .dense := by
    rw [hsession]
    decide +kernel
  have hstrict : session.strict = true := by
    rw [hsession]
    decide +kernel
  have hredo : session.history.redoable.isEmpty = true := by
    rw [hsession]
    decide +kernel
  obtain ⟨layer, hfound, hkind⟩ := Option.map_eq_some_iff.1 hlayer
  have hfirst : layer.FirstUndeclared (.ofList [("bias", .bool true), ("rate", .auto)]) "rate" := by
    refine ⟨⟨["bias"], [], by decide, ?_⟩, ?_⟩
    all_goals
      rw [Layer.descriptor, hkind]
      decide
  refine ⟨hdigests, hfails .source _ ?_, ?_,
    hfails .redo _ ⟨List.isEmpty_iff.1 hredo, rfl⟩⟩
  · rw [Session.Refuses, hmodel]
    rfl
  · refine hfails (.update 1 _) _ (.inr ⟨layer, "rate", hstrict, hfound, hfirst, ?_⟩)
    rw [hkind]
    rfl

end LayerChain
