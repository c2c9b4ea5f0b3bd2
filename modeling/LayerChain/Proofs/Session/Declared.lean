import LayerChain.Proofs.Session.Identity
import LayerChain.Proofs.Source.Arguments

/-!
# Declared settings

The settings of a chain keep the shape that the catalog gives them, whatever edits and patches come,
and so every declaration in its source has all arguments (`settings_keep_shape`). In a strict
session every edit is strict, and restored chains are chains that the session held before, so what
strict edits keep holds of all chains that it ever holds (`Session.forall_snapshots_of_strict`).
-/

namespace LayerChain

namespace Session

variable {session : Session}

/-- A strict session asks for strict edits only. -/
lemma isStrict_of_editOf (hs : session.strict = true) {call : Call} {edit : Edit}
    (h : session.editOf call = some edit) : edit.isStrict = true := by
  cases call with
  | appendNamed name =>
    obtain ⟨kind, -, rfl⟩ := Option.map_eq_some_iff.1 h
    rfl
  | update id patch =>
    cases h
    exact hs
  | undo => cases h
  | redo => cases h
  | source => cases h
  | _ =>
    cases h
    rfl

/-- No call changes whether a session is strict. -/
lemma strict_step (session : Session) (call : Call) :
    (session.step call).strict = session.strict := by
  generalize session.step call = after, session.issuedBy call = issued,
    effect_step session call = effect
  cases effect with
  | edited success asked => rfl
  | restored mem subset => rfl
  | kept cache => rfl

variable {P : Chain → Prop}

/-- What strict edits keep, and what does not hang on the counter, a call of a strict session keeps
for all chains that the session holds. -/
lemma forall_held_step
    (hedit : ∀ {chain next : Chain} {edit : Edit}, P chain → edit.isStrict = true →
      chain.apply edit = .ok next → P next)
    (hraise : ∀ {chain : Chain} (counter : Nat), P chain → P (chain.raiseCounter counter))
    (hs : session.strict = true) (h : ∀ chain ∈ session.held, P chain) (call : Call) :
    ∀ chain ∈ (session.step call).held, P chain := by
  intro chain hc
  generalize session.step call = after, session.issuedBy call = issued,
    effect_step session call = effect at hc
  cases effect with
  | @edited edit next success asked =>
    obtain ⟨asking, hasked⟩ := asked
    have hnext := hedit (h _ List.mem_cons_self) (isStrict_of_editOf hs hasked) success
    rcases List.mem_cons.1 (held_commit session _ next hc) with rfl | hc
    · exact hnext
    · exact h chain hc
  | @restored restored history mem subset =>
    -- undoing and redoing only raise the counter of a chain that was held
    rcases List.mem_cons.1 hc with rfl | hc
    · exact hraise _ (h restored (List.mem_cons_of_mem _ mem))
    · exact h chain (List.mem_cons_of_mem _ (subset hc))
  | kept cache => exact h chain hc

/-- What strict edits keep, and what does not hang on the counter, holds of all chains that a strict
session ever holds, if it holds of those it starts with. -/
theorem forall_snapshots_of_strict
    (hedit : ∀ {chain next : Chain} {edit : Edit}, P chain → edit.isStrict = true →
      chain.apply edit = .ok next → P next)
    (hraise : ∀ {chain : Chain} (counter : Nat), P chain → P (chain.raiseCounter counter))
    (hs : session.strict = true) (h : ∀ chain ∈ session.held, P chain) (calls : List Call) :
    ∀ chain ∈ session.snapshots calls, P chain := by
  induction calls generalizing session with
  | nil => exact h
  | cons call calls ih =>
    have hstep := forall_held_step hedit hraise hs h call
    exact List.forall_mem_append.2 ⟨h, ih ((strict_step session call).trans hs) hstep⟩

end Session

/-- A new chain has no layers, and no logs beside them. -/
lemma Chain.keyed_new (inputDimension : UInt64) (edits : List Edit) :
    List.Forall₂ Layer.Keyed ((new inputDimension).edited edits).layers
      ((new inputDimension).logsEdited [] edits) := keyed_edited .nil edits

lemma Chain.onlyDeclared_new (inputDimension : UInt64) : (new inputDimension).OnlyDeclared := by
  intro layer hl
  cases hl

/-- Settings keep the shape of the catalog. However a new chain was edited: the keys of a layer are
those that its kind declares, in canonical order, and then the undeclared ones in the order in which
they were first set; after strict edits there are no others than the declared ones. So in the
source of the chain every layer is declared with each argument of its constructor once. And in a
strict session that starts with a new chain, no chain that it ever holds, also to be undone or
redone, has an undeclared key. -/
theorem settings_keep_shape (inputDimension : UInt64) :
    (∀ edits : List Edit,
      List.Forall₂ (fun layer log => layer.settings.keys.Nodup ∧
          layer.settings.keys = layer.descriptor.fieldNames ++
            (log.filter fun key => !layer.descriptor.declares key).eraseDups)
        ((Chain.new inputDimension).edited edits).layers
        ((Chain.new inputDimension).logsEdited [] edits)) ∧
    (∀ edits : List Edit, (∀ edit ∈ edits, edit.isStrict = true) →
      ∀ layer ∈ ((Chain.new inputDimension).edited edits).layers,
        layer.settings.keys = layer.descriptor.fieldNames) ∧
    (∀ (edits : List Edit) (generator : Generator) (source : String),
      generator.generate (Model.ofChain ((Chain.new inputDimension).edited edits)) = .ok source →
      ∃ cs, source = textOfLines (writtenLines generator.className cs) ∧
        ((Chain.new inputDimension).edited edits).DeclaredBy cs) ∧
    ∀ (config : Config) (calls : List Session.Call), config.strictSettings = true →
      ∀ chain ∈ (Session.ofChain (Chain.new inputDimension) config).snapshots calls,
        ∀ layer ∈ chain.layers, ∀ key ∈ layer.settings.keys,
          layer.descriptor.declares key = true := by
  refine ⟨fun edits => ?_, fun edits hstrict layer hl => ?_, fun edits generator source h => ?_,
    fun config calls hs chain hc layer hl key hkey => ?_⟩
  · exact (Chain.keyed_new inputDimension edits).imp fun _ _ h => ⟨Settings.nodup _, h.keys_eq⟩
  · have honly := (Chain.onlyDeclared_new inputDimension).edited hstrict
    exact Layer.keyed_nil_iff.1 (honly layer hl)
  · rw [Generator.generate_eq] at h
    obtain ⟨cs, hcs, rfl⟩ := map_eq_ok.1 h
    refine ⟨cs, rfl, Chain.declaredBy_components (fun layer hl => ?_) hcs⟩
    obtain ⟨log, -, hlog⟩ := exists_of_forall₂_of_mem (Chain.keyed_new inputDimension edits) hl
    exact ⟨log, hlog⟩
  · have hstart : ∀ chain ∈ (Session.ofChain (Chain.new inputDimension) config).held,
        chain.OnlyDeclared :=
      List.forall_mem_singleton.2 (Chain.onlyDeclared_new inputDimension)
    have honly := Session.forall_snapshots_of_strict
      (fun h hstrict ha => Chain.OnlyDeclared.apply h hstrict ha) (fun _ h => h) hs hstart calls
      chain hc layer hl
    rw [Layer.keyed_nil_iff.1 honly] at hkey
    exact Descriptor.declares_iff.2 hkey

/-- Two undeclared keys stand behind the declared ones in the order in which they were first set,
and a strict session refuses them. -/
theorem settings_keep_shape_on_dropout :
    let notes := Settings.ofList [("note", .bool true), ("p", .auto), ("label", .bool true)]
    let edits := [.append .dropout, .update false 1 notes,
      .update false 1 (Settings.ofList [("label", .auto), ("note", .auto)])]
    let config : Config := { strictSettings := true }
    let calls := [.append .dropout, .update 1 notes, .undo]
    (∃ layer, ((Chain.new 784).edited edits).layers = [layer] ∧
      layer.settings.keys = ["p", "inplace", "note", "label"]) ∧
    (∃ layer, ((Chain.new 784).edited [.append .dropout]).layers = [layer] ∧
      layer.settings.keys = ["p", "inplace"]) ∧
    (∃ source, (default : Generator).generate (Model.ofChain ((Chain.new 784).edited edits)) =
        .ok source ∧ ∃ cs, source = textOfLines (writtenLines defaultClassName cs) ∧
          ((Chain.new 784).edited edits).DeclaredBy cs) ∧
    ∀ chain ∈ (Session.ofChain (Chain.new 784) config).snapshots calls,
      ∀ layer ∈ chain.layers, ∀ key ∈ layer.settings.keys,
        layer.descriptor.declares key = true := by
  intro notes edits config calls
  obtain ⟨hkeys, hstrict, hsource, hsession⟩ := settings_keep_shape 784
  refine ⟨?_, ?_, ?_, hsession config calls rfl⟩
  · obtain ⟨layer, hlayer, hkind⟩ : ∃ layer, ((Chain.new 784).edited edits).layers = [layer] ∧
        layer.kind = .dropout := ⟨_, rfl, rfl⟩
    have hlogs : (Chain.new 784).logsEdited [] edits =
        [["note", "p", "label", "label", "note"]] := by decide +kernel
    have hshape := hkeys edits
    rw [hlayer, hlogs] at hshape
    obtain ⟨⟨-, hlog⟩, -⟩ := List.forall₂_cons.1 hshape
    rw [Layer.descriptor, hkind] at hlog
    exact ⟨layer, hlayer, hlog.trans (by decide)⟩
  · have hdropout : ∀ edit ∈ [Edit.append .dropout], edit.isStrict = true := by simp [Edit.isStrict]
    have hlast := hstrict [.append .dropout] hdropout ((Chain.new 784).newLayer .dropout)
      List.mem_cons_self
    exact ⟨_, rfl, hlast⟩
  · obtain ⟨source, h⟩ : ∃ source, (default : Generator).generate
        (Model.ofChain ((Chain.new 784).edited edits)) = .ok source := ⟨_, rfl⟩
    exact ⟨source, h, hsource edits default source h⟩

end LayerChain
