import LayerChain.Proofs.Chain.Designs
import LayerChain.Proofs.Chain.Targets

/-!
# Edits of different layers commute

What remains of a layer after an edit is decided by this layer alone, so edits that are about layers
of different ids can be made in either order (`Chain.apply_comm`), and so can such an edit and a
change of the feature count (`Chain.apply_setInputDimension_comm`). In a numbered chain the layer
that an edit is about is the only one of its id, and everything else stays (`Chain.OnlyChanges`).
-/

namespace LayerChain

namespace Chain

/-- A chain comes from another one by a change of the only layer of an id: that layer keeps its id and
kind or is taken out, and all other layers, their order, the counter and the feature count stay. -/
structure OnlyChanges (chain : Chain) (id : Nat) (next : Chain) : Prop where
  inputDimension : next.inputDimension = chain.inputDimension
  nextId : next.nextId = chain.nextId
  layers : ∃ before layer behind, chain.layers = before ++ layer :: behind ∧ layer.id = id ∧
    (∀ l ∈ before ++ behind, l.id ≠ id) ∧
    ∃ left : Option Layer, next.layers = before ++ (left.toList ++ behind) ∧
      ∀ l ∈ left, l.id = id ∧ l.kind = layer.kind

variable {chain next : Chain} {e f : Edit} {a b : Nat}

/-- Two edits of different layers leave what each of them leaves of its layer. -/
lemma apply_bind_apply (he : e.target? = some a) (hf : f.target? = some b) (hab : a ≠ b) :
    (chain.apply e >>= fun next => next.apply f) = (do
      let x ← chain.left e a
      let y ← chain.left f b
      return (chain.withLeft a x).withLeft b y) := by
  rw [apply_of_target he]
  cases hx : chain.left e a with
  | error error => rfl
  | ok x =>
    show (chain.withLeft a x).apply f = _
    rw [apply_of_target hf, left_withLeft_of_ne hab (id_of_left hx)]
    rfl

/-- Edits of different layers give the same chain in either order, or fail in either order. -/
theorem apply_comm (he : e.target? = some a) (hf : f.target? = some b) (hab : a ≠ b) :
    (chain.apply e >>= fun next => next.apply f).toOption =
      (chain.apply f >>= fun next => next.apply e).toOption := by
  rw [apply_bind_apply he hf hab, apply_bind_apply hf he hab.symm]
  cases hx : chain.left e a with
  | error error => cases chain.left f b <;> rfl
  | ok x =>
    cases hy : chain.left f b with
    | error error => rfl
    | ok y =>
      have hlayers := replace_comm hab (id_of_left hx) (id_of_left hy) chain.layers
      exact congrArg (fun ls => some { chain with layers := ls }) hlayers

/-- An edit of a layer and a change of the feature count give the same chain in either order, or the
same error. -/
theorem apply_setInputDimension_comm (he : e.target? = some a) (n : UInt64) :
    (chain.apply e >>= fun next => next.apply (.setInputDimension n)) =
      (chain.apply (.setInputDimension n) >>= fun next => next.apply e) := by
  show _ = (chain.setInputDimension n).apply e
  have hleft : (chain.setInputDimension n).left e a = chain.left e a := rfl
  rw [apply_of_target he, apply_of_target he, hleft]
  cases chain.left e a <;> rfl

/-- An edit of the only layer of an id changes nothing else. -/
theorem onlyChanges_of_apply (h : chain.Numbered) (he : e.target? = some a)
    (ha : chain.apply e = .ok next) : chain.OnlyChanges a next := by
  rw [apply_of_target he] at ha
  obtain ⟨x, hx, rfl⟩ := map_eq_ok.1 ha
  obtain ⟨layer, hfind, hremains⟩ := left_eq_ok.1 hx
  obtain ⟨hlayer, before, behind, hlayers, -⟩ := split_of_find hfind
  have hothers : ∀ l ∈ before ++ behind, l.id ≠ a := by
    have hnodup := h.nodup
    rw [ids, hlayers, List.map_append, List.map_cons, List.nodup_middle, List.nodup_cons,
      ← List.map_append, hlayer] at hnodup
    exact fun l hl hid => hnodup.1 (List.mem_map.2 ⟨l, hl, hid⟩)
  refine ⟨rfl, rfl, before, layer, behind, hlayers, hlayer, hothers, x, ?_, ?_⟩
  · rw [withLeft, hlayers]
    exact replace_append (fun l hl => hothers l (List.mem_append_left _ hl)) hlayer x
  · intro l hl
    rw [Option.mem_def] at hl
    subst hl
    obtain ⟨hid, hkind⟩ := Edit.remains_eq_ok hremains
    exact ⟨hid.trans hlayer, hkind⟩

/-- Edits of different layers commute. In a chain that any edits made of a new or a read one, unless
so many layers were appended that the counter could come to its end, two edits that are about layers
of different ids give the same chain in either order, or fail in either order. Such an edit and a
change of the feature count give the same chain or the same error in either order. Neither touches
anything else: an edit of a layer leaves all other layers, their order, the counter and the feature
count as they are, and a change of the feature count all layers and the counter. -/
theorem edits_of_layers_commute {start : Chain} (initial : start.Initial) {edits : List Edit}
    (few : appends edits < 2 ^ 64 - 2 ^ 53) :
    let chain := start.edited edits
    (∀ e a, e.target? = some a →
      (∀ f b, f.target? = some b → a ≠ b →
        (chain.apply e >>= fun next => next.apply f).toOption =
          (chain.apply f >>= fun next => next.apply e).toOption) ∧
      (∀ n, (chain.apply e >>= fun next => next.apply (.setInputDimension n)) =
        (chain.apply (.setInputDimension n) >>= fun next => next.apply e)) ∧
      ∀ next, chain.apply e = .ok next → chain.OnlyChanges a next) ∧
    ∀ n, chain.apply (.setInputDimension n) = .ok { chain with inputDimension := n } := by
  intro chain
  have hroom : appends edits + 0 < 2 ^ 64 - 2 ^ 53 := few
  have hnumbered : chain.Numbered :=
    (initial.counted.edited edits).numbered (initial.room hroom)
  refine ⟨fun e a he => ⟨?_, ?_, ?_⟩, fun n => rfl⟩
  · exact fun f b hf hab => apply_comm he hf hab
  · exact fun n => apply_setInputDimension_comm he n
  · exact fun next hnext => onlyChanges_of_apply hnumbered he hnext

/-- Of three layers, the first is removed, and the last, which thereby moves up, gets a strict
update. -/
theorem edits_of_layers_commute_on_removal :
    let edits : List Edit := [.append .dense, .append .dropout, .append .dropout]
    let chain := (new 784).edited edits
    let update : Edit := .update true 3 (Settings.ofList [("p", Catalog.real 25 (-2))])
    (new 784).Initial ∧ appends edits < 2 ^ 64 - 2 ^ 53 ∧
    (chain.apply (.remove 1) >>= fun next => next.apply update).toOption.isSome = true ∧
    (chain.apply (.remove 1) >>= fun next => next.apply update).toOption =
      (chain.apply update >>= fun next => next.apply (.remove 1)).toOption ∧
    ∃ next, chain.apply update = .ok next ∧ chain.OnlyChanges 3 next := by
  intro edits chain update
  have hfew : appends edits < 2 ^ 64 - 2 ^ 53 := by decide
  obtain ⟨hedits, -⟩ := edits_of_layers_commute (.new 784) hfew
  obtain ⟨hcomm, -, -⟩ := hedits (.remove 1) 1 rfl
  obtain ⟨-, -, hchanges⟩ := hedits update 3 rfl
  obtain ⟨next, hnext⟩ : ∃ next, chain.apply update = .ok next := ⟨_, rfl⟩
  exact ⟨.new 784, hfew, by decide +kernel, hcomm update 3 rfl (by decide), next, hnext,
    hchanges next hnext⟩

end Chain

end LayerChain
