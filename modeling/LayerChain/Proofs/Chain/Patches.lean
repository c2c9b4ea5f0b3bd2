import LayerChain.Proofs.Catalog.Merging
import LayerChain.Proofs.Chain.Targets

/-!
# Patches one after the other

Two updates of a layer are one update with the merged patch, with the same error if there is one
(`Chain.update_update`). The key that a strict update names is the first one that either patch should
not have, because a key of the second patch comes later unless the first patch has it, too
(`Layer.refusedKey?_merge`). So the entries of a patch can be set one at a time
(`Chain.foldlM_update`).
-/

namespace LayerChain

namespace Layer

lemma updated_updated (layer : Layer) (p q : Settings) :
    (layer.updated p).updated q = layer.updated (p.merge q) :=
  congrArg (fun s => { layer with settings := s }) (layer.settings.merge_assoc p q)

/-- A merged patch is refused for a key of the first part, or else for one of the second. -/
lemma refusedKey?_merge (layer : Layer) (strict : Bool) (p q : Settings) :
    layer.refusedKey? strict (p.merge q) =
      (layer.refusedKey? strict p).or (layer.refusedKey? strict q) := by
  cases strict with
  | false => rfl
  | true => exact Settings.find?_keys_merge _ p q

end Layer

namespace Chain

variable {chain : Chain} {strict : Bool} {id : Nat}

/-- The layer that replaces the one of its id is found. -/
lemma find_withLeft {layer new : Layer} (hfind : chain.find id = .ok layer) (hnew : new.id = id) :
    (chain.withLeft id (some new)).find id = .ok new := by
  obtain ⟨hlayer, before, behind, hsplit, hbefore⟩ := split_of_find hfind
  rw [find_eq_ok, withLeft, hsplit, replace_append hbefore hlayer]
  exact List.find?_eq_some_iff_append.2
    ⟨beq_iff_eq.2 hnew, before, behind, rfl, by simpa using hbefore⟩

/-- An update with one patch and then with another is the update with the merged patch. -/
theorem update_update (chain : Chain) (strict : Bool) (id : Nat) (p q : Settings) :
    (chain.apply (.update strict id p) >>= fun c => c.apply (.update strict id q)) =
      chain.apply (.update strict id (p.merge q)) := by
  cases hfind : chain.find id with
  | error e => rw [apply_of_find_error rfl hfind, apply_of_find_error rfl hfind]; rfl
  | ok layer =>
    have hid : layer.id = id := (split_of_find hfind).1
    rw [apply_of_find rfl hfind, apply_of_find rfl hfind, Edit.remains, Edit.remains,
      layer.refusedKey?_merge]
    cases layer.refusedKey? strict p with
    | some key => rfl
    | none =>
      -- the second update finds the layer with the first patch, which is of the same kind
      have hnext : (chain.withLeft id (some (layer.updated p))).find id = .ok (layer.updated p) :=
        find_withLeft hfind hid
      have hrefused : (layer.updated p).refusedKey? strict q = layer.refusedKey? strict q := rfl
      show (chain.withLeft id (some (layer.updated p))).apply (.update strict id q) = _
      rw [apply_of_find rfl hnext, Edit.remains, hrefused, Option.none_or]
      cases layer.refusedKey? strict q with
      | some key => rfl
      | none =>
        have hpatched : (layer.updated p).id = id := hid
        have hreplace : replace id (some ((layer.updated p).updated q))
            (replace id (some (layer.updated p)) chain.layers) =
              replace id (some (layer.updated (p.merge q))) chain.layers := by
          rw [layer.updated_updated]
          exact replace_replace hpatched _ chain.layers
        exact congrArg (fun ls => Except.ok { chain with layers := ls }) hreplace

/-- A strict update with a merged patch names the first undeclared key, first in the one part and
then in the other. -/
theorem updateStrict_merge_eq_error_iff {layer : Layer} (hfind : chain.find id = .ok layer)
    {p q : Settings} {e : Error} : chain.updateStrict id (p.merge q) = .error e ↔
      ∃ key, (p.keys ++ q.keys).find? (fun key => !layer.descriptor.declares key) = some key ∧
        e = .unknownSetting key layer.kind.name := by
  have hrefused : layer.refusedKey? true (p.merge q) =
      (p.keys ++ q.keys).find? fun key => !layer.descriptor.declares key := by
    rw [List.find?_append]
    exact layer.refusedKey?_merge true p q
  show chain.apply (.update true id (p.merge q)) = .error e ↔ _
  rw [apply_of_find rfl hfind, map_eq_error, Edit.remains_update_eq_error_iff, hrefused]

/-- Without entries nothing is set. -/
lemma update_nil (h : id ∈ chain.ids) (strict : Bool) :
    chain.apply (.update strict id (Settings.ofList [])) = .ok chain := by
  obtain ⟨layer, hfind⟩ := exists_find_iff.2 h
  have hrefused : layer.refusedKey? strict (Settings.ofList []) = none := by
    cases strict <;> rfl
  have hsame : replace id (some (layer.updated (Settings.ofList []))) chain.layers =
      chain.layers := by
    -- every layer is what it is after an update without entries
    rw [← modify_eq_replace (find_eq_ok.1 hfind), ← List.map_id (modify _ _ _), map_modify id,
      List.map_id]
    exact fun _ => rfl
  rw [apply_of_find rfl hfind, Edit.remains, hrefused]
  exact congrArg (fun ls => Except.ok { chain with layers := ls }) hsame

/-- The entries of a patch can be set one at a time. -/
theorem foldlM_update {entries : List (String × SettingValue)} (h : entries ≠ []) :
    entries.foldlM (fun c e => c.apply (.update strict id (Settings.ofList [e]))) chain =
      chain.apply (.update strict id (Settings.ofList entries)) := by
  induction entries generalizing chain with
  | nil => exact absurd rfl h
  | cons e rest ih =>
    rw [List.foldlM_cons]
    cases rest with
    | nil => exact bind_pure _
    | cons f rest =>
      have hrest : ∀ c : Chain,
          (f :: rest).foldlM (fun c e => c.apply (.update strict id (Settings.ofList [e]))) c =
            c.apply (.update strict id (Settings.ofList (f :: rest))) :=
        fun c => ih (List.cons_ne_nil f rest)
      -- the first entry is a patch of its own, and the others are one more
      have hmerge : (Settings.ofList [e]).merge (Settings.ofList (f :: rest)) =
          Settings.ofList (e :: f :: rest) := (Settings.ofList_append [e] (f :: rest)).symm
      rw [funext hrest, chain.update_update, hmerge]

end Chain

end LayerChain
