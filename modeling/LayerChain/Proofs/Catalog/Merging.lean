import LayerChain.Proofs.Catalog.Settings
import Mathlib.Data.List.Induction
import Mathlib.Data.List.Nodup

/-!
# Merging settings

Setting the keys of a patch one after the other does the same whether a key was set once or several
times in making the patch: of a repeated key the patch keeps the first place and the last value, and
so do the settings that take it up (`Settings.merge_ofList`). So merging is associative, and with no
settings as its unit and every patch idempotent (`Settings.merge_assoc`, `Settings.merge_self`).
-/

namespace LayerChain

namespace Settings

/-! ## Patches made of entries -/

lemma insertMany_append (s : Settings) (es fs : List (String × SettingValue)) :
    s.insertMany (es ++ fs) = (s.insertMany es).insertMany fs := List.foldl_append

/-- Setting a key in some entries, and then setting the entries, sets the key last. -/
lemma insertMany_setEntry (s : Settings) (key : String) (v : SettingValue)
    {es : List (String × SettingValue)} (h : (es.map Prod.fst).Nodup) :
    s.insertMany (setEntry key v es) = (s.insertMany es).insert key v := by
  induction es generalizing s with
  | nil => rfl
  | cons e rest ih =>
    obtain ⟨k, u⟩ := e
    obtain ⟨hk, hrest⟩ := List.nodup_cons.1 h
    rw [setEntry]
    split_ifs with hkey
    · subst hkey
      -- no later entry has the key, so it keeps its value and setting it again changes nothing
      have hvalue : ((s.insert k v).insertMany rest).get? k = some v :=
        (get?_insertMany_of_notMem hk).trans (get?_insert_self s k v)
      have hmem : k ∈ (s.insert k u).keys := mem_keys_insert.2 (.inl rfl)
      calc (s.insert k v).insertMany rest
        _ = ((s.insert k v).insertMany rest).insert k v := (insert_of_get? hvalue).symm
        _ = (((s.insert k u).insert k v).insertMany rest).insert k v := by
          rw [insert_insert_self]
        _ = ((s.insert k u).insertMany rest).insert k v := insert_insertMany v v hmem rest
    · exact ih (s.insert k u) hrest

/-- Merging a patch that entries make sets these entries one after the other. -/
theorem merge_ofList (s : Settings) (es : List (String × SettingValue)) :
    s.merge (ofList es) = s.insertMany es := by
  induction es using List.reverseRecOn with
  | nil => rfl
  | append_singleton es e ih =>
    have hpatch : ofList (es ++ [e]) = (ofList es).insert e.1 e.2 := insertMany_append _ es [e]
    calc s.merge (ofList (es ++ [e]))
      _ = s.insertMany (setEntry e.1 e.2 (ofList es).entries) := by rw [hpatch]; rfl
      _ = (s.merge (ofList es)).insert e.1 e.2 := insertMany_setEntry s e.1 e.2 (ofList es).nodup
      _ = s.insertMany (es ++ [e]) := by rw [ih, insertMany_append]; rfl

lemma ofList_append (es fs : List (String × SettingValue)) :
    ofList (es ++ fs) = (ofList es).merge (ofList fs) := by
  rw [merge_ofList, ofList, insertMany_append]
  rfl

/-! ## The laws of merging -/

theorem merge_assoc (a b c : Settings) : (a.merge b).merge c = a.merge (b.merge c) := by
  have hpatch : b.merge c = ofList (b.entries ++ c.entries) := by
    rw [ofList_append, ofList_entries, ofList_entries]
  rw [hpatch, merge_ofList, insertMany_append]
  rfl

lemma empty_merge (s : Settings) : empty.merge s = s := ofList_entries s

/-- An entry gives the value of its key. -/
lemma get?_of_mem {s : Settings} {e : String × SettingValue} (h : e ∈ s.entries) :
    s.get? e.1 = some e.2 := by
  cases hfound : s.entries.find? fun f => f.1 == e.1 with
  | none => exact absurd (beq_self_eq_true e.1) (List.find?_eq_none.1 hfound e h)
  | some f =>
    have hkey := List.find?_some hfound
    have hf : f = e := List.inj_on_of_nodup_map s.nodup (List.mem_of_find?_eq_some hfound) h
      (beq_iff_eq.1 hkey)
    rw [get?, hfound, hf]
    rfl

/-- Setting entries again that are there changes nothing. -/
lemma insertMany_of_subset {s : Settings} {es : List (String × SettingValue)}
    (h : es ⊆ s.entries) : s.insertMany es = s := by
  induction es with
  | nil => rfl
  | cons e rest ih =>
    obtain ⟨he, hrest⟩ := List.cons_subset.1 h
    show (s.insert e.1 e.2).insertMany rest = s
    rw [insert_of_get? (get?_of_mem he), ih hrest]

theorem merge_self (s : Settings) : s.merge s = s := insertMany_of_subset (List.Subset.refl _)

/-! ## The keys of a merged patch -/

/-- The first key with a property, after some entries were set, is the first one of the settings or
else of the entries. -/
lemma find?_keys_insertMany (p : String → Bool) (s : Settings) (es : List (String × SettingValue)) :
    (s.insertMany es).keys.find? p = (s.keys.find? p).or ((es.map Prod.fst).find? p) := by
  induction es generalizing s with
  | nil => exact (Option.or_none).symm
  | cons e rest ih =>
    have hinsert : (s.insert e.1 e.2).keys.find? p = (s.keys.find? p).or ([e.1].find? p) := by
      rw [keys_insert]
      split_ifs with hkey
      · cases hp : p e.1 with
        | false => rw [List.find?_cons_of_neg (by simp [hp]), List.find?_nil, Option.or_none]
        | true =>
          obtain ⟨found, hfound⟩ := Option.isSome_iff_exists.1 (List.find?_isSome.2 ⟨e.1, hkey, hp⟩)
          rw [hfound]
          rfl
      · exact List.find?_append
    calc ((s.insert e.1 e.2).insertMany rest).keys.find? p
      _ = ((s.keys.find? p).or ([e.1].find? p)).or ((rest.map Prod.fst).find? p) := by
        rw [ih, hinsert]
      _ = (s.keys.find? p).or (([e.1] ++ rest.map Prod.fst).find? p) := by
        rw [Option.or_assoc, List.find?_append]

/-- The first key with a property in merged settings is the first one of either part. -/
lemma find?_keys_merge (p : String → Bool) (s patch : Settings) :
    (s.merge patch).keys.find? p = (s.keys.find? p).or (patch.keys.find? p) :=
  find?_keys_insertMany p s patch.entries

end Settings

end LayerChain
