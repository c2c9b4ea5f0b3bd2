import LayerChain.Catalog.Settings
import Mathlib.Tactic.Common

/-!
# Laws of settings

Setting a key twice is setting it once, and the order in which two keys are set does not matter
once one of them is there. So of a whole patch and one more key only the last value of that key
counts, if the key was there from the start: its place is fixed (`Settings.insert_insertMany`).
-/

namespace LayerChain

namespace Settings

/-- Settings are their entries. -/
@[ext] theorem ext_entries {s t : Settings} (h : s.entries = t.entries) : s = t := by
  obtain ⟨es, hs⟩ := s
  obtain ⟨fs, ht⟩ := t
  obtain rfl : es = fs := h
  rfl

/-! ## Entries -/

lemma setEntry_setEntry_self (key : String) (v w : SettingValue)
    (es : List (String × SettingValue)) :
    setEntry key w (setEntry key v es) = setEntry key w es := by
  induction es with
  | nil => simp [setEntry]
  | cons e rest ih =>
    obtain ⟨k, u⟩ := e
    by_cases h : k = key
    · simp [setEntry, h]
    · simp [setEntry, h, ih]

/-- Two keys can be set in either order, if one of them has its place already. -/
lemma setEntry_comm {key other : String} (v w : SettingValue) {es : List (String × SettingValue)}
    (hne : key ≠ other) (hm : key ∈ es.map Prod.fst) :
    setEntry key v (setEntry other w es) = setEntry other w (setEntry key v es) := by
  induction es with
  | nil => simp at hm
  | cons e rest ih =>
    obtain ⟨k, u⟩ := e
    by_cases h : k = key
    · have h' : k ≠ other := fun ho => hne (h.symm.trans ho)
      simp [setEntry, h, hne]
    · have hm' : key ∈ rest.map Prod.fst := by
        rw [List.map_cons, List.mem_cons] at hm
        exact hm.resolve_left fun he => h he.symm
      by_cases h' : k = other
      · have hno : other ≠ key := fun he => hne he.symm
        simp [setEntry, h', hno]
      · simp [setEntry, h, h', ih hm']

lemma mem_setEntry {key : String} {v : SettingValue} {es : List (String × SettingValue)}
    {e : String × SettingValue} (h : e ∈ setEntry key v es) : e = (key, v) ∨ e ∈ es := by
  induction es with
  | nil => exact .inl (List.mem_singleton.1 h)
  | cons f rest ih =>
    obtain ⟨k, w⟩ := f
    rw [setEntry] at h
    split_ifs at h
    · rcases List.mem_cons.1 h with h | h
      · exact .inl h
      · exact .inr (List.mem_cons_of_mem _ h)
    · rcases List.mem_cons.1 h with h | h
      · exact .inr (h ▸ List.mem_cons_self)
      · exact (ih h).imp_right (List.mem_cons_of_mem _)

/-! ## Keys -/

lemma keys_insert (s : Settings) (key : String) (v : SettingValue) :
    (s.insert key v).keys = if key ∈ s.keys then s.keys else s.keys ++ [key] :=
  keys_setEntry key v s.entries

lemma mem_keys_insert {s : Settings} {key other : String} {v : SettingValue} :
    other ∈ (s.insert key v).keys ↔ other = key ∨ other ∈ s.keys := by
  rw [keys_insert]
  split_ifs with h
  · constructor
    · exact .inr
    · rintro (rfl | hm)
      · exact h
      · exact hm
  · rw [List.mem_append, List.mem_singleton, or_comm]

lemma mem_keys_insertMany {s : Settings} {key : String} (h : key ∈ s.keys)
    (es : List (String × SettingValue)) : key ∈ (s.insertMany es).keys := by
  induction es generalizing s with
  | nil => exact h
  | cons e rest ih => exact ih (mem_keys_insert.2 (.inr h))

/-- A key that is set stands in the order of first settings. -/
lemma keys_insert_eq_eraseDups {s : Settings} {log : List String} (h : s.keys = log.eraseDups)
    (key : String) (v : SettingValue) : (s.insert key v).keys = (log ++ [key]).eraseDups := by
  rw [keys_insert, h, List.eraseDups_append]
  by_cases hm : key ∈ log
  · rw [if_pos (List.mem_eraseDups.2 hm)]
    simp [hm, List.removeAll]
  · rw [if_neg (fun hd => hm (List.mem_eraseDups.1 hd))]
    simp [hm, List.removeAll, List.eraseDups_cons]

/-- The keys stand in the order in which they were first set. -/
theorem keys_insertMany_eq_eraseDups {s : Settings} {log : List String} (h : s.keys = log.eraseDups)
    (es : List (String × SettingValue)) :
    (s.insertMany es).keys = (log ++ es.map Prod.fst).eraseDups := by
  induction es generalizing s log with
  | nil =>
    rw [List.map_nil, List.append_nil]
    exact h
  | cons e es ih =>
    have hrest := ih (keys_insert_eq_eraseDups h e.1 e.2)
    rw [List.append_assoc] at hrest
    exact hrest

/-! ## Values -/

lemma find?_setEntry_self (key : String) (v : SettingValue) (es : List (String × SettingValue)) :
    (setEntry key v es).find? (fun e => e.1 == key) = some (key, v) := by
  induction es with
  | nil => simp [setEntry]
  | cons e rest ih =>
    obtain ⟨k, u⟩ := e
    by_cases h : k = key
    · simp [setEntry, h]
    · simp [setEntry, h, ih]

lemma find?_setEntry_of_ne {key other : String} (v : SettingValue) (hne : other ≠ key)
    (es : List (String × SettingValue)) :
    (setEntry key v es).find? (fun e => e.1 == other) = es.find? fun e => e.1 == other := by
  induction es with
  | nil => simp [setEntry, hne.symm]
  | cons e rest ih =>
    obtain ⟨k, u⟩ := e
    by_cases h : k = key
    · simp [setEntry, h, hne.symm]
    · rw [setEntry, if_neg h, List.find?_cons, List.find?_cons, ih]

/-- The first entry of a key, set again, stays as it is. -/
lemma setEntry_of_find? {e : String × SettingValue} {es : List (String × SettingValue)}
    (h : es.find? (fun f => f.1 == e.1) = some e) : setEntry e.1 e.2 es = es := by
  induction es with
  | nil => cases h
  | cons f rest ih =>
    obtain ⟨k, u⟩ := f
    rw [List.find?_cons] at h
    by_cases hk : k = e.1
    · rw [beq_iff_eq.2 hk] at h
      rw [setEntry, if_pos hk, ← Option.some.inj h]
    · rw [beq_eq_false_iff_ne.2 hk] at h
      rw [setEntry, if_neg hk, ih h]

/-- A key that was set has the value that was set. -/
lemma get?_insert_self (s : Settings) (key : String) (v : SettingValue) :
    (s.insert key v).get? key = some v := by
  rw [get?, insert, find?_setEntry_self]
  rfl

/-- All other keys keep their values. -/
lemma get?_insert_of_ne (s : Settings) {key other : String} (v : SettingValue)
    (hne : other ≠ key) : (s.insert key v).get? other = s.get? other := by
  rw [get?, insert, find?_setEntry_of_ne v hne, get?]

/-- A key that no entry of a patch has keeps its value. -/
lemma get?_insertMany_of_notMem {s : Settings} {key : String} {es : List (String × SettingValue)}
    (h : key ∉ es.map Prod.fst) : (s.insertMany es).get? key = s.get? key := by
  induction es generalizing s with
  | nil => rfl
  | cons e rest ih =>
    rw [List.map_cons, List.mem_cons, not_or] at h
    calc ((s.insert e.1 e.2).insertMany rest).get? key
      _ = (s.insert e.1 e.2).get? key := ih h.2
      _ = s.get? key := get?_insert_of_ne s e.2 h.1

/-- Setting a key to the value that it has changes nothing. -/
lemma insert_of_get? {s : Settings} {key : String} {v : SettingValue} (h : s.get? key = some v) :
    s.insert key v = s := by
  obtain ⟨e, he, rfl⟩ := Option.map_eq_some_iff.1 h
  have hfound := List.find?_some he
  obtain rfl : e.1 = key := beq_iff_eq.1 hfound
  exact ext_entries (setEntry_of_find? he)

/-! ## Setting keys -/

@[simp] theorem insert_insert_self (s : Settings) (key : String) (v w : SettingValue) :
    (s.insert key v).insert key w = s.insert key w :=
  ext_entries (setEntry_setEntry_self key v w s.entries)

lemma insert_comm {s : Settings} {key other : String} (v w : SettingValue) (hne : key ≠ other)
    (hm : key ∈ s.keys) :
    (s.insert other w).insert key v = (s.insert key v).insert other w :=
  ext_entries (setEntry_comm v w hne hm)

/-- What value a key had before a patch does not matter if it is set after the patch, provided
the key was there. -/
theorem insert_insertMany {s : Settings} {key : String} (u v : SettingValue) (hm : key ∈ s.keys)
    (es : List (String × SettingValue)) :
    ((s.insert key u).insertMany es).insert key v = (s.insertMany es).insert key v := by
  induction es generalizing s with
  | nil => exact insert_insert_self s key u v
  | cons e rest ih =>
    obtain ⟨k, w⟩ := e
    show (((s.insert key u).insert k w).insertMany rest).insert key v =
      ((s.insert k w).insertMany rest).insert key v
    by_cases h : key = k
    · rw [← h, insert_insert_self]
    · rw [← insert_comm u w h hm]
      exact ih (mem_keys_insert.2 (.inr hm))

/-- A patch with a single key sets that key. -/
lemma merge_singleton (s : Settings) (key : String) (v : SettingValue) :
    s.merge (empty.insert key v) = s.insert key v := rfl

lemma merge_empty (s : Settings) : s.merge empty = s := rfl

/-! ## Entries that make settings -/

lemma setEntry_of_not_mem {key : String} {v : SettingValue} {es : List (String × SettingValue)}
    (h : key ∉ es.map Prod.fst) : setEntry key v es = es ++ [(key, v)] := by
  induction es with
  | nil => rfl
  | cons e rest ih =>
    obtain ⟨k, w⟩ := e
    rw [List.map_cons, List.mem_cons, not_or] at h
    rw [setEntry, if_neg (Ne.symm h.1), ih h.2]
    rfl

lemma entries_insertMany {s : Settings} {es : List (String × SettingValue)}
    (h : ((s.entries ++ es).map Prod.fst).Nodup) : (s.insertMany es).entries = s.entries ++ es := by
  induction es generalizing s with
  | nil => simp [insertMany]
  | cons e rest ih =>
    have hnew : e.1 ∉ s.entries.map Prod.fst := by
      rw [List.map_append, List.nodup_append] at h
      exact fun hm => h.2.2 e.1 hm e.1 (by simp) rfl
    have hentries : (s.insert e.1 e.2).entries = s.entries ++ [e] := setEntry_of_not_mem hnew
    show ((s.insert e.1 e.2).insertMany rest).entries = _
    rw [ih (by rw [hentries]; simpa using h), hentries]
    simp

/-- Entries without a repeated key make the settings that have these entries. -/
lemma ofList_entries (s : Settings) : ofList s.entries = s :=
  ext_entries (entries_insertMany s.nodup)

end Settings

end LayerChain
