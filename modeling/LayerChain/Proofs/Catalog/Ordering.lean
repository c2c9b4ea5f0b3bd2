import LayerChain.Proofs.Catalog.Documents
import LayerChain.Proofs.Catalog.Merging

/-!
# Settings as an ordered map

However settings are made of a list of entries, at once, one after the other or from an object in a
document, they are the same (`settings_of_entries`): every key stands in the place of its first
entry and has the value of its last one (`Settings.ordered`).

The type of settings has no room for a repeated key. That nothing is lost by this is said of plain
lists of entries: whatever is made by overwriting the first entry of a key or adding an entry at
the end (`Settings.Made`) has no key twice.
-/

namespace LayerChain

open Json (Document)

namespace Settings

/-! ## First places and last values -/

/-- Some entries as an ordered map has them: the distinct keys in the order in which they first
occur, each with the value that it has last. -/
def ordered (es : List (String × SettingValue)) : List (String × SettingValue) :=
  (es.map Prod.fst).eraseDups.filterMap fun key => (es.reverse.lookup key).map fun v => (key, v)

lemma keys_ofList (es : List (String × SettingValue)) :
    (ofList es).keys = (es.map Prod.fst).eraseDups := by
  have hempty : empty.keys = ([] : List String).eraseDups := rfl
  exact keys_insertMany_eq_eraseDups hempty es

lemma get?_ofList (es : List (String × SettingValue)) (key : String) :
    (ofList es).get? key = es.reverse.lookup key := by
  induction es using List.reverseRecOn with
  | nil => rfl
  | append_singleton es e ih =>
    obtain ⟨k, v⟩ := e
    have hinsert : ofList (es ++ [(k, v)]) = (ofList es).insert k v := insertMany_append _ es [(k, v)]
    rw [hinsert, List.reverse_append, List.reverse_singleton, List.singleton_append, List.lookup_cons]
    by_cases h : key = k
    · rw [h, get?_insert_self, beq_self_eq_true]
    · rw [get?_insert_of_ne _ _ h, ih, beq_eq_false_iff_ne.2 h]

/-- Settings are their keys with the values of these. -/
lemma entries_eq_filterMap (s : Settings) :
    s.entries = s.keys.filterMap fun key => (s.get? key).map fun v => (key, v) := by
  have hentry : ∀ e ∈ s.entries, ((s.get? e.1).map fun v => (e.1, v)) = some e := by
    intro e he
    rw [get?_of_mem he]
    rfl
  rw [keys, List.filterMap_map]
  exact (List.filterMap_some (l := s.entries)).symm.trans
    (List.filterMap_congr fun e he => (hentry e he).symm)

theorem entries_ofList (es : List (String × SettingValue)) : (ofList es).entries = ordered es := by
  rw [entries_eq_filterMap, keys_ofList, ordered]
  simp only [get?_ofList]

/-! ## Looking at settings -/

lemma contains_iff_mem_keys (s : Settings) (key : String) :
    s.contains key = true ↔ key ∈ s.keys := by
  rw [contains, get?, Option.isSome_map, List.find?_isSome, keys, List.mem_map]
  simp only [beq_iff_eq]

/-! ## Reading settings -/

/-- Settings are made of the members of an object, as each of them is read. -/
lemma decoder_object {depth : Nat} {members : List (Json.Lexeme × Document)}
    {es : List (String × SettingValue)}
    (h : List.Forall₂ (fun m e => m.1.text = .ok e.1 ∧ SettingValue.decoder depth m.2 = .ok e.2)
      members es) :
    decoder (depth + 1) (.object members .closed) = .ok (ofList es) := by
  have hmembers : members.mapM (fun m => do
      let name ← m.1.text
      return (name, ← SettingValue.decoder depth m.2)) = .ok es := by
    refine mapM_eq_ok_iff.2 (h.imp fun m e hm => ?_)
    rw [hm.1, hm.2]
    rfl
  rw [decoder, Json.Decoder.entries, Json.Decoder.enter, hmembers]
  rfl

/-! ## Plain entries -/

/-- Sets a key in plain entries: the first entry of the key is overwritten, and if there is none an
entry is added at the end. -/
def putEntry (es : List (String × SettingValue)) (key : String) (value : SettingValue) :
    List (String × SettingValue) :=
  match es.findIdx? fun e => e.1 == key with
  | some i => es.modify i fun e => (e.1, value)
  | none => es ++ [(key, value)]

/-- Sets the keys of some entries in others, one after the other. -/
def putEntries (es added : List (String × SettingValue)) : List (String × SettingValue) :=
  added.foldl (fun es e => putEntry es e.1 e.2) es

lemma setEntry_eq_putEntry (key : String) (value : SettingValue)
    (es : List (String × SettingValue)) : setEntry key value es = putEntry es key value := by
  induction es with
  | nil => rfl
  | cons e rest ih =>
    obtain ⟨k, v⟩ := e
    rw [setEntry, putEntry, List.findIdx?_cons]
    by_cases h : k = key
    · rw [if_pos h, beq_iff_eq.2 h, h]
      rfl
    · rw [if_neg h, beq_eq_false_iff_ne.2 h, ih, putEntry]
      cases rest.findIdx? fun e => e.1 == key <;> rfl

lemma entries_insertMany_eq (s : Settings) (es : List (String × SettingValue)) :
    (s.insertMany es).entries = putEntries s.entries es := by
  induction es generalizing s with
  | nil => rfl
  | cons e rest ih =>
    calc ((s.insert e.1 e.2).insertMany rest).entries
      _ = putEntries (setEntry e.1 e.2 s.entries) rest := ih _
      _ = putEntries (putEntry s.entries e.1 e.2) rest := by rw [setEntry_eq_putEntry]

/-- Plain entries that are made step by step: by setting keys, by merging others into them, by
collecting a list, and from a document. -/
inductive Made : List (String × SettingValue) → Prop where
  | empty : Made []
  | insert {es : List (String × SettingValue)} (made : Made es) (key : String)
    (value : SettingValue) : Made (putEntry es key value)
  | merge {es patch : List (String × SettingValue)} (made : Made es) (patchMade : Made patch) :
    Made (putEntries es patch)
  | collect (es : List (String × SettingValue)) : Made (putEntries [] es)
  | load {expected : String} {depth : Nat} {d : Document} {es : List (String × SettingValue)}
    (read : Json.Decoder.entries SettingValue.decoder expected depth d = .ok es) :
    Made (putEntries [] es)

/-- Entries that are made step by step are those of settings. -/
lemma exists_settings_of_made {es : List (String × SettingValue)} (h : Made es) :
    ∃ s : Settings, s.entries = es := by
  induction h with
  | empty => exact ⟨Settings.empty, rfl⟩
  | insert _ key value ih =>
    obtain ⟨s, rfl⟩ := ih
    exact ⟨s.insert key value, setEntry_eq_putEntry key value s.entries⟩
  | @merge es patch _ _ ih _ =>
    obtain ⟨s, rfl⟩ := ih
    exact ⟨s.insertMany patch, entries_insertMany_eq s patch⟩
  | collect es => exact ⟨ofList es, entries_insertMany_eq Settings.empty es⟩
  | @load _ _ _ es _ => exact ⟨ofList es, entries_insertMany_eq Settings.empty es⟩

/-- No steps make a key twice. -/
theorem Made.nodup {es : List (String × SettingValue)} (h : Made es) : (es.map Prod.fst).Nodup := by
  obtain ⟨s, rfl⟩ := exists_settings_of_made h
  exact s.nodup

/-- Whatever is read as settings is collected from the entries that were read. -/
lemma made_of_decoder {depth : Nat} {d : Document} {s : Settings} (h : decoder depth d = .ok s) :
    Made s.entries := by
  obtain ⟨es, hread, rfl⟩ := map_eq_ok.1 h
  rw [ofList, entries_insertMany_eq]
  exact .load hread

end Settings

/-- However settings are made of a list of entries, they are the same: by setting the keys one after
the other, by collecting the list, or by reading a text that is an object with these members. The
distinct keys stand in the order in which they first occur in the list, and each has the value that
it has last. Merging two settings collects the entries of the one and then those of the other. And
each way to make settings does to plain entries what overwriting the first entry of a key or adding
one at the end does, which never makes a key twice. -/
theorem settings_of_entries :
    (∀ es : List (String × SettingValue),
      es.foldl (fun s e => s.insert e.1 e.2) Settings.empty = Settings.ofList es ∧
      (∀ {content : Content} {members : List (Json.Lexeme × Document)},
        Document.ofTokens (Json.Token.scan content) = (.object members .closed, []) →
        List.Forall₂ (fun m e => m.1.text = .ok e.1 ∧
          SettingValue.decoder (Json.maxDepth - 1) m.2 = .ok e.2) members es →
        Json.decode Settings.decoder content = .ok (Settings.ofList es)) ∧
      (Settings.ofList es).entries = Settings.ordered es ∧
      (Settings.ofList es).keys = (es.map Prod.fst).eraseDups ∧
      (Settings.ofList es).size = (es.map Prod.fst).eraseDups.length ∧
      ∀ key, (Settings.ofList es).get? key = es.reverse.lookup key ∧
        ((Settings.ofList es).contains key = true ↔ key ∈ es.map Prod.fst)) ∧
    (∀ a b : Settings, a.merge b = Settings.ofList (a.entries ++ b.entries)) ∧
    (∀ (s patch : Settings) (es : List (String × SettingValue)) (key : String)
        (value : SettingValue),
      (s.insert key value).entries = Settings.putEntry s.entries key value ∧
      (s.merge patch).entries = Settings.putEntries s.entries patch.entries ∧
      (Settings.ofList es).entries = Settings.putEntries [] es) ∧
    (∀ {depth : Nat} {d : Document} {s : Settings}, Settings.decoder depth d = .ok s →
      Settings.Made s.entries) ∧
    ∀ {es : List (String × SettingValue)}, Settings.Made es → (es.map Prod.fst).Nodup := by
  refine ⟨fun es => ⟨rfl, ?_, Settings.entries_ofList es, Settings.keys_ofList es, ?_, ?_⟩, ?_, ?_,
    Settings.made_of_decoder, Settings.Made.nodup⟩
  · intro content members htree hmembers
    rw [Json.decode_eq_ok, htree]
    exact ⟨Settings.decoder_object hmembers, rfl⟩
  · rw [← Settings.keys_ofList, Settings.keys, List.length_map]
    rfl
  · intro key
    refine ⟨Settings.get?_ofList es key, ?_⟩
    rw [Settings.contains_iff_mem_keys, Settings.keys_ofList, List.mem_eraseDups]
  · intro a b
    rw [Settings.ofList_append, Settings.ofList_entries, Settings.ofList_entries]
  · intro s patch es key value
    exact ⟨Settings.setEntry_eq_putEntry key value s.entries,
      Settings.entries_insertMany_eq s patch.entries, Settings.entries_insertMany_eq .empty es⟩

/-- Three members, the third with the name of the first, are read with that key in its first place
and with its second value, and so no key is there twice. -/
theorem settings_of_repeated_entries :
    let es := [("p", SettingValue.int 1), ("q", .bool true), ("p", .auto)]
    Json.decodeString Settings.decoder "\x7b\"p\":1,\"q\":true,\"p\":null\x7d" =
        .ok (Settings.ofList es) ∧
      (Settings.ofList es).entries = [("p", .auto), ("q", .bool true)] ∧
      ((Settings.ofList es).entries.map Prod.fst).Nodup := by
  intro es
  obtain ⟨hlist, -, -, hmade, hnodup⟩ := settings_of_entries
  obtain ⟨-, hread, hentries, -⟩ := hlist es
  have htree := Json.ofTokens_of_scansAs (Json.scan_compact
    (.object [("p", .whole 1), ("q", .bool true), ("p", .null)]))
  have hsettings := hread htree (.cons ⟨rfl, rfl⟩ (.cons ⟨rfl, rfl⟩ (.cons ⟨rfl, rfl⟩ .nil)))
  refine ⟨hsettings, by rw [hentries]; rfl, ?_⟩
  exact hnodup (hmade (Json.decode_eq_ok.1 hsettings).1)

end LayerChain
