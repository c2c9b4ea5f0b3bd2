import LayerChain.Catalog.SettingValue

/-!
# Settings

The settings of a layer: an ordered map from keys to values. A new key goes to the end, and a key
that is set again keeps its place, so the keys stand in the order in which they were first set.
No key stands there twice.
-/

namespace LayerChain

/-- An ordered map from keys to setting values. -/
structure Settings where
  entries : List (String × SettingValue)
  nodup : (entries.map Prod.fst).Nodup
deriving DecidableEq

namespace Settings

/-! ## Entries -/

/-- The entries with a key set: in its place, or else at the end. -/
def setEntry (key : String) (value : SettingValue) :
    List (String × SettingValue) → List (String × SettingValue)
  | [] => [(key, value)]
  | (k, v) :: rest => if k = key then (key, value) :: rest else (k, v) :: setEntry key value rest

theorem keys_setEntry (key : String) (value : SettingValue) (es : List (String × SettingValue)) :
    (setEntry key value es).map Prod.fst =
      if key ∈ es.map Prod.fst then es.map Prod.fst else es.map Prod.fst ++ [key] := by
  induction es with
  | nil => simp [setEntry]
  | cons e rest ih =>
    obtain ⟨k, v⟩ := e
    by_cases h : k = key
    · simp [setEntry, h]
    · have h' : ¬key = k := fun e => h e.symm
      simp only [setEntry, h, if_false, List.map_cons, ih, List.mem_cons, h', false_or]
      split <;> simp

theorem nodup_setEntry {key : String} {value : SettingValue} {es : List (String × SettingValue)}
    (h : (es.map Prod.fst).Nodup) : ((setEntry key value es).map Prod.fst).Nodup := by
  rw [keys_setEntry]
  split
  · exact h
  · rename_i hk
    exact List.nodup_append.2 ⟨h, by simp, fun a ha b hb => by
      rw [List.mem_singleton] at hb
      exact fun e => hk (hb ▸ e ▸ ha)⟩

/-! ## The map -/

/-- No settings. -/
def empty : Settings := ⟨[], List.nodup_nil⟩

instance : Inhabited Settings := ⟨empty⟩

/-- Sets a key. -/
def insert (settings : Settings) (key : String) (value : SettingValue) : Settings :=
  ⟨setEntry key value settings.entries, nodup_setEntry settings.nodup⟩

/-- Sets the keys of a list of entries, one after the other. -/
def insertMany (settings : Settings) (entries : List (String × SettingValue)) : Settings :=
  entries.foldl (fun s e => s.insert e.1 e.2) settings

/-- The settings that a list of entries makes: of a repeated key the first place and the last
value count. -/
def ofList (entries : List (String × SettingValue)) : Settings := empty.insertMany entries

/-- Sets every key of a patch, in the patch's order. -/
def merge (settings patch : Settings) : Settings := settings.insertMany patch.entries

/-- The value of a key. -/
def get? (settings : Settings) (key : String) : Option SettingValue :=
  (settings.entries.find? fun e => e.1 == key).map Prod.snd

/-- The integer value of a key. -/
def int? (settings : Settings) (key : String) : Option Int64 :=
  (settings.get? key).bind SettingValue.int?

/-- Whether a key is set. -/
def contains (settings : Settings) (key : String) : Bool := (settings.get? key).isSome

/-- The keys in order. -/
def keys (settings : Settings) : List String := settings.entries.map Prod.fst

/-- How many keys are set. -/
def size (settings : Settings) : Nat := settings.entries.length

/-- Whether no key is set. -/
def isEmpty (settings : Settings) : Bool := settings.entries.isEmpty

/-- Equality of entries in order, with values compared by `SettingValue.equal`. -/
def equalEntries : List (String × SettingValue) → List (String × SettingValue) → Bool
  | [], [] => true
  | (k, v) :: xs, (l, w) :: ys => k == l && v.equal w && equalEntries xs ys
  | _, _ => false

/-- Equality of settings: the same keys in the same order with equal values. -/
def equal (s t : Settings) : Bool := equalEntries s.entries t.entries

/-- The settings as a user types them. -/
def display (settings : Settings) : String :=
  " ".intercalate (settings.entries.map fun (k, v) => k ++ "=" ++ v.display)

/-! ## In documents -/

/-- The form of settings in documents: an object. -/
def toJson (settings : Settings) : Json :=
  .object (settings.entries.map fun (k, v) => (k, v.toJson))

/-- Reads settings from a document. -/
def decoder : Json.Decoder Settings := fun depth d =>
  (Json.Decoder.entries SettingValue.decoder "a map of setting names to values" depth d).map ofList

end Settings

end LayerChain
