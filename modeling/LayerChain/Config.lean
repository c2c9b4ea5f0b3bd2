import LayerChain.Session.History
import LayerChain.Source.Cache

/-!
# Configuration

What can be chosen for a session. In a document every field may be missing and then has its
default.
-/

namespace LayerChain

/-- What can be chosen for a session. -/
structure Config where
  /-- The feature count that enters a new chain. -/
  inputDimension : UInt64 := defaultInputDimension
  /-- The class name of generated modules. -/
  className : String := defaultClassName
  /-- Whether updates take declared settings only. -/
  strictSettings : Bool := false
  maxUndoLevels : Nat := defaultUndoLevels
  sourceCacheEntries : Nat := defaultCacheEntries
deriving DecidableEq, Repr

namespace Config

instance : Inhabited Config := ⟨{}⟩

/-- The form of a configuration in documents. -/
def toJson (config : Config) : Json :=
  .object [
    ("inputDimension", .whole config.inputDimension.toNat),
    ("className", .text config.className),
    ("strictSettings", .bool config.strictSettings),
    ("maxUndoLevels", .whole config.maxUndoLevels),
    ("sourceCacheEntries", .whole config.sourceCacheEntries)]

/-- A configuration while it is read. -/
structure Draft where
  inputDimension : Option UInt64 := none
  className : Option String := none
  strictSettings : Option Bool := none
  maxUndoLevels : Option Nat := none
  sourceCacheEntries : Option Nat := none

/-- The configuration of a draft, with defaults for what is missing. -/
def Draft.finish (draft : Draft) : Config :=
  let standard : Config := {}
  { inputDimension := draft.inputDimension.getD standard.inputDimension
    className := draft.className.getD standard.className
    strictSettings := draft.strictSettings.getD standard.strictSettings
    maxUndoLevels := draft.maxUndoLevels.getD standard.maxUndoLevels
    sourceCacheEntries := draft.sourceCacheEntries.getD standard.sourceCacheEntries }

/-- Reads a configuration from a document. -/
def decoder : Json.Decoder Config :=
  .record "CraftConfig" [
      .slot "inputDimension" Draft.inputDimension
        (fun d n => { d with inputDimension := some n }) sizeDecoder,
      .slot "className" Draft.className (fun d s => { d with className := some s }) .string,
      .slot "strictSettings" Draft.strictSettings
        (fun d b => { d with strictSettings := some b }) .bool,
      .slot "maxUndoLevels" Draft.maxUndoLevels (fun d n => { d with maxUndoLevels := some n })
        (.nat UInt64.size "usize"),
      .slot "sourceCacheEntries" Draft.sourceCacheEntries
        (fun d n => { d with sourceCacheEntries := some n }) (.nat UInt64.size "usize")]
    {} fun _ draft => .ok (Draft.finish draft)

/-- Reads a configuration from a text. -/
def ofText (text : String) : Except Error Config :=
  Json.Fault.lift (Json.decodeString decoder text)

end Config

end LayerChain
