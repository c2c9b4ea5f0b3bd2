import LayerChain.Source.Generator

/-!
# Remembered sources

A cache of generated sources. A source is kept under the generator's fingerprint and the model's
hash; the cache holds a bounded number of them and gives up the least recently used one first.

The sources stand in a table, and a queue beside it holds their keys in the order of use. What is
given up is what the queue says.
-/

namespace LayerChain

/-- How many sources a session remembers, unless another number is chosen. -/
def defaultCacheEntries : Nat := 16

/-! ## Tables -/

/-- A table of sources by key. The order of the entries says nothing. -/
structure SourceTable where
  entries : List (String × String)
  /-- No key stands in a table twice. -/
  nodup : (entries.map Prod.fst).Nodup

namespace SourceTable

/-- A table without sources. -/
def empty : SourceTable := ⟨[], List.nodup_nil⟩

/-- The source of a key. -/
def get? (table : SourceTable) (key : String) : Option String :=
  (table.entries.find? fun e => e.1 == key).map Prod.snd

/-- The keys of a table. -/
def keys (table : SourceTable) : List String := table.entries.map Prod.fst

/-- How many sources a table holds. -/
def size (table : SourceTable) : Nat := table.entries.length

/-- The table without a key. -/
def erase (table : SourceTable) (key : String) : SourceTable :=
  ⟨table.entries.filter fun e => e.1 != key, table.nodup.sublist (List.filter_sublist.map _)⟩

/-- The table with a source for a key. One that it had for this key is replaced. -/
def insert (table : SourceTable) (key source : String) : SourceTable :=
  ⟨(table.erase key).entries ++ [(key, source)], by
    rw [List.map_append, List.nodup_append]
    refine ⟨(table.erase key).nodup, by simp, fun a ha b hb => ?_⟩
    obtain ⟨e, he, rfl⟩ := List.mem_map.1 ha
    have hkey := (List.mem_filter.1 he).2
    rw [List.mem_singleton.1 hb]
    exact bne_iff_ne.1 hkey⟩

end SourceTable

/-! ## Caches -/

/-- Generated sources. -/
structure SourceCache where
  /-- The sources that are kept. -/
  table : SourceTable
  /-- Their keys, least recently used first. -/
  order : List String
  capacity : Nat
  /-- How many requests were answered from the cache. -/
  hits : Nat
  /-- How many requests were answered by generating a source. -/
  misses : Nat

namespace SourceCache

/-- An empty cache for a number of sources, at least one. -/
def bounded (capacity : Nat) : SourceCache := ⟨.empty, [], max capacity 1, 0, 0⟩

instance : Inhabited SourceCache := ⟨bounded defaultCacheEntries⟩

/-- The key of a model's source. -/
def key (generator : Generator) (model : Model) : String :=
  generator.fingerprint ++ ":" ++ model.hash

/-- Keys and sources. -/
def entries (cache : SourceCache) : List (String × String) := cache.table.entries

/-- The source that is kept under a key. -/
def get? (cache : SourceCache) (key : String) : Option String := cache.table.get? key

/-- How many sources are kept. -/
def size (cache : SourceCache) : Nat := cache.table.size

/-- Whether no source is kept. -/
def isEmpty (cache : SourceCache) : Bool := cache.table.entries.isEmpty

/-- Makes a key the most recently used one, if it is in the queue. -/
def touch (cache : SourceCache) (key : String) : SourceCache :=
  { cache with
    order := if key ∈ cache.order then cache.order.erase key ++ [key] else cache.order
    hits := cache.hits + 1 }

/-- Gives up sources until a table holds fewer than it may, in the order of a queue of keys: the
table and the rest of the queue. -/
def giveUp (capacity : Nat) (table : SourceTable) : List String → SourceTable × List String
  | [] => (table, [])
  | oldest :: order =>
    if capacity ≤ table.size then giveUp capacity (table.erase oldest) order
    else (table, oldest :: order)

/-- Adds a new source, after giving up as many old ones as must make place. -/
def add (cache : SourceCache) (key source : String) : SourceCache :=
  let (table, order) := giveUp cache.capacity cache.table cache.order
  { cache with
    table := table.insert key source
    order := order ++ [key]
    misses := cache.misses + 1 }

/-- The source of a key, remembered or generated, and the cache after the request. Nothing is
remembered of a generation that fails. -/
def supply (cache : SourceCache) (key : String) (generate : Unit → Except Error String) :
    Except Error (String × SourceCache) :=
  match cache.get? key with
  -- a hit counts as a use, so the key goes to the end
  | some source => .ok (source, cache.touch key)
  | none => (generate ()).map fun source => (source, cache.add key source)

/-- The source of a model, remembered or generated, and the cache after the request. -/
def fetch (cache : SourceCache) (generator : Generator) (model : Model) :
    Except Error (String × SourceCache) :=
  cache.supply (key generator model) fun _ => generator.generate model

/-- What a request reports: on a miss, what generating reports, and the miss. -/
def fetchNotes (cache : SourceCache) (generator : Generator) (model : Model) : List Note :=
  match cache.get? (key generator model) with
  | some _ => []
  | none =>
    generator.notes model ++
      match cache.fetch generator model with
      | .ok (_, after) => [
          .debug ("Source cache miss (" ++ toString after.size ++ "/" ++
            toString after.capacity ++ " entries)")]
      | .error _ => []

/-- Forgets all sources. The counts of requests stay. -/
def clear (cache : SourceCache) : SourceCache := { cache with table := .empty, order := [] }

end SourceCache

end LayerChain
