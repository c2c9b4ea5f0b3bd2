import LayerChain.Proofs.Source.Caching
import Mathlib.Data.List.Dedup
import Mathlib.Data.List.DropRight
import Mathlib.Data.List.Infix

/-!
# The sources used last

A cache gives up the sources whose use is longest ago. What it holds can be told from the log of the
keys that it supplied since it was cleared: the last distinct keys of the log, as many as it has room
for, and the queue lists them in the order of their last use (`SourceCache.holds_recent_keys`).

A cache has its table and its queue side by side. `SourceCache.Follows` says that they agree and that
the queue holds the recent keys of the log; every use of a key keeps this (`Follows.touch`,
`Follows.add`), and so does every demand (`Follows.demand`). How a further use changes the recent
keys is a matter of the log alone (`recent_concat_of_mem`, `recent_concat_of_notMem`).
-/

namespace LayerChain

/-! ## Tables -/

namespace SourceTable

variable {table : SourceTable} {key : String}

lemma keys_erase (table : SourceTable) (key : String) :
    (table.erase key).keys = table.keys.erase key := by
  have hnodup : table.keys.Nodup := table.nodup
  rw [hnodup.erase_eq_filter, keys, keys, List.filter_map]
  rfl

lemma keys_insert (table : SourceTable) (key source : String) :
    (table.insert key source).keys = table.keys.erase key ++ [key] := by
  rw [← keys_erase, keys, insert, List.map_append]
  rfl

lemma get?_eq_none_iff : table.get? key = none ↔ key ∉ table.keys := by
  rw [get?, Option.map_eq_none_iff, List.find?_eq_none, keys, List.mem_map]
  constructor
  · rintro h ⟨e, he, hkey⟩
    exact h e he (beq_iff_eq.2 hkey)
  · intro h e he hkey
    exact h ⟨e, he, beq_iff_eq.1 hkey⟩

end SourceTable

namespace SourceCache

/-! ## Demands -/

/-- What can be demanded of a cache, whatever generates the sources: the source of a key, with what
generating it would give, or to forget all sources. -/
inductive Demand where
  | source (key : String) (generated : Except Error String)
  | clear

/-- The demand of a request. -/
def Request.demand : Request → Demand
  | .fetch generator model => .source (key generator model) (generator.generate model)
  | .clear => .clear

/-- Whether a demand is one for a source that is supplied. -/
def succeeds (cache : SourceCache) : Demand → Bool
  | .source key generated => (cache.supply key fun _ => generated).isOk
  | .clear => false

/-- The cache after a demand. One that fails changes nothing. -/
def met (cache : SourceCache) : Demand → SourceCache
  | .source key generated =>
    match cache.supply key fun _ => generated with
    | .ok (_, next) => next
    | .error _ => cache
  | .clear => cache.clear

/-- The log of the keys that a cache supplied since it was cleared, after a further demand. -/
def logged (cache : SourceCache) (log : List String) : Demand → List String
  | .source key generated =>
    if cache.succeeds (.source key generated) then log ++ [key] else log
  | .clear => []

/-! ### Runs -/

/-- The cache after demands that come one after the other. -/
def metAll (cache : SourceCache) (demands : List Demand) : SourceCache := demands.foldl met cache

/-- The log after demands that come one after the other. -/
def log (cache : SourceCache) (before : List String) : List Demand → List String
  | [] => before
  | demand :: demands => (cache.met demand).log (cache.logged before demand) demands

/-- How many demands for a source are met. -/
def successes (cache : SourceCache) : List Demand → Nat
  | [] => 0
  | demand :: demands =>
    (if cache.succeeds demand then 1 else 0) + (cache.met demand).successes demands

/-- The last distinct keys of a log, a number of them, in the order of their last occurrences. -/
def recent (number : Nat) (log : List String) : List String := log.dedup.rtake number

/-! ## Logs -/

/-- A key that is logged becomes the last of the distinct keys. -/
lemma dedup_concat (log : List String) (key : String) :
    (log ++ [key]).dedup = log.dedup.erase key ++ [key] := by
  induction log with
  | nil => simp
  | cons first log ih =>
    rw [List.cons_append]
    by_cases hfirst : first ∈ log
    · rw [List.dedup_cons_of_mem hfirst, List.dedup_cons_of_mem (List.mem_append_left _ hfirst), ih]
    · rw [List.dedup_cons_of_notMem hfirst]
      have hdedup : first ∉ log.dedup := fun hm => hfirst (List.mem_dedup.1 hm)
      by_cases hkey : first = key
      · subst hkey
        rw [List.dedup_cons_of_mem (by simp), ih, List.erase_of_not_mem hdedup,
          List.erase_cons_head]
      · rw [List.dedup_cons_of_notMem (by simp [hfirst, hkey]), ih,
          List.erase_cons_tail (by simpa using hkey), List.cons_append]

lemma recent_nil (number : Nat) : recent number [] = [] := by simp [recent]

lemma recent_suffix (number : Nat) (log : List String) : recent number log <:+ log.dedup :=
  List.drop_suffix _ _

lemma length_recent (number : Nat) (log : List String) :
    (recent number log).length = min number log.dedup.length := by
  rw [recent, List.rtake, List.length_drop]
  omega

/-- Of the ends of the distinct keys, the one with the right length is what is recent. -/
lemma recent_eq_of_suffix {number : Nat} {log window : List String} (hs : window <:+ log.dedup)
    (hl : window.length = min number log.dedup.length) : recent number log = window := by
  have hdrop := List.suffix_iff_eq_drop.1 hs
  rw [hdrop, recent, List.rtake]
  congr 1
  omega

/-- A recent key that is logged again becomes the last one, and no other key gives way. -/
lemma recent_concat_of_mem {number : Nat} {log : List String} {key : String}
    (hkey : key ∈ recent number log) :
    recent number (log ++ [key]) = (recent number log).erase key ++ [key] := by
  obtain ⟨older, holder⟩ := recent_suffix number log
  -- the distinct keys are all different, so the key is none of the older ones
  have hnew : key ∉ older := by
    intro hmem
    have hnodup := List.nodup_dedup log
    rw [← holder, List.nodup_append] at hnodup
    exact hnodup.2.2 key hmem key hkey rfl
  have hdedup : (log ++ [key]).dedup = older ++ ((recent number log).erase key ++ [key]) := by
    rw [dedup_concat, ← holder, List.erase_append_right _ hnew, List.append_assoc]
  refine recent_eq_of_suffix (hdedup ▸ List.suffix_append _ _) ?_
  have hlength := length_recent number log
  have herase := List.length_erase_of_mem hkey
  have hpos := List.length_pos_of_mem hkey
  rw [← holder, List.length_append] at hlength
  simp only [hdedup, List.length_append, List.length_singleton, herase]
  omega

/-- A key that is not recent becomes the last one, and if there is no room for it, the first one
gives way. -/
lemma recent_concat_of_notMem {number : Nat} (hroom : 0 < number) {log : List String}
    {key : String} (hkey : key ∉ recent number log) :
    recent number (log ++ [key]) =
      (recent number log).drop ((recent number log).length + 1 - number) ++ [key] := by
  obtain ⟨older, holder⟩ := recent_suffix number log
  have hdedup : (log ++ [key]).dedup = older.erase key ++ (recent number log ++ [key]) := by
    rw [dedup_concat, ← holder, ← List.append_assoc]
    by_cases hold : key ∈ older
    · rw [List.erase_append_left _ hold]
    · rw [List.erase_append_right _ hold, List.erase_of_not_mem hkey, List.erase_of_not_mem hold]
  have hsuffix : (recent number log).drop ((recent number log).length + 1 - number) ++ [key] <:+
      recent number log ++ [key] := List.suffix_append_self_iff.2 (List.drop_suffix _ _)
  refine recent_eq_of_suffix (hdedup ▸ hsuffix.trans (List.suffix_append _ _)) ?_
  have hlength := length_recent number log
  rw [← holder, List.length_append] at hlength
  simp only [hdedup, List.length_append, List.length_singleton, List.length_drop]
  -- an older key leaves its place, so then the number of distinct keys stays
  by_cases hold : key ∈ older
  · have herase := List.length_erase_of_mem hold
    have hpos := List.length_pos_of_mem hold
    omega
  · rw [List.erase_of_not_mem hold]
    omega

/-- A third key takes the place of the one whose use is longest ago. -/
example : recent 2 ["a", "b", "a", "c"] = ["a", "c"] := by decide

/-! ## Caches that follow a log -/

/-- The queue of a cache lists the keys of its table, and they are the recent ones of a log. -/
structure Follows (cache : SourceCache) (log : List String) : Prop where
  room : 0 < cache.capacity
  perm : cache.order.Perm cache.table.keys
  order_eq : cache.order = recent cache.capacity log

/-- Giving up sources takes as many keys from the front of the queue as must make place for one
more, and the same keys from the table. -/
lemma giveUp_spec (capacity : Nat) {table : SourceTable} {order : List String}
    (h : order.Perm table.keys) :
    (giveUp capacity table order).2 = order.drop (order.length + 1 - capacity) ∧
      (giveUp capacity table order).2.Perm (giveUp capacity table order).1.keys := by
  -- the table has as many sources as the queue has keys, so both get shorter in step
  induction order generalizing table with
  | nil => exact ⟨by simp [giveUp], h⟩
  | cons oldest order ih =>
    have hsize : table.size = order.length + 1 := by
      have hlength := h.length_eq
      rw [SourceTable.keys, List.length_map] at hlength
      exact hlength.symm
    rw [giveUp, hsize]
    split_ifs with hfull
    · have herase : order.Perm (table.erase oldest).keys := by
        rw [SourceTable.keys_erase]
        have hperm := h.erase oldest
        rwa [List.erase_cons_head] at hperm
      obtain ⟨hdrop, hperm⟩ := ih herase
      refine ⟨?_, hperm⟩
      have hcount : (oldest :: order).length + 1 - capacity = order.length + 1 - capacity + 1 := by
        rw [List.length_cons]
        omega
      rw [hdrop, hcount, List.drop_succ_cons]
    · have hcount : (oldest :: order).length + 1 - capacity = 0 := by
        rw [List.length_cons]
        omega
      rw [hcount]
      exact ⟨rfl, h⟩

namespace Follows

variable {cache : SourceCache} {log : List String} {key source : String}

lemma nodup (h : cache.Follows log) : cache.order.Nodup := h.perm.nodup_iff.2 cache.table.nodup

lemma get?_eq_none_iff (h : cache.Follows log) : cache.get? key = none ↔ key ∉ cache.order := by
  rw [h.perm.mem_iff]
  exact SourceTable.get?_eq_none_iff

/-! ### A use of a key -/

/-- A key that is in the queue goes to its end. -/
lemma touch (h : cache.Follows log) (hkey : key ∈ cache.order) :
    (cache.touch key).Follows (log ++ [key]) := by
  have horder : (cache.touch key).order = cache.order.erase key ++ [key] := if_pos hkey
  refine ⟨h.room, ?_, ?_⟩
  · rw [horder]
    exact (List.perm_append_singleton key _).trans
      ((List.perm_cons_erase hkey).symm.trans h.perm)
  · rw [h.order_eq] at hkey
    rw [horder, h.order_eq]
    exact (recent_concat_of_mem hkey).symm

/-- A key that is not in the queue is added at its end, and what must make place for it is taken from
the front. -/
lemma add (h : cache.Follows log) (hkey : key ∉ cache.order) (source : String) :
    (cache.add key source).Follows (log ++ [key]) := by
  obtain ⟨hdrop, hperm⟩ := giveUp_spec cache.capacity h.perm
  have horder : (cache.add key source).order =
      cache.order.drop (cache.order.length + 1 - cache.capacity) ++ [key] := by
    rw [← hdrop]
    rfl
  refine ⟨h.room, ?_, ?_⟩
  · have hkeys : (cache.add key source).table.keys =
        (giveUp cache.capacity cache.table cache.order).1.keys.erase key ++ [key] :=
      SourceTable.keys_insert _ key source
    have hrest : key ∉ cache.order.drop (cache.order.length + 1 - cache.capacity) :=
      fun hm => hkey (List.mem_of_mem_drop hm)
    have herase := hperm.erase key
    rw [hdrop, List.erase_of_not_mem hrest] at herase
    rw [horder, hkeys]
    exact herase.append_right [key]
  · rw [h.order_eq] at hkey
    rw [horder, h.order_eq]
    exact (recent_concat_of_notMem h.room hkey).symm

/-! ### Demands -/

/-- A key that is in the queue is supplied from the table. -/
lemma supply_of_mem (h : cache.Follows log) (hkey : key ∈ cache.order)
    (generate : Unit → Except Error String) :
    ∃ source, cache.supply key generate = .ok (source, cache.touch key) := by
  unfold supply
  cases hget : cache.get? key with
  | none => exact absurd hkey (h.get?_eq_none_iff.1 hget)
  | some source => exact ⟨source, rfl⟩

/-- The source of any other key is generated. -/
lemma supply_of_notMem (h : cache.Follows log) (hkey : key ∉ cache.order)
    (generate : Unit → Except Error String) :
    cache.supply key generate = (generate ()).map fun source => (source, cache.add key source) := by
  rw [supply, h.get?_eq_none_iff.2 hkey]

/-- What a demand for a source does: it is a hit if the key is in the queue, and else a miss if
generating the source succeeds, and else it fails. -/
inductive Effect (cache : SourceCache) (key : String) (generated : Except Error String) :
    Prop where
  | hit (found : key ∈ cache.order)
    (success : cache.succeeds (.source key generated) = true)
    (after : cache.met (.source key generated) = cache.touch key)
  | miss (source : String) (absent : key ∉ cache.order) (ok : generated = .ok source)
    (success : cache.succeeds (.source key generated) = true)
    (after : cache.met (.source key generated) = cache.add key source)
  | failure (error : Error) (absent : key ∉ cache.order) (failed : generated = .error error)
    (success : cache.succeeds (.source key generated) = false)
    (after : cache.met (.source key generated) = cache)

lemma effect (h : cache.Follows log) (key : String) (generated : Except Error String) :
    Effect cache key generated := by
  by_cases hkey : key ∈ cache.order
  · obtain ⟨source, hsupply⟩ := h.supply_of_mem hkey fun _ => generated
    refine .hit hkey ?_ ?_
    · rw [succeeds, hsupply]
      rfl
    · rw [met, hsupply]
  · have hsupply := h.supply_of_notMem hkey fun _ => generated
    cases generated with
    | ok source =>
      refine .miss source hkey rfl ?_ ?_
      · rw [succeeds, hsupply]
        rfl
      · rw [met, hsupply]
        rfl
    | error e =>
      refine .failure e hkey rfl ?_ ?_
      · rw [succeeds, hsupply]
        rfl
      · rw [met, hsupply]
        rfl

/-- Every demand keeps the queue in step with the table and with the log. -/
theorem demand (h : cache.Follows log) (demand : Demand) :
    (cache.met demand).Follows (cache.logged log demand) := by
  cases demand with
  | clear => exact ⟨h.room, .refl _, (recent_nil _).symm⟩
  | source key generated =>
    rw [logged]
    cases h.effect key generated with
    | hit found success after =>
      rw [success, after]
      exact h.touch found
    | miss source absent ok success after =>
      rw [success, after]
      exact h.add absent source
    | failure error absent failed success after =>
      rw [success, after]
      exact h

/-- Whether a demand for a source is met, and what it counts as. -/
lemma met_source (h : cache.Follows log) (key : String) (generated : Except Error String) :
    cache.succeeds (.source key generated) = (decide (key ∈ cache.order) || generated.isOk) ∧
    (cache.met (.source key generated)).hits =
      cache.hits + (if key ∈ cache.order then 1 else 0) ∧
    (cache.met (.source key generated)).misses =
      cache.misses + (if key ∉ cache.order ∧ generated.isOk then 1 else 0) ∧
    (key ∉ cache.order ∧ generated.isOk = false → cache.met (.source key generated) = cache) := by
  cases h.effect key generated with
  | hit found success after =>
    rw [success, after]
    simp [found, SourceCache.touch]
  | miss source absent ok success after =>
    subst ok
    rw [success, after]
    simp [absent, SourceCache.add, Except.isOk, Except.toBool]
  | failure error absent failed success after =>
    subst failed
    rw [success, after]
    simp [absent, Except.isOk, Except.toBool]

/-- Hits and misses count the demands that are met. -/
lemma counts_met (h : cache.Follows log) (demand : Demand) :
    (cache.met demand).hits + (cache.met demand).misses =
      cache.hits + cache.misses + if cache.succeeds demand then 1 else 0 := by
  cases demand with
  | clear => rfl
  | source key generated =>
    cases h.effect key generated with
    | hit found success after =>
      rw [success, after]
      show cache.hits + 1 + cache.misses = _
      simp only [if_true]
      omega
    | miss source absent ok success after =>
      rw [success, after]
      rfl
    | failure error absent failed success after =>
      rw [success, after]
      rfl

lemma capacity_met (h : cache.Follows log) (demand : Demand) :
    (cache.met demand).capacity = cache.capacity := by
  cases demand with
  | clear => rfl
  | source key generated =>
    cases h.effect key generated with
    | hit found success after =>
      rw [after]
      rfl
    | miss source absent ok success after =>
      rw [after]
      rfl
    | failure error absent failed success after => rw [after]

/-- The cache after any demands follows the log, and has counted the demands that were met. -/
theorem run (h : cache.Follows log) (demands : List Demand) :
    (cache.metAll demands).Follows (cache.log log demands) ∧
      (cache.metAll demands).capacity = cache.capacity ∧
      (cache.metAll demands).hits + (cache.metAll demands).misses =
        cache.hits + cache.misses + cache.successes demands := by
  induction demands generalizing cache log with
  | nil => exact ⟨h, rfl, rfl⟩
  | cons demand demands ih =>
    obtain ⟨hfollows, hcapacity, hcounts⟩ := ih (h.demand demand)
    refine ⟨hfollows, hcapacity.trans (h.capacity_met demand), ?_⟩
    rw [h.counts_met demand, Nat.add_assoc _ _ (successes _ _)] at hcounts
    exact hcounts

end Follows

lemma follows_bounded (capacity : Nat) : (bounded capacity).Follows [] where
  room := Nat.lt_of_lt_of_le Nat.one_pos (Nat.le_max_right capacity 1)
  perm := .refl _
  order_eq := (recent_nil _).symm

/-- A cache holds the sources that were used last, and no others. After any demands the queue lists
the keys of the table, each once, and these are the last distinct keys that were supplied since the
cache was cleared, as many as there is room for, the one whose use is longest ago first. A demand for
a source counts as a hit iff its key is one of them, and as a miss iff it is none and the source is
generated; else it fails and changes nothing. So hits and misses together are the demands for a
source that were met. What is asked of a cache by a request is such a demand. -/
theorem holds_recent_keys (capacity : Nat) (demands : List Demand) :
    let cache := (bounded capacity).metAll demands
    let window := recent (max capacity 1) ((bounded capacity).log [] demands)
    cache.order = window ∧ cache.order.Nodup ∧ cache.order.Perm cache.table.keys ∧
    cache.hits + cache.misses = (bounded capacity).successes demands ∧
    (∀ key generated,
      let next := cache.met (.source key generated)
      cache.succeeds (.source key generated) = (decide (key ∈ window) || generated.isOk) ∧
      next.hits = cache.hits + (if key ∈ window then 1 else 0) ∧
      next.misses = cache.misses + (if key ∉ window ∧ generated.isOk then 1 else 0) ∧
      (key ∉ window ∧ generated.isOk = false → next = cache)) ∧
    ∀ request, cache.after request = cache.met request.demand := by
  intro cache window
  obtain ⟨hfollows, hcapacity, hcounts⟩ := (follows_bounded capacity).run demands
  have horder : cache.order = window := by
    rw [hfollows.order_eq, hcapacity]
    rfl
  refine ⟨horder, hfollows.nodup, hfollows.perm, ?_, ?_, ?_⟩
  · rw [hcounts]
    exact Nat.zero_add _
  · intro key generated
    rw [← horder]
    exact hfollows.met_source key generated
  · rintro (⟨generator, model⟩ | _)
    · rfl
    · rfl

end SourceCache

end LayerChain
