import LayerChain.Chain.Record
import LayerChain.Proofs.Chain.Edits
import Mathlib.Data.List.Nodup

/-!
# Numbered chains

A chain is numbered if its ids are distinct and below its counter. A new chain is, a chain that
was read from a document is, since reading refuses every record that is not
(`Chain.ofRecord_eq_ok`), and edits keep it so as long as the counter is not at its end.
-/

namespace LayerChain

namespace Chain

/-- The ids of a chain are distinct, and the counter is above them. -/
structure Numbered (chain : Chain) : Prop where
  nodup : chain.ids.Nodup
  lt_nextId : ∀ id ∈ chain.ids, id < chain.nextId
  nextId_pos : 0 < chain.nextId

/-- A chain that a session can start with: a new one, or one that was read from a document. -/
inductive Initial : Chain → Prop where
  | new (inputDimension : UInt64) : Initial (Chain.new inputDimension)
  | read {depth : Nat} {document : Json.Document} {chain : Chain}
    (accepted : decoder depth document = .ok chain) : Initial chain

/-! ## Records -/

/-- Looking for a repeated id finds none iff the ids are distinct, and new. -/
lemma firstRepeated?_eq_none {seen ids : List Nat} :
    firstRepeated? seen ids = none ↔ ids.Nodup ∧ ∀ id ∈ ids, id ∉ seen := by
  induction ids generalizing seen with
  | nil => simp [firstRepeated?]
  | cons id rest ih =>
    rw [firstRepeated?]
    by_cases h : id ∈ seen
    · simp [h]
    · rw [if_neg h, ih, List.nodup_cons]
      constructor
      · rintro ⟨hnodup, hseen⟩
        have hrest : id ∉ rest := fun hid => hseen id hid List.mem_cons_self
        refine ⟨⟨hrest, hnodup⟩, ?_⟩
        intro a ha
        rcases List.mem_cons.1 ha with rfl | ha
        · exact h
        · exact fun hs => hseen a ha (List.mem_cons_of_mem _ hs)
      · rintro ⟨⟨hrest, hnodup⟩, hseen⟩
        refine ⟨hnodup, ?_⟩
        intro a ha hs
        rcases List.mem_cons.1 hs with rfl | hs
        · exact hrest ha
        · exact hseen a (List.mem_cons_of_mem _ ha) hs

/-- A greatest member so far is at most the greatest one, and so is every member. -/
lemma le_foldl_max (ns : List Nat) (a : Nat) :
    a ≤ ns.foldl max a ∧ ∀ n ∈ ns, n ≤ ns.foldl max a := by
  induction ns generalizing a with
  | nil => simp
  | cons n rest ih =>
    obtain ⟨hmax, hrest⟩ := ih (max a n)
    refine ⟨Nat.le_trans (Nat.le_max_left a n) hmax, ?_⟩
    intro m hm
    rcases List.mem_cons.1 hm with rfl | hm
    · exact Nat.le_trans (Nat.le_max_right a m) hmax
    · exact hrest m hm

/-- A record that stands for a chain gives a numbered one, whose counter is within the ids. -/
theorem ofRecord_eq_ok {record : Record} {chain : Chain} (h : ofRecord record = .ok chain) :
    chain.inputDimension = record.inputDimension ∧ chain.layers = record.layers ∧
      chain.Numbered ∧ chain.nextId ≤ Layer.maxId := by
  unfold ofRecord at h
  split at h
  · cases h
  · rename_i hnone
    have hgreatest := (le_foldl_max (record.layers.map Layer.id) 0).2
    dsimp only at h
    split_ifs at h with hspace hcounter
    cases h
    refine ⟨rfl, rfl, ⟨(firstRepeated?_eq_none.1 hnone).1, ?_, ?_⟩, Nat.le_of_not_lt hcounter⟩
    · intro id hid
      have hle : id ≤ greatestId record.layers := hgreatest id hid
      exact Nat.lt_of_lt_of_le (Nat.lt_succ_of_le hle) (Nat.le_max_right _ _)
    · exact Nat.lt_of_lt_of_le (Nat.succ_pos _) (Nat.le_max_right _ _)

lemma foldl_max_lt {ns : List Nat} {a b : Nat} (ha : a < b) (h : ∀ n ∈ ns, n < b) :
    ns.foldl max a < b := by
  induction ns generalizing a with
  | nil => exact ha
  | cons n rest ih =>
    have hn : n < b := h n List.mem_cons_self
    exact ih (by omega) fun m hm => h m (List.mem_cons_of_mem _ hm)

/-- The record of a numbered chain stands for it, if the counter is within the ids. -/
theorem ofRecord_of_numbered {chain : Chain} (h : chain.Numbered) (hmax : chain.nextId ≤ Layer.maxId) :
    ofRecord ⟨chain.inputDimension, chain.layers, chain.nextId⟩ = .ok chain := by
  have hnone : firstRepeated? [] (chain.layers.map Layer.id) = none :=
    firstRepeated?_eq_none.2 ⟨h.nodup, by simp⟩
  have hgreatest : greatestId chain.layers < chain.nextId :=
    foldl_max_lt h.nextId_pos h.lt_nextId
  have hcounter : max chain.nextId (greatestId chain.layers + 1) = chain.nextId := by omega
  rw [ofRecord, hnone]
  dsimp only
  rw [hcounter, if_neg (by omega), if_neg (by omega)]

/-- What is read from a document is what some record stands for. -/
lemma exists_record_of_decoder {depth : Nat} {document : Json.Document} {chain : Chain}
    (h : decoder depth document = .ok chain) :
    ∃ record, recordDecoder depth document = .ok record ∧ ofRecord record = .ok chain := by
  obtain ⟨record, hrecord, h⟩ := bind_eq_ok.1 h
  exact ⟨record, hrecord, mapError_eq_ok.1 h⟩

/-! ## Chains that are edited -/

namespace Initial

variable {chain : Chain}

lemma numbered (h : chain.Initial) : chain.Numbered := by
  cases h with
  | new n => exact ⟨List.nodup_nil, by simp [ids, Chain.new], Nat.one_pos⟩
  | read accepted =>
    obtain ⟨record, -, hr⟩ := exists_record_of_decoder accepted
    exact (ofRecord_eq_ok hr).2.2.1

lemma nextId_le (h : chain.Initial) : chain.nextId ≤ Layer.maxId := by
  cases h with
  | new n => exact show 1 ≤ Layer.maxId by decide
  | read accepted =>
    obtain ⟨record, -, hr⟩ := exists_record_of_decoder accepted
    exact (ofRecord_eq_ok hr).2.2.2

end Initial

namespace Numbered

variable {chain next : Chain}

/-- Within a numbered chain an id names one layer, so layers of one kind. -/
lemma kind_eq (h : chain.Numbered) {id : Nat} {k k' : Kind} (hk : (id, k) ∈ chain.skeleton)
    (hk' : (id, k') ∈ chain.skeleton) : k = k' := by
  have hnodup : (chain.skeleton.map Prod.fst).Nodup := chain.ids_eq_skeleton ▸ h.nodup
  exact congrArg Prod.snd (List.inj_on_of_nodup_map hnodup hk hk' rfl)

lemma lt_of_mem_skeleton (h : chain.Numbered) {id : Nat} {k : Kind}
    (hk : (id, k) ∈ chain.skeleton) : id < chain.nextId := by
  refine h.lt_nextId id ?_
  rw [ids_eq_skeleton]
  exact List.mem_map_of_mem hk

/-- A chain with some of the layers of a numbered chain and its counter is numbered. -/
lemma of_sublist (h : chain.Numbered) (hs : next.skeleton.Sublist chain.skeleton)
    (hn : next.nextId = chain.nextId) : next.Numbered := by
  have hids : next.ids.Sublist chain.ids := by
    rw [ids_eq_skeleton, ids_eq_skeleton]
    exact hs.map Prod.fst
  refine ⟨hids.nodup h.nodup, ?_, hn ▸ h.nextId_pos⟩
  intro id hid
  rw [hn]
  exact h.lt_nextId id (hids.subset hid)

/-- An edit of a numbered chain gives a numbered chain, unless the counter is at its end. -/
theorem apply (h : chain.Numbered) {edit : Edit} (ha : chain.apply edit = .ok next)
    (hc : chain.nextId < maxCounter) : next.Numbered := by
  rcases apply_cases ha with ⟨kind, -, hs, hn⟩ | ⟨-, hs, hn⟩
  · have hn' : next.nextId = chain.nextId + 1 := by omega
    have hids : next.ids = chain.ids ++ [chain.nextId] := by
      rw [ids_eq_skeleton, hs, List.map_append, ← ids_eq_skeleton]
      rfl
    refine ⟨?_, ?_, by omega⟩
    · rw [hids, List.nodup_append]
      refine ⟨h.nodup, List.pairwise_singleton _ _, ?_⟩
      intro a ha b hb
      rw [List.mem_singleton] at hb
      have := h.lt_nextId a ha
      omega
    · intro id hid
      rw [hids, List.mem_append, List.mem_singleton] at hid
      rcases hid with hid | rfl
      · have := h.lt_nextId id hid
        omega
      · omega
  · exact h.of_sublist hs hn

/-- Raising the counter keeps a chain numbered. -/
lemma raiseCounter (h : chain.Numbered) (nextId : Nat) : (chain.raiseCounter nextId).Numbered where
  nodup := h.nodup
  lt_nextId id hid := Nat.lt_of_lt_of_le (h.lt_nextId id hid) (Nat.le_max_left _ _)
  nextId_pos := Nat.lt_of_lt_of_le h.nextId_pos (Nat.le_max_left _ _)

end Numbered

end Chain

end LayerChain
