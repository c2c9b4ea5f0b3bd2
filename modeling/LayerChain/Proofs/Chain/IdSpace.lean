import LayerChain.Proofs.Chain.Confluence
import LayerChain.Proofs.Chain.Persistence

/-!
# The space of ids

Reading refuses ids and counters beyond `Layer.maxId`, while editing lets the counter go on up to
`maxCounter`. How far it goes is decided by the number of appended layers (`Chain.nextId_edited`),
and with it which ids are handed out (`Chain.issuedIds_eq`). So an edited chain stays within the
ids that reading accepts exactly as long as the appended layers fit into them: all of its ids do
as long as the last of them is at most `Layer.maxId` (`Chain.ids_within_iff`), and its record is
accepted again as long as there is one id left (`Chain.accepted_edited_iff`).
-/

namespace LayerChain

/-- Whether an edit appends a layer. -/
def Edit.isAppend : Edit → Bool
  | .append _ => true
  | .update .. | .remove _ | .setInputDimension _ | .place .. | .repropagate => false

/-- How many layers some edits append. -/
def appends (edits : List Edit) : Nat := edits.countP Edit.isAppend

namespace Chain

/-- The chain after some edits. -/
def edited (chain : Chain) (edits : List Edit) : Chain := edits.foldl perform chain

/-- The ids that some edits hand out, in their order. -/
def issuedIds (chain : Chain) : List Edit → List Nat
  | [] => []
  | edit :: rest => (chain.issuedId? edit).toList ++ (chain.perform edit).issuedIds rest

/-! ## The counter -/

section

variable {chain next : Chain} {edit : Edit}

lemma perform_of_ok (h : chain.apply edit = .ok next) : chain.perform edit = next := by
  rw [perform, h]

lemma perform_of_error {e : Error} (h : chain.apply edit = .error e) :
    chain.perform edit = chain := by
  rw [perform, h]

lemma issuedId?_eq (chain : Chain) (edit : Edit) :
    chain.issuedId? edit = if edit.isAppend then some chain.nextId else none := by
  cases edit <;> rfl

/-- Appending never fails. -/
lemma isAppend_of_error {e : Error} (h : chain.apply edit = .error e) :
    edit.isAppend = false := by
  cases edit with
  | append kind => cases h
  | _ => rfl

/-- An appended layer moves the counter on by one, up to its end, and nothing else moves it. -/
lemma nextId_perform (hc : chain.nextId ≤ maxCounter) (edit : Edit) :
    (chain.perform edit).nextId =
      min (chain.nextId + if edit.isAppend then 1 else 0) maxCounter := by
  cases ha : chain.apply edit with
  | error e =>
    rw [perform_of_error ha, isAppend_of_error ha]
    simp [hc]
  | ok next =>
    rw [perform_of_ok ha]
    rcases apply_cases ha with ⟨kind, hi, -, hn⟩ | ⟨hi, -, hn⟩
    · have happ : edit.isAppend = true := by simpa [issuedId?_eq] using hi
      rw [hn, if_pos happ]
    · have hkeep : ¬ edit.isAppend = true := by simpa [issuedId?_eq] using hi
      rw [hn, if_neg hkeep]
      omega

lemma nextId_perform_le (hc : chain.nextId ≤ maxCounter) (edit : Edit) :
    (chain.perform edit).nextId ≤ maxCounter := by
  rw [nextId_perform hc]
  exact Nat.min_le_right _ _

lemma appends_cons (edit : Edit) (edits : List Edit) :
    appends (edit :: edits) = (if edit.isAppend then 1 else 0) + appends edits := by
  rw [appends, List.countP_cons, Nat.add_comm]
  rfl

/-- The counter has moved on by the number of appended layers, up to its end. -/
theorem nextId_edited (hc : chain.nextId ≤ maxCounter) (edits : List Edit) :
    (chain.edited edits).nextId = min (chain.nextId + appends edits) maxCounter := by
  induction edits generalizing chain with
  | nil => exact (Nat.min_eq_left hc).symm
  | cons edit edits ih =>
    have hrest : (chain.edited (edit :: edits)).nextId =
        min ((chain.perform edit).nextId + appends edits) maxCounter :=
      ih (nextId_perform_le hc edit)
    rw [hrest, nextId_perform hc, appends_cons]
    omega

/-- The ids are handed out one after the other, the last one of all again and again. -/
theorem issuedIds_eq (hc : chain.nextId ≤ maxCounter) (edits : List Edit) :
    chain.issuedIds edits =
      (List.range (appends edits)).map fun i => min (chain.nextId + i) maxCounter := by
  induction edits generalizing chain with
  | nil => rfl
  | cons edit edits ih =>
    have hnext := nextId_perform hc edit
    rw [issuedIds, ih (nextId_perform_le hc edit), appends_cons]
    by_cases happ : edit.isAppend = true
    · have hfirst : chain.nextId = min (chain.nextId + 0) maxCounter := by omega
      have hrest : ∀ i, min ((chain.perform edit).nextId + i) maxCounter =
          min (chain.nextId + (i + 1)) maxCounter := by
        intro i
        rw [hnext, if_pos happ]
        omega
      rw [issuedId?_eq, if_pos happ, if_pos happ, Nat.add_comm 1, List.range_succ_eq_map,
        List.map_cons, List.map_map, ← hfirst]
      simp only [hrest]
      rfl
    · have hsame : (chain.perform edit).nextId = chain.nextId := by
        rw [hnext, if_neg happ]
        omega
      rw [issuedId?_eq, if_neg happ, if_neg happ, hsame, Nat.zero_add]
      rfl

end

/-! ## Edited chains -/

/-- What holds of a chain whatever edits it has seen: no id is beyond the counter, and the ids are
distinct as long as the counter is not at its end. -/
structure Counted (chain : Chain) : Prop where
  nextId_le : chain.nextId ≤ maxCounter
  id_le : ∀ id ∈ chain.ids, id ≤ chain.nextId
  numbered : chain.nextId < maxCounter → chain.Numbered

variable {chain next start : Chain}

/-- A numbered chain is counted, if its counter is in its range. -/
lemma Numbered.counted (h : chain.Numbered) (hmax : chain.nextId ≤ maxCounter) :
    chain.Counted where
  nextId_le := hmax
  id_le id hid := Nat.le_of_lt (h.lt_nextId id hid)
  numbered _ := h

lemma Initial.counted (h : chain.Initial) : chain.Counted :=
  h.numbered.counted (Nat.le_trans h.nextId_le (by decide))

namespace Counted

/-- An edit keeps a chain counted. -/
theorem apply (h : chain.Counted) {edit : Edit} (ha : chain.apply edit = .ok next) :
    next.Counted := by
  obtain ⟨hle, hmax⟩ := counter_le_of_apply ha h.nextId_le
  refine ⟨hmax, ?_, fun hlt => ?_⟩
  · intro id hid
    rw [ids_eq_skeleton] at hid
    rcases apply_cases ha with ⟨kind, -, hs, -⟩ | ⟨-, hs, hn⟩
    · rw [hs, List.map_append, List.mem_append, ← ids_eq_skeleton] at hid
      rcases hid with hid | hid
      · exact Nat.le_trans (h.id_le id hid) hle
      · rw [List.mem_singleton.1 hid]
        exact hle
    · have hid : id ∈ chain.ids := by
        rw [ids_eq_skeleton]
        exact (hs.map Prod.fst).subset hid
      exact Nat.le_trans (h.id_le id hid) hle
  · have hbefore : chain.nextId < maxCounter := Nat.lt_of_le_of_lt hle hlt
    exact (h.numbered hbefore).apply ha hbefore

lemma perform (h : chain.Counted) (edit : Edit) : (chain.perform edit).Counted := by
  cases ha : chain.apply edit with
  | error e => rwa [perform_of_error ha]
  | ok next =>
    rw [perform_of_ok ha]
    exact h.apply ha

/-- Edits keep a chain counted. -/
theorem edited (h : chain.Counted) (edits : List Edit) : (chain.edited edits).Counted := by
  induction edits generalizing chain with
  | nil => exact h
  | cons edit edits ih => exact ih (h.perform edit)

lemma id_lt (h : chain.Counted) : ∀ id ∈ chain.ids, id < UInt64.size := by
  intro id hid
  have hsize : maxCounter < UInt64.size := by decide
  have hle := h.id_le id hid
  have hmax := h.nextId_le
  omega

lemma nextId_lt (h : chain.Counted) : chain.nextId < UInt64.size :=
  Nat.lt_of_le_of_lt h.nextId_le (by decide)

lemma withoutNulls (h : chain.Counted) : chain.withoutNulls.Counted where
  nextId_le := h.nextId_le
  id_le := by
    rw [ids_withoutNulls]
    exact h.id_le
  numbered hlt := by
    obtain ⟨hnodup, hids, hpos⟩ := h.numbered hlt
    rw [← ids_withoutNulls] at hnodup hids
    exact ⟨hnodup, hids, hpos⟩

end Counted

/-! ## What reading accepts -/

/-- What a record stands for has at least the counter of the record. -/
lemma nextId_le_of_ofRecord {record : Record} (h : ofRecord record = .ok chain) :
    record.nextId ≤ chain.nextId := by
  unfold ofRecord at h
  split at h
  · cases h
  · dsimp only at h
    split_ifs at h
    cases h
    exact Nat.le_max_left _ _

/-- The record of a counted chain stands for the chain, if its counter is within the ids. -/
lemma Counted.ofRecord_record (h : chain.Counted) (hmax : chain.nextId ≤ Layer.maxId) :
    ofRecord chain.record = .ok chain :=
  ofRecord_of_numbered (h.numbered (Nat.lt_of_le_of_lt hmax (by decide))) hmax

/-- The record of a counted chain is accepted iff its counter is within the ids. -/
theorem Counted.accepted_iff (h : chain.Counted) :
    (∃ read, ofRecord chain.record = .ok read) ↔ chain.nextId ≤ Layer.maxId := by
  constructor
  · rintro ⟨read, hr⟩
    exact Nat.le_trans (nextId_le_of_ofRecord hr) (ofRecord_eq_ok hr).2.2.2
  · intro hmax
    exact ⟨chain, h.ofRecord_record hmax⟩

/-- The record of an edited chain is accepted iff there is an id left for one more layer. -/
theorem accepted_edited_iff (initial : start.Initial) (edits : List Edit) :
    (∃ read, ofRecord (start.edited edits).record = .ok read) ↔
      start.nextId + appends edits ≤ Layer.maxId := by
  have hmax : Layer.maxId < maxCounter := by decide
  rw [(initial.counted.edited edits).accepted_iff, nextId_edited initial.counted.nextId_le]
  omega

/-- All ids that edits hand out, and all ids of the edited chain, are within the ids iff the
appended layers fit into them. -/
theorem ids_within_iff (initial : start.Initial) (edits : List Edit) :
    (∀ id ∈ start.issuedIds edits ++ (start.edited edits).ids, id ≤ Layer.maxId) ↔
      start.nextId + appends edits ≤ Layer.maxId + 1 := by
  have hmax : Layer.maxId + 1 < maxCounter := by decide
  have hstart := initial.nextId_le
  have hcounted := initial.counted.edited edits
  have hnext := nextId_edited initial.counted.nextId_le edits
  rw [issuedIds_eq initial.counted.nextId_le]
  constructor
  · intro h
    -- the last layer that was appended has the greatest id
    by_cases hnone : appends edits = 0
    · omega
    · have hlast := h (min (start.nextId + (appends edits - 1)) maxCounter)
        (List.mem_append_left _ (List.mem_map.2
          ⟨appends edits - 1, List.mem_range.2 (by omega), rfl⟩))
      omega
  · intro h id hid
    rcases List.mem_append.1 hid with hid | hid
    · obtain ⟨i, hi, rfl⟩ := List.mem_map.1 hid
      have hi := List.mem_range.1 hi
      omega
    · have hlt := (hcounted.numbered (by omega)).lt_nextId id hid
      omega

end Chain

end LayerChain
