import LayerChain.Proofs.Chain.IdSpace
import LayerChain.Proofs.Chain.Positions
import LayerChain.Proofs.Session.Identity
import Mathlib.Order.Bounds.Basic

/-!
# Records are validated exactly

A record is refused for the first reason in a fixed order: a layer has the id of an earlier one, the
greatest id is too great, or no id is left (`Chain.Record.Refused`). Records that are not refused
stand for chains, and in these, and in all that they are edited into, looking for a layer by its id
and by its position come to the same (`Chain.Coherent`, `Chain.ofRecord_validates`).

Ids and counters are words of 64 bits in documents. `Chain.ofRecordInWords` makes the one sum that
validation needs in such words; since the greatest id is checked before, the sum always fits.
-/

namespace LayerChain

namespace Chain

/-- The ids of the layers of a record. -/
def Record.ids (record : Record) : List Nat := record.layers.map Layer.id

/-! ## Repeated ids -/

/-- The first repeated member stands behind members that are distinct, and new, and it is one of
these or of those seen before. -/
lemma firstRepeated?_eq_some {seen ids : List Nat} {id : Nat} :
    firstRepeated? seen ids = some id ↔
      ∃ before after, ids = before ++ id :: after ∧ before.Nodup ∧ (∀ a ∈ before, a ∉ seen) ∧
        (id ∈ before ∨ id ∈ seen) := by
  induction ids generalizing seen with
  | nil => simp [firstRepeated?]
  | cons first rest ih =>
    rw [firstRepeated?]
    by_cases hseen : first ∈ seen
    · rw [if_pos hseen, Option.some.injEq]
      constructor
      · rintro rfl
        exact ⟨[], rest, rfl, List.nodup_nil, by simp, .inr hseen⟩
      · rintro ⟨before, after, hids, -, hnew, -⟩
        cases before with
        | nil => exact (List.cons.inj hids).1
        | cons b before =>
          obtain rfl := (List.cons.inj hids).1
          exact absurd hseen (hnew first List.mem_cons_self)
    · rw [if_neg hseen, ih]
      -- the first id counts as seen by the rest, so what is new there is also not the first
      constructor
      · rintro ⟨before, after, rfl, hnodup, hnew, hid⟩
        have hfirst : first ∉ before := fun hm => hnew first hm List.mem_cons_self
        refine ⟨first :: before, after, rfl, List.nodup_cons.2 ⟨hfirst, hnodup⟩, ?_, ?_⟩
        · intro a ha
          rcases List.mem_cons.1 ha with rfl | ha
          · exact hseen
          · exact fun hs => hnew a ha (List.mem_cons_of_mem _ hs)
        · rw [List.mem_cons] at hid ⊢
          tauto
      · rintro ⟨before, after, hids, hnodup, hnew, hid⟩
        cases before with
        | nil =>
          obtain rfl := (List.cons.inj hids).1
          exact absurd (hid.resolve_left List.not_mem_nil) hseen
        | cons b before =>
          obtain ⟨rfl, rfl⟩ := List.cons.inj hids
          obtain ⟨hfirst, hnodup⟩ := List.nodup_cons.1 hnodup
          refine ⟨before, after, rfl, hnodup, ?_, ?_⟩
          · intro a ha hs
            rcases List.mem_cons.1 hs with rfl | hs
            · exact hfirst ha
            · exact hnew a (List.mem_cons_of_mem _ ha) hs
          · rw [List.mem_cons] at hid ⊢
            tauto

/-! ## Refusals -/

/-- A number is the greatest id of a record; without layers it is zero. -/
def Record.HasGreatest (record : Record) (greatest : Nat) : Prop :=
  (∀ id ∈ record.ids, id ≤ greatest) ∧
    (greatest ∈ record.ids ∨ record.ids = [] ∧ greatest = 0)

/-- A record is refused: because the id of a layer is that of an earlier one, the layers before it
having distinct ids, because the greatest id is too great, or because no id is left behind the ids
and the counter. The reasons go in this order. -/
inductive Record.Refused (record : Record) : Refusal → Prop where
  | repeated {before after : List Layer} {layer : Layer}
    (layers_eq : record.layers = before ++ layer :: after)
    (nodup : (before.map Layer.id).Nodup) (mem : layer.id ∈ before.map Layer.id) :
    Refused record (.duplicateId layer.id)
  | outside {greatest : Nat} (nodup : record.ids.Nodup) (isGreatest : record.HasGreatest greatest)
    (beyond : Layer.maxId < greatest) : Refused record (.outsideIdSpace greatest)
  | exhausted {greatest : Nat} (nodup : record.ids.Nodup) (isGreatest : record.HasGreatest greatest)
    (within : greatest ≤ Layer.maxId) (beyond : Layer.maxId < max record.nextId (greatest + 1)) :
    Refused record (.exhausted (max record.nextId (greatest + 1)))

lemma foldl_max_mem (ns : List Nat) (a : Nat) : ns.foldl max a ∈ ns ∨ ns.foldl max a = a := by
  induction ns generalizing a with
  | nil => exact .inr rfl
  | cons n rest ih =>
    rw [List.foldl_cons]
    rcases ih (max a n) with hmem | heq
    · exact .inl (List.mem_cons_of_mem _ hmem)
    · rw [heq]
      rcases Nat.le_total a n with hle | hle
      · rw [Nat.max_eq_right hle]
        exact .inl List.mem_cons_self
      · exact .inr (Nat.max_eq_left hle)

lemma hasGreatest_greatestId (record : Record) : record.HasGreatest (greatestId record.layers) := by
  refine ⟨(le_foldl_max record.ids 0).2, ?_⟩
  rcases foldl_max_mem record.ids 0 with hmem | hzero
  · exact .inl hmem
  · cases hids : record.ids with
    | nil => exact .inr ⟨rfl, hzero⟩
    | cons id rest =>
      -- the greatest id is zero, so this one is
      have hid : id ≤ record.ids.foldl max 0 :=
        (le_foldl_max record.ids 0).2 id (hids ▸ List.mem_cons_self)
      have hgreatest : greatestId record.layers = id := by
        rw [greatestId]
        exact hzero.trans (Nat.le_zero.1 (hzero ▸ hid)).symm
      rw [hgreatest]
      exact .inl List.mem_cons_self

lemma Record.HasGreatest.eq_greatestId {record : Record} {greatest : Nat}
    (h : record.HasGreatest greatest) : greatest = greatestId record.layers := by
  obtain ⟨hle, hmem⟩ := h
  obtain ⟨hle', hmem'⟩ := hasGreatest_greatestId record
  rcases hmem with hmem | ⟨hnil, rfl⟩
  · rcases hmem' with hmem' | ⟨hnil, -⟩
    · exact Nat.le_antisymm (hle' _ hmem) (hle _ hmem')
    · rw [hnil] at hmem
      cases hmem
  · rcases hmem' with hmem' | ⟨-, hzero⟩
    · rw [hnil] at hmem'
      cases hmem'
    · exact hzero.symm

/-- The refusal of a record whose ids are distinct, or its chain. -/
lemma ofRecord_of_nodup {record : Record} (h : record.ids.Nodup) :
    ofRecord record =
      if Layer.maxId < greatestId record.layers then
        .error (.outsideIdSpace (greatestId record.layers))
      else if Layer.maxId < max record.nextId (greatestId record.layers + 1) then
        .error (.exhausted (max record.nextId (greatestId record.layers + 1)))
      else .ok ⟨record.inputDimension, record.layers,
        max record.nextId (greatestId record.layers + 1)⟩ := by
  have hnone : firstRepeated? [] (record.layers.map Layer.id) = none :=
    firstRepeated?_eq_none.2 ⟨h, by simp⟩
  rw [ofRecord, hnone]

/-- A record without a refusal for a repeated id has distinct ids. -/
lemma nodup_or_repeated (record : Record) :
    record.ids.Nodup ∨ ∃ id, ofRecord record = .error (.duplicateId id) ∧
      firstRepeated? [] record.ids = some id := by
  cases hrepeated : firstRepeated? [] record.ids with
  | none => exact .inl (firstRepeated?_eq_none.1 hrepeated).1
  | some id =>
    refine .inr ⟨id, ?_, rfl⟩
    rw [Record.ids] at hrepeated
    rw [ofRecord, hrepeated]

/-- The first repeated id of a record is that of a layer behind layers with distinct ids. -/
lemma firstRepeated?_ids_eq_some {record : Record} {id : Nat} :
    firstRepeated? [] record.ids = some id ↔
      ∃ before layer after, record.layers = before ++ layer :: after ∧ layer.id = id ∧
        (before.map Layer.id).Nodup ∧ id ∈ before.map Layer.id := by
  rw [firstRepeated?_eq_some]
  constructor
  · rintro ⟨before, after, hids, hnodup, -, hmem⟩
    obtain ⟨ls, rest, hlayers, rfl, hrest⟩ := List.map_eq_append_iff.1 hids
    obtain ⟨layer, ms, rfl, hid, -⟩ := List.map_eq_cons_iff.1 hrest
    exact ⟨ls, layer, ms, hlayers, hid, hnodup, hmem.resolve_right List.not_mem_nil⟩
  · rintro ⟨before, layer, after, hlayers, rfl, hnodup, hmem⟩
    refine ⟨before.map Layer.id, after.map Layer.id, ?_, hnodup, by simp, .inl hmem⟩
    rw [Record.ids, hlayers, List.map_append, List.map_cons]

/-- A record is refused for the reasons that there are, in their order. -/
theorem ofRecord_eq_error_iff {record : Record} {refusal : Refusal} :
    ofRecord record = .error refusal ↔ record.Refused refusal := by
  constructor
  · intro h
    rcases nodup_or_repeated record with hnodup | ⟨id, herror, hrepeated⟩
    · rw [ofRecord_of_nodup hnodup] at h
      split_ifs at h with hspace hcounter
      · cases h
        exact .outside hnodup (hasGreatest_greatestId record) hspace
      · cases h
        exact .exhausted hnodup (hasGreatest_greatestId record) (Nat.le_of_not_lt hspace) hcounter
    · rw [herror] at h
      cases h
      obtain ⟨before, layer, after, hlayers, rfl, hnodup, hmem⟩ :=
        firstRepeated?_ids_eq_some.1 hrepeated
      exact .repeated hlayers hnodup hmem
  · intro h
    cases h with
    | @repeated before after layer hlayers hnodup hmem =>
      have hrepeated : firstRepeated? [] (record.layers.map Layer.id) = some layer.id :=
        firstRepeated?_ids_eq_some.2 ⟨before, layer, after, hlayers, rfl, hnodup, hmem⟩
      rw [ofRecord, hrepeated]
    | outside hnodup hgreatest hbeyond =>
      obtain rfl := hgreatest.eq_greatestId
      rw [ofRecord_of_nodup hnodup, if_pos hbeyond]
    | exhausted hnodup hgreatest hwithin hbeyond =>
      obtain rfl := hgreatest.eq_greatestId
      rw [ofRecord_of_nodup hnodup, if_neg (Nat.not_lt.2 hwithin), if_pos hbeyond]

/-- A record stands for a chain iff its ids are distinct and within the ids, and there is one
left. -/
theorem exists_ofRecord_iff {record : Record} :
    (∃ chain, ofRecord record = .ok chain) ↔
      record.ids.Nodup ∧ (∀ id ∈ record.ids, id ≤ Layer.maxId) ∧
        max record.nextId (greatestId record.layers + 1) ≤ Layer.maxId := by
  constructor
  · rintro ⟨chain, h⟩
    rcases nodup_or_repeated record with hnodup | ⟨id, herror, -⟩
    · rw [ofRecord_of_nodup hnodup] at h
      split_ifs at h with hspace hcounter
      refine ⟨hnodup, fun id hid => ?_, Nat.le_of_not_lt hcounter⟩
      exact Nat.le_trans ((hasGreatest_greatestId record).1 id hid) (Nat.le_of_not_lt hspace)
    · rw [herror] at h
      cases h
  · rintro ⟨hnodup, -, hcounter⟩
    have hspace : ¬ Layer.maxId < greatestId record.layers := by omega
    rw [ofRecord_of_nodup hnodup, if_neg hspace, if_neg (Nat.not_lt.2 hcounter)]
    exact ⟨_, rfl⟩

/-- The counter of the chain of a record is the least one above all its ids that is neither zero nor
below its own counter. -/
lemma isLeast_nextId {record : Record} {chain : Chain} (h : ofRecord record = .ok chain) :
    IsLeast {n | (∀ id ∈ record.ids, id < n) ∧ 1 ≤ n ∧ record.nextId ≤ n} chain.nextId := by
  have hnodup := (exists_ofRecord_iff.1 ⟨chain, h⟩).1
  rw [ofRecord_of_nodup hnodup] at h
  split_ifs at h
  cases h
  obtain ⟨hle, hmem⟩ := hasGreatest_greatestId record
  have habove : greatestId record.layers + 1 ≤ max record.nextId (greatestId record.layers + 1) :=
    Nat.le_max_right _ _
  refine ⟨⟨fun id hid => ?_, ?_, Nat.le_max_left _ _⟩, ?_⟩
  · exact Nat.lt_of_lt_of_le (Nat.lt_succ_of_le (hle id hid)) habove
  · exact Nat.le_trans (Nat.succ_pos _) habove
  · rintro n ⟨habove, hpos, hcounter⟩
    refine Nat.max_le.2 ⟨hcounter, ?_⟩
    rcases hmem with hmem | ⟨-, hzero⟩
    · exact habove _ hmem
    · rw [hzero]
      exact hpos

/-! ## Words -/

/-- The next word of 64 bits, if there is one. -/
def nextWord? (n : Nat) : Option Nat := if n + 1 < UInt64.size then some (n + 1) else none

/-- The chain that a record stands for, with the sum made in words of 64 bits; none if the sum does
not fit. -/
def ofRecordInWords (record : Record) : Option (Except Refusal Chain) :=
  match firstRepeated? [] record.ids with
  | some id => some (.error (.duplicateId id))
  | none =>
    let greatest := greatestId record.layers
    if Layer.maxId < greatest then some (.error (.outsideIdSpace greatest))
    else do
      let nextId := max record.nextId (← nextWord? greatest)
      if Layer.maxId < nextId then return .error (.exhausted nextId)
      else return .ok ⟨record.inputDimension, record.layers, nextId⟩

/-- The sum always fits. -/
theorem ofRecordInWords_eq (record : Record) :
    ofRecordInWords record = some (ofRecord record) := by
  rcases nodup_or_repeated record with hnodup | ⟨id, herror, hrepeated⟩
  · rw [ofRecordInWords, firstRepeated?_eq_none.2 ⟨hnodup, by simp⟩, ofRecord_of_nodup hnodup]
    dsimp only
    by_cases hspace : Layer.maxId < greatestId record.layers
    · rw [if_pos hspace, if_pos hspace]
    · have hmax : Layer.maxId + 1 < UInt64.size := by decide
      have hnext : nextWord? (greatestId record.layers) = some (greatestId record.layers + 1) :=
        if_pos (by omega)
      rw [if_neg hspace, if_neg hspace, hnext, Option.bind_eq_bind, Option.bind_some]
      split <;> rfl
  · rw [ofRecordInWords, hrepeated, herror]

/-! ## Looking for layers -/

/-- Looking for a layer by its id and by its position come to the same. -/
structure Coherent (chain : Chain) : Prop where
  position_id : ∀ {position layer}, chain.at? position = some layer →
    chain.position? layer.id = some position
  get_id : ∀ id, chain.get? id = (chain.position? id).bind chain.at?

lemma Numbered.coherent {chain : Chain} (h : chain.Numbered) : chain.Coherent where
  position_id := h.position?_id
  get_id id := by
    cases hposition : chain.position? id with
    | none =>
      rw [position?, List.findIdx?_eq_none_iff] at hposition
      exact List.find?_eq_none.2 fun l hl => by simp [hposition l hl]
    | some position =>
      obtain ⟨hlt, hid, hbefore⟩ := List.findIdx?_eq_some_iff_getElem.1 hposition
      have hget : chain.get? id = some chain.layers[position] :=
        List.find?_eq_some_iff_getElem.2
          ⟨hid, position, hlt, rfl, fun j hj => by simpa using hbefore j hj⟩
      exact hget.trans (List.getElem?_eq_getElem hlt).symm

/-- Reading validates records exactly. A record stands for a chain iff its ids are distinct and
within the ids and the counter behind its greatest id and its own counter is, too; otherwise it is
refused for the first of the reasons. In words of 64 bits nothing overflows on the way. The chain
of a record has its feature count and its layers and the least counter there can be. And in all
that this chain is edited into, directly or in a session with undos, layers are found by id where
they are found by position, as long as fewer than `2 ^ 64 - 2 ^ 53` layers are appended. -/
theorem ofRecord_validates :
    (∀ record : Record,
      record.HasGreatest (greatestId record.layers) ∧
      ((∃ chain, ofRecord record = .ok chain) ↔
        record.ids.Nodup ∧ (∀ id ∈ record.ids, id ≤ Layer.maxId) ∧
          max record.nextId (greatestId record.layers + 1) ≤ Layer.maxId) ∧
      (∀ refusal, ofRecord record = .error refusal ↔ record.Refused refusal) ∧
      ofRecordInWords record = some (ofRecord record)) ∧
    ∀ {record : Record} {chain : Chain}, ofRecord record = .ok chain →
      chain.inputDimension = record.inputDimension ∧ chain.layers = record.layers ∧
      IsLeast {n | (∀ id ∈ record.ids, id < n) ∧ 1 ≤ n ∧ record.nextId ≤ n} chain.nextId ∧
      (∀ edits : List Edit, appends edits < 2 ^ 64 - 2 ^ 53 →
        (chain.edited edits).Coherent) ∧
      ∀ (config : Config) (calls : List Session.Call),
        ((Session.ofChain chain config).issued calls).length < 2 ^ 64 - 2 ^ 53 →
        ∀ c ∈ (Session.ofChain chain config).snapshots calls, c.Coherent := by
  refine ⟨fun record => ⟨hasGreatest_greatestId record, exists_ofRecord_iff,
    fun _ => ofRecord_eq_error_iff, ofRecordInWords_eq record⟩, fun {record chain} h => ?_⟩
  obtain ⟨hinput, hlayers, hnumbered, hmax⟩ := ofRecord_eq_ok h
  have hcounter : chain.nextId + (2 ^ 64 - 2 ^ 53) ≤ maxCounter := by
    rw [show maxCounter = 2 ^ 64 - 1 from rfl]
    rw [show Layer.maxId = 2 ^ 53 - 1 from rfl] at hmax
    omega
  refine ⟨hinput, hlayers, isLeast_nextId h, fun edits hfew => ?_, fun config calls hfew c hc => ?_⟩
  · have hcounted := hnumbered.counted (Nat.le_trans hmax (by decide))
    have hnext := nextId_edited hcounted.nextId_le edits
    exact ((hcounted.edited edits).numbered (by omega)).coherent
  · have hroom : chain.nextId + (([] : List Nat).length +
        ((Session.ofChain chain config).issued calls).length) < maxCounter := by
      rw [List.length_nil]
      omega
    have hledger := (Session.Ledger.start config hnumbered).after calls hroom
    exact (hledger.numbered c (List.mem_append_right _ hc)).coherent

/-- A record with a counter that is too low stands for a chain whose counter is behind its ids, and
layers are found in it after two edits, and in a session with an undo. -/
theorem ofRecord_validates_low_counter :
    let layers : List Layer := [⟨3, .dense, Settings.empty, none⟩, ⟨2, .flatten, Settings.empty, none⟩]
    let chain : Chain := ⟨784, layers, 4⟩
    let edits : List Edit := [.append .dropout, .remove 3]
    let calls : List Session.Call := [.append .dropout, .undo]
    ofRecord ⟨784, layers, 1⟩ = .ok chain ∧
      appends edits < 2 ^ 64 - 2 ^ 53 ∧ (chain.edited edits).Coherent ∧
      ((Session.ofChain chain {}).issued calls).length < 2 ^ 64 - 2 ^ 53 ∧
      ∀ c ∈ (Session.ofChain chain {}).snapshots calls, c.Coherent := by
  intro layers chain edits calls
  have hread : ofRecord ⟨784, layers, 1⟩ = .ok chain := rfl
  have hfew : appends edits < 2 ^ 64 - 2 ^ 53 := by decide
  have hissued : (Session.ofChain chain {}).issued calls = [4] := by decide +kernel
  have hfewCalls : ((Session.ofChain chain {}).issued calls).length < 2 ^ 64 - 2 ^ 53 := by
    rw [hissued]
    decide
  obtain ⟨-, -, -, hedits, hcalls⟩ := ofRecord_validates.2 hread
  exact ⟨hread, hfew, hedits edits hfew, hfewCalls, hcalls {} calls hfewCalls⟩

end Chain

end LayerChain
