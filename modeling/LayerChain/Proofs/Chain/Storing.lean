import LayerChain.Proofs.Chain.Persistence

/-!
# Chains that can be stored

A chain that was loaded can be stored again (`Project.storable_of_ofContent`), and edits keep it so
(`Chain.Storable.apply`), as long as the counter stays within the ids and the floating-point numbers
that the edited chain holds come back from their texts.
-/

namespace LayerChain

open Json (Normal Document)
open Json.Decoder

/-- Every floating-point number in a chain comes back from its text. -/
def Chain.FloatsReadBack (chain : Chain) : Prop :=
  ∀ l ∈ chain.layers, l.settings.FloatsReadBack ∧ ∀ p ∈ l.placement, p.FloatsReadBack

lemma Chain.Storable.floatsReadBack {depth : Nat} {chain : Chain} (h : chain.Storable depth) :
    chain.FloatsReadBack := by
  intro l hl
  have hlayer := h.layers l hl
  exact ⟨hlayer.settings, fun p hp => (hlayer.placement p hp).2.floatsReadBack⟩

/-! ## Loaded chains -/

/-- A loaded placement was read as a value other than `null`. -/
lemma Layer.placementDecoder_eq_ok {depth : Nat} {d : Document} {p : Json}
    (h : placementDecoder depth d = .ok (some p)) : any depth d = .ok p ∧ p ≠ .null := by
  obtain ⟨v, hv, h⟩ := bind_eq_ok.1 h
  cases v <;> cases h
  all_goals exact ⟨hv, by simp⟩

/-- The placement of a loaded layer was read from a part of the tree. -/
lemma Layer.placement_of_decoder {depth : Nat} {d : Document} {layer : Layer} (hd : d.Proper)
    (h : decoder (depth + 1) d = .ok layer) :
    ∀ p ∈ layer.placement, ∃ d' : Document, d'.Proper ∧
      placementDecoder depth d' = .ok (some p) := by
  obtain ⟨missing, draft, hdraft, h⟩ := record_slot_eq_ok hd h (rfl : Draft.placement _ = none) (by
      intro f hf draft next d' hread
      simp only [List.mem_cons, List.not_mem_nil, or_false] at hf
      rcases hf with rfl | rfl | rfl | rfl <;> obtain ⟨a, ha, rfl⟩ := map_eq_ok.1 hread
      · exact .inl rfl
      · exact .inl rfl
      · exact .inl rfl
      · exact .inr ⟨a, ha, rfl⟩)
  obtain ⟨id, -, h⟩ := bind_eq_ok.1 h
  obtain ⟨kind, -, h⟩ := bind_eq_ok.1 h
  obtain ⟨settings, -, h⟩ := bind_eq_ok.1 h
  cases h
  intro p hp
  refine hdraft (some p) ?_
  -- a member that is missing counts as no placement, and so does `null`
  cases hplacement : draft.placement with
  | none => simp [hplacement] at hp
  | some q => simpa [hplacement] using hp

lemma Layer.readable_of_decoder {depth : Nat} {d : Document} {layer : Layer} (hd : d.Proper)
    (h : decoder (depth + 1) d = .ok layer) :
    ∀ p ∈ layer.placement, p ≠ .null ∧ Json.Readable depth p := by
  intro p hplacement
  obtain ⟨d', hd', hread⟩ := placement_of_decoder hd h p hplacement
  obtain ⟨hany, hnull⟩ := placementDecoder_eq_ok hread
  exact ⟨hnull, Json.readable_of_any hd' hany⟩

/-- The layers of a loaded record were read from a part of the tree. -/
lemma Chain.layers_of_recordDecoder {depth : Nat} {d : Document} {record : Record} (hd : d.Proper)
    (h : recordDecoder (depth + 1) d = .ok record) :
    ∃ d' : Document, d'.Proper ∧ Json.Decoder.list Layer.decoder depth d' = .ok record.layers := by
  obtain ⟨missing, draft, hdraft, h⟩ := record_slot_eq_ok hd h (rfl : Draft.layers _ = none) (by
      intro f hf draft next d' hread
      simp only [List.mem_cons, List.not_mem_nil, or_false] at hf
      rcases hf with rfl | rfl | rfl <;> obtain ⟨a, ha, rfl⟩ := map_eq_ok.1 hread
      · exact .inl rfl
      · exact .inr ⟨a, ha, rfl⟩
      · exact .inl rfl)
  obtain ⟨inputDimension, -, h⟩ := bind_eq_ok.1 h
  obtain ⟨layers, hlayers, h⟩ := bind_eq_ok.1 h
  cases h
  exact hdraft layers (Json.required_eq_ok hlayers)

/-- The placements of a loaded chain are readable, and none of them is `null`. -/
lemma Chain.placement_of_decoder {depth : Nat} {d : Document} {chain : Chain} (hd : d.Proper)
    (h : decoder (depth + 3) d = .ok chain) :
    ∀ l ∈ chain.layers, ∀ p ∈ l.placement, p ≠ .null ∧ Json.Readable depth p := by
  obtain ⟨record, hrecord, hchain⟩ := exists_record_of_decoder h
  obtain ⟨-, hlayers, -, -⟩ := ofRecord_eq_ok hchain
  obtain ⟨d', hd', hlist⟩ := layers_of_recordDecoder hd hrecord
  intro l hl
  rw [hlayers] at hl
  obtain ⟨dl, hdl, hread⟩ := list_eq_ok hd' hlist l hl
  exact Layer.readable_of_decoder hdl hread

/-- A loaded chain can be loaded again. -/
lemma Chain.loadable_of_decoder {depth : Nat} {d : Document} {chain : Chain} (hd : d.Proper)
    (h : decoder (depth + 3) d = .ok chain) : chain.Loadable depth := by
  obtain ⟨record, -, hchain⟩ := exists_record_of_decoder h
  obtain ⟨-, -, hnumbered, hmax⟩ := ofRecord_eq_ok hchain
  exact ⟨hnumbered, hmax, fun l hl p hp => (placement_of_decoder hd h l hl p hp).2⟩

/-- A loaded chain can be stored, if its floating-point numbers come back. -/
lemma Chain.storable_of_decoder {depth : Nat} {d : Document} {chain : Chain} (hd : d.Proper)
    (h : decoder (depth + 3) d = .ok chain) (hf : chain.FloatsReadBack) :
    chain.Storable depth := by
  have hloadable := loadable_of_decoder hd h
  refine ⟨hloadable.numbered, hloadable.nextId_le, fun l hl => ⟨(hf l hl).1, fun p hp => ?_⟩⟩
  obtain ⟨hnull, hreadable⟩ := placement_of_decoder hd h l hl p hp
  exact ⟨hnull, hreadable.normal ((hf l hl).2 p hp)⟩

namespace Project

lemma chain_of_decoder {depth : Nat} {d : Document} {project : Project} (hd : d.Proper)
    (h : decoder (depth + 1) d = .ok project) :
    ∃ d' : Document, d'.Proper ∧ Chain.decoder depth d' = .ok project.chain := by
  obtain ⟨missing, draft, hdraft, h⟩ := record_slot_eq_ok hd h (rfl : Draft.chain _ = none) (by
      intro f hf draft next d' hread
      simp only [List.mem_cons, List.not_mem_nil, or_false] at hf
      rcases hf with rfl | rfl <;> obtain ⟨a, ha, rfl⟩ := map_eq_ok.1 hread
      · exact .inl rfl
      · exact .inr ⟨a, ha, rfl⟩)
  obtain ⟨version, -, h⟩ := bind_eq_ok.1 h
  obtain ⟨chain, hchain, h⟩ := bind_eq_ok.1 h
  cases h
  exact hdraft chain (Json.required_eq_ok hchain)

/-- A loaded project is of the current version, and its chain was read from a part of the tree. -/
lemma exists_chain_of_ofContent {content : Content} {project : Project}
    (h : ofContent content = .ok project) : project = ofChain project.chain ∧
      ∃ d : Document, d.Proper ∧ Chain.decoder (placementDepth + 3) d = .ok project.chain := by
  obtain ⟨found, hfound, h⟩ := bind_eq_ok.1 h
  rw [Json.Fault.lift, mapError_eq_ok, Json.decode_eq_ok] at hfound
  split_ifs at h with hversion
  cases h
  constructor
  · rw [ofChain, ← hversion]
  · exact chain_of_decoder (Document.proper_ofTokens _) hfound.1

/-- A loaded project is of the current version, and its chain can be loaded again. -/
theorem loadable_of_ofContent {content : Content} {project : Project}
    (h : ofContent content = .ok project) :
    project = ofChain project.chain ∧ project.chain.Loadable placementDepth := by
  obtain ⟨hproject, d, hd, hchain⟩ := exists_chain_of_ofContent h
  exact ⟨hproject, Chain.loadable_of_decoder hd hchain⟩

/-- A loaded project is of the current version, and its chain can be stored. -/
theorem storable_of_ofContent {content : Content} {project : Project}
    (h : ofContent content = .ok project) (hf : project.chain.FloatsReadBack) :
    project = ofChain project.chain ∧ project.chain.Storable placementDepth := by
  obtain ⟨hproject, d, hd, hchain⟩ := exists_chain_of_ofContent h
  exact ⟨hproject, Chain.storable_of_decoder hd hchain hf⟩

end Project

/-! ## Edited chains -/

lemma Kind.floatsReadBack_inferred (kind : Kind) (incoming : Shape) :
    (kind.inferred incoming).FloatsReadBack := by
  rw [inferred]
  split
  · exact Settings.floatsReadBack_empty
  · exact Settings.floatsReadBack_empty.insert (SettingValue.floatsReadBack_int _)

namespace Chain

variable {depth : Nat} {chain next : Chain} {edit : Edit}

lemma storable_new (inputDimension : UInt64) : (new inputDimension).Storable depth := by
  have initial := Initial.new inputDimension
  refine ⟨initial.numbered, initial.nextId_le, ?_⟩
  intro l hl
  cases hl

lemma storable_newLayer (depth : Nat) (chain : Chain) (kind : Kind) :
    (chain.newLayer kind).Storable depth := by
  refine ⟨?_, ?_⟩
  · exact (Catalog.floatsReadBack_defaults kind).merge (kind.floatsReadBack_inferred _)
  · intro p hp
    cases hp

lemma Storable.append (h : chain.Storable depth) (kind : Kind)
    (hmax : (chain.append kind).nextId ≤ Layer.maxId) : (chain.append kind).Storable depth := by
  have hcounter : chain.nextId < maxCounter :=
    Nat.lt_of_le_of_lt h.nextId_le (by decide)
  have happly : chain.apply (.append kind) = .ok (chain.append kind) := rfl
  refine ⟨h.numbered.apply happly hcounter, hmax, ?_⟩
  exact List.forall_mem_append.2
    ⟨h.layers, List.forall_mem_singleton.2 (storable_newLayer depth chain kind)⟩

/-- What holds of all placements of a chain holds of those of an edited chain, if it holds of what
the edit places. -/
lemma forall_placement_of_apply {P : Json → Prop} (h : ∀ l ∈ chain.layers, ∀ p ∈ l.placement, P p)
    (ha : chain.apply edit = .ok next) (hplaced : ∀ id p, edit = .place id p → P p) :
    ∀ l ∈ next.layers, ∀ p ∈ l.placement, P p := by
  intro l hl p hp
  cases origin_of_apply ha hl with
  | kept mem => exact h l mem p hp
  | appended kind => cases hp
  | updated mem _ => exact h _ mem p hp
  | placed mem =>
    cases hp
    exact hplaced _ p rfl
  | refreshed mem incoming => exact h _ mem p hp

/-- A chain that can be stored can be stored after an edit, if its floating-point numbers still come
back, what was placed can be stored, and the counter stays within the ids. -/
theorem Storable.apply (h : chain.Storable depth) (ha : chain.apply edit = .ok next)
    (hplaced : ∀ id p, edit = .place id p → p ≠ .null ∧ Normal depth p)
    (hfloats : next.FloatsReadBack) (hmax : next.nextId ≤ Layer.maxId) : next.Storable depth := by
  have hcounter : chain.nextId < maxCounter :=
    Nat.lt_of_le_of_lt h.nextId_le (by decide)
  have hplacement : ∀ l ∈ next.layers, ∀ p ∈ l.placement, p ≠ .null ∧ Normal depth p :=
    forall_placement_of_apply (fun l hl => (h.layers l hl).placement) ha hplaced
  exact ⟨h.numbered.apply ha hcounter, hmax, fun l hl => ⟨(hfloats l hl).1, hplacement l hl⟩⟩

end Chain

end LayerChain
