import LayerChain.Proofs.Chain.IdSpace
import LayerChain.Proofs.Chain.Storing

/-!
# Writing and reading a chain

A chain is written on one line or indented, and either form is read the same way
(`Chain.ofText_of_legible`). However a chain was edited, it comes back from its forms exactly as
long as its counter is within the ids, and all that writing and reading changes is that a placement
that is `null` is no placement any more. A chain that was read once is not changed at all.
-/

namespace LayerChain

open Json (document)

namespace Chain

/-- How many levels a placement may nest in the text of a chain. -/
def placementDepth : Nat := 124

/-- The texts that a chain is written as: on one line, and indented. -/
def forms (chain : Chain) : List String := [chain.toJson.compact, chain.toJson.pretty]

variable {chain start : Chain} {text : String}

/-! ## Chains that are written -/

/-- A form of a legible chain is read as the chain, or it is refused for its ids or its counter. -/
theorem ofText_of_legible (h : chain.Legible placementDepth) (ht : text ∈ chain.forms) :
    ofText text = (ofRecord chain.withoutNulls.record).mapError fun refusal =>
      .malformed (.refused refusal.message) := by
  have hdecode : Json.decodeString decoder text = decoder Json.maxDepth (document chain.toJson) := by
    simp only [forms, List.mem_cons, List.not_mem_nil, or_false] at ht
    rcases ht with rfl | rfl
    · exact Json.decode_compact chain.toJson decoder
    · exact Json.decode_pretty chain.toJson decoder
  have hread : decoder Json.maxDepth (document chain.toJson) = _ := decoder_document h
  rw [ofText, hdecode, hread]
  cases ofRecord chain.withoutNulls.record <;> rfl

/-- A form of an edited chain is read exactly as long as the counter is within the ids. -/
lemma exists_ofText_iff (h : chain.Counted) (hl : ∀ l ∈ chain.layers, l.Legible placementDepth)
    (ht : text ∈ chain.forms) :
    (∃ read, ofText text = .ok read) ↔ chain.nextId ≤ Layer.maxId := by
  have hread := ofText_of_legible ⟨hl, h.id_lt, h.nextId_lt⟩ ht
  rw [show chain.nextId = chain.withoutNulls.nextId from rfl, ← h.withoutNulls.accepted_iff, hread]
  simp only [mapError_eq_ok]

/-- What is read from a form of an edited chain is the chain without the placements that are
`null`. -/
lemma eq_of_ofText (h : chain.Counted) (hl : ∀ l ∈ chain.layers, l.Legible placementDepth)
    (ht : text ∈ chain.forms) {read : Chain} (hr : ofText text = .ok read) :
    read = chain.withoutNulls := by
  have hmax : chain.withoutNulls.nextId ≤ Layer.maxId :=
    (exists_ofText_iff h hl ht).1 ⟨read, hr⟩
  rw [ofText_of_legible ⟨hl, h.id_lt, h.nextId_lt⟩ ht, h.withoutNulls.ofRecord_record hmax] at hr
  exact (Except.ok.inj hr).symm

/-! ## Chains that were read -/

/-- A chain that was read comes back from its forms. -/
lemma ofText_of_decode {content : Content} (h : Json.decode decoder content = .ok chain)
    (hf : chain.FloatsReadBack) (ht : text ∈ chain.forms) : ofText text = .ok chain := by
  have hread := (Json.decode_eq_ok.1 h).1
  have hstorable : chain.Storable placementDepth :=
    storable_of_decoder (Json.Document.proper_ofTokens _) hread hf
  rw [ofText_of_legible hstorable.legible ht, hstorable.ofRecord_withoutNulls]
  rfl

/-- A project that was loaded comes back from its file. -/
lemma ofContent_of_ofContent {content : Content} {project : Project}
    (h : Project.ofContent content = .ok project) (hf : project.chain.FloatsReadBack) :
    Project.ofContent (Content.ofString project.text) = .ok project := by
  obtain ⟨hproject, hstorable⟩ := Project.storable_of_ofContent h hf
  rw [hproject]
  exact Project.ofContent_text hstorable

/-! ## Both -/

/-- Writing and reading a chain is exact. However a new chain, or one that was read, was edited, it
comes back from each of its forms iff its counter is within the ids, and it comes back as it is,
without the placements that are `null`. What was read once, as a chain or with its project, comes
back from what is written for it without any change. The floating-point numbers come back from
their texts, and the placements nest no deeper than the reader allows. -/
theorem persistence_exact :
    (∀ {start : Chain} (edits : List Edit), start.Initial →
      (∀ l ∈ (start.edited edits).layers, l.Legible placementDepth) →
      ∀ text ∈ (start.edited edits).forms,
        ((∃ read, ofText text = .ok read) ↔ (start.edited edits).nextId ≤ Layer.maxId) ∧
          ∀ read, ofText text = .ok read → read = (start.edited edits).withoutNulls) ∧
    (∀ {content : Content} {chain : Chain}, Json.decode decoder content = .ok chain →
      chain.FloatsReadBack → ∀ text ∈ chain.forms, ofText text = .ok chain) ∧
    (∀ {content : Content} {project : Project}, Project.ofContent content = .ok project →
      project.chain.FloatsReadBack →
        Project.ofContent (Content.ofString project.text) = .ok project) := by
  refine ⟨?_, ?_, ?_⟩
  · intro start edits initial hl text ht
    have hcounted := initial.counted.edited edits
    exact ⟨exists_ofText_iff hcounted hl ht, fun read hr => eq_of_ofText hcounted hl ht hr⟩
  · intro content chain h hf text ht
    exact ofText_of_decode h hf ht
  · intro content project h hf
    exact ofContent_of_ofContent h hf

/-- A dropout layer that was placed at `null` comes back from the text of its chain without a
placement, and then it comes back as it is, from the text of the chain and from a project file. -/
theorem persistence_exact_on_dropout :
    ofText ((new 784).edited [.append .dropout, .place 1 .null]).toJson.compact =
        .ok ((new 784).append .dropout) ∧
      ofText ((new 784).append .dropout).toJson.pretty = .ok ((new 784).append .dropout) ∧
      Project.ofContent (Content.ofString (Project.ofChain ((new 784).append .dropout)).text) =
        .ok (Project.ofChain ((new 784).append .dropout)) := by
  have hlayer := (new 784).storable_newLayer Project.placementDepth .dropout
  have hlegible : ∀ l ∈ ((new 784).edited [.append .dropout, .place 1 .null]).layers,
      l.Legible placementDepth := by
    refine List.forall_mem_singleton.2 ⟨hlayer.settings, ?_⟩
    rintro p hp
    cases hp
    exact .null _
  have hstorable : ((new 784).append .dropout).Storable Project.placementDepth :=
    (storable_new 784).append .dropout (by decide)
  have hfloats := hstorable.floatsReadBack
  obtain ⟨hedited, hwritten, hloaded⟩ := persistence_exact
  obtain ⟨hiff, hsame⟩ := hedited [.append .dropout, .place 1 .null] (.new 784) hlegible _
    List.mem_cons_self
  obtain ⟨read, hr⟩ := hiff.2 (by decide)
  obtain rfl := hsame read hr
  refine ⟨hr, ?_, hloaded (Project.ofContent_text hstorable) hfloats⟩
  exact hwritten (mapError_eq_ok.1 hr) hfloats _ (List.mem_cons_of_mem _ List.mem_cons_self)

end Chain

end LayerChain
