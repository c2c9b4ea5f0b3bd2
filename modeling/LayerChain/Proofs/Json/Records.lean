import LayerChain.Proofs.Json.Values

/-!
# Structures that come back

What the decoders of the common types read from the tree of a written value, and what a decoder of
structures reads from the tree of a written object, field by field (`Decoder.readMembers_field`).
In the other direction, a structure that was read from any tree is finished from a draft whose
fields were read from parts of the tree (`Decoder.record_eq_ok`).
-/

namespace LayerChain.Json

namespace Decoder

/-! ## Values of the common types -/

lemma nat_document {bound : Nat} (hbound : bound ≤ UInt64.size) (type : String) (depth : Nat) {n : Nat}
    (h : n < bound) : nat bound type depth (document (.whole n)) = .ok n := by
  have hrange : Numeral.InRange n := by
    have hmax : Numeral.maxSignificand + 1 = UInt64.size := by decide
    constructor <;> omega
  rw [nat, found_whole hrange]
  simp only [bind, Except.bind]
  rw [if_pos (by omega)]
  rfl

lemma variant_document {α : Type} {ofName? : String → Option α} {name : String} {a : α}
    (h : ofName? name = some a) (alternatives : List String) (depth : Nat) :
    variant ofName? alternatives depth (document (.text name)) = .ok a := by
  rw [document, variant]
  simp only [Lexeme.text_ofString, bind, Except.bind, h]
  rfl

/-- The items of a written list are read one by one, up to the first that is refused. -/
lemma list_document_eq {α β : Type} {item : Decoder β} {encode : α → Json}
    {read : α → Except Fault β} {depth : Nat} {values : List α}
    (h : ∀ a ∈ values, item depth (document (encode a)) = read a) :
    list item (depth + 1) (document (.list (values.map encode))) = values.mapM read := by
  have hitems : (itemDocuments (values.map encode)).mapM (item depth) = values.mapM read := by
    induction values with
    | nil => rfl
    | cons a values ih =>
      have ha := h a List.mem_cons_self
      have hvalues := ih fun b hb => h b (List.mem_cons_of_mem _ hb)
      rw [List.map_cons, itemDocuments, List.mapM_cons, List.mapM_cons, ha, hvalues]
  rw [document, list, enter, hitems]
  cases values.mapM read <;> rfl

/-- The items of a written list are read one by one. -/
lemma list_document {α β : Type} {item : Decoder β} {encode : α → Json} {readAs : α → β} {depth : Nat}
    {values : List α} (h : ∀ a ∈ values, item depth (document (encode a)) = .ok (readAs a)) :
    list item (depth + 1) (document (.list (values.map encode))) = .ok (values.map readAs) :=
  (list_document_eq h).trans List.mapM_pure

/-- The members of a written object are read one by one, up to the first that is refused. -/
lemma entries_document_eq {α β : Type} {value : Decoder β} {encode : α → Json}
    {read : α → Except Fault β} {depth : Nat} {entries : List (String × α)} (expected : String)
    (h : ∀ e ∈ entries, value depth (document (encode e.2)) = read e.2) :
    Decoder.entries value expected (depth + 1)
      (document (.object (entries.map fun e => (e.1, encode e.2)))) =
        entries.mapM fun e => (read e.2).map fun b => (e.1, b) := by
  have hmembers : (memberDocuments (entries.map fun e => (e.1, encode e.2))).mapM
      (fun m => do
        let name ← m.1.text
        return (name, ← value depth m.2)) =
          entries.mapM fun e => (read e.2).map fun b => (e.1, b) := by
    induction entries with
    | nil => rfl
    | cons e entries ih =>
      have he := h e List.mem_cons_self
      have hentries := ih fun b hb => h b (List.mem_cons_of_mem _ hb)
      rw [List.map_cons, memberDocuments, List.mapM_cons, List.mapM_cons]
      dsimp only
      rw [Lexeme.text_ofString, he, hentries]
      cases read e.2 <;> rfl
  rw [document, Decoder.entries, enter, hmembers]
  cases entries.mapM fun e => (read e.2).map fun b => (e.1, b) <;> rfl

/-! ## Written structures -/

variable {σ α : Type} {fields : List (Field σ)}

lemma slot_read {value : Decoder α} {name : String} {get : σ → Option α} {set : σ → α → σ}
    {depth : Nat} {draft : σ} {d : Document} {a : α} (h : value depth d = .ok a) :
    (Field.slot name get set value).read draft depth d = .ok (set draft a) := by
  simp only [Field.slot, h, Except.map]

/-- A member of a written object is read into the slot of its name, and then the others are read. -/
lemma readMembers_slot {β : Type} {depth : Nat} {draft : σ} {name : String} {get : σ → Option β}
    {set : σ → β → σ} {value : Decoder β}
    (hf : fieldFor fields draft name = .ok (some (.slot name get set value))) (v : Json)
    (members : List (String × Json)) :
    readMembers fields depth draft (memberDocuments ((name, v) :: members)) =
      value depth (document v) >>= fun b =>
        readMembers fields depth (set draft b) (memberDocuments members) := by
  rw [memberDocuments, readMembers, Lexeme.text_ofString]
  simp only [bind, Except.bind, hf, Field.slot]
  cases value depth (document v) <;> rfl

/-- A member of a written object is read by the field of its name. -/
lemma readMembers_field {depth : Nat} {draft next : σ} {name : String} {v : Json} {f : Field σ}
    (hf : fieldFor fields draft name = .ok (some f)) (hr : f.read draft depth (document v) = .ok next)
    (members : List (String × Json)) :
    readMembers fields depth draft (memberDocuments ((name, v) :: members)) =
      readMembers fields depth next (memberDocuments members) := by
  rw [memberDocuments, readMembers, Lexeme.text_ofString]
  simp only [bind, Except.bind, hf, hr]

/-- A written object is a structure if its members are read and make a draft that can be
finished. -/
lemma record_document_eq {name : String} {empty : σ} {finish : (String → Fault) → σ → Except Fault α}
    {depth : Nat} {members : List (String × Json)} :
    record name fields empty finish (depth + 1) (document (.object members)) =
      readMembers fields depth empty (memberDocuments members) >>= finish .missingField := by
  rw [document, record]
  simp only [enter, bind, Except.bind]
  cases readMembers fields depth empty (memberDocuments members) <;> rfl

/-- A written object is a structure if its members make a draft that can be finished. -/
lemma record_document {name : String} {empty draft : σ}
    {finish : (String → Fault) → σ → Except Fault α} {depth : Nat} {members : List (String × Json)}
    {a : α} (h : readMembers fields depth empty (memberDocuments members) = .ok draft)
    (hf : finish .missingField draft = .ok a) :
    record name fields empty finish (depth + 1) (document (.object members)) = .ok a := by
  rw [record_document_eq, h]
  exact hf

/-! ## What was read -/

lemma mismatch_ne_ok {α : Type} (d : Document) (expected : String) (a : α) :
    d.mismatch expected ≠ .ok a := by
  intro h
  obtain ⟨found, -, h⟩ := bind_eq_ok.1 h
  cases h

lemma mem_of_fieldFor {draft : σ} {name : String} {f : Field σ}
    (h : fieldFor fields draft name = .ok (some f)) : f ∈ fields := by
  rw [fieldFor] at h
  cases hf : fields.find? fun f => f.name == name with
  | none =>
    rw [hf] at h
    cases h
  | some g =>
    rw [hf] at h
    dsimp only at h
    split_ifs at h
    cases h
    exact List.mem_of_find?_eq_some hf

lemma readMembers_eq_ok {P : σ → Prop} {depth : Nat} {draft last : σ}
    {members : List (Lexeme × Document)} (hm : ∀ m ∈ members, m.2.Proper)
    (h : readMembers fields depth draft members = .ok last) (hp : P draft)
    (hread : ∀ f ∈ fields, ∀ draft next d, d.Proper → P draft → f.read draft depth d = .ok next →
      P next) : P last := by
  induction members generalizing draft with
  | nil =>
    cases h
    exact hp
  | cons m members ih =>
    obtain ⟨name, d⟩ := m
    obtain ⟨hd, hrest⟩ := List.forall_mem_cons.1 hm
    rw [readMembers, bind_eq_ok] at h
    obtain ⟨name, -, h⟩ := h
    obtain ⟨found, hfound, h⟩ := bind_eq_ok.1 h
    cases found with
    | none =>
      obtain ⟨-, -, h⟩ := bind_eq_ok.1 h
      exact ih hrest h hp
    | some f =>
      obtain ⟨next, hnext, h⟩ := bind_eq_ok.1 h
      exact ih hrest h (hread f (mem_of_fieldFor hfound) draft next d hd hp hnext)

lemma readItems_eq_ok {P : σ → Prop} {depth : Nat} {stop : ListStop} {draft last : σ}
    {fields : List (Field σ)} {items : List Document} (hi : ∀ d ∈ items, d.Proper)
    (h : readItems depth stop draft fields items = .ok last) (hp : P draft)
    (hread : ∀ f ∈ fields, ∀ draft next d, d.Proper → P draft → f.read draft depth d = .ok next →
      P next) : P last := by
  induction fields generalizing draft items with
  | nil =>
    cases items with
    | nil =>
      obtain ⟨-, -, rfl⟩ := map_eq_ok.1 h
      exact hp
    | cons d items => cases h
  | cons f fields ih =>
    obtain ⟨hf, hfields⟩ := List.forall_mem_cons.1 hread
    cases items with
    | nil =>
      obtain ⟨-, -, rfl⟩ := map_eq_ok.1 h
      exact hp
    | cons d items =>
      obtain ⟨hd, hitems⟩ := List.forall_mem_cons.1 hi
      rw [readItems, bind_eq_ok] at h
      obtain ⟨next, hnext, h⟩ := h
      exact ih hitems h (hf draft next d hd hp hnext) hfields

/-- A structure that was read is finished from a draft that its fields made one after the other:
what holds of the empty draft and is kept by each field holds of that draft. -/
theorem record_eq_ok {P : σ → Prop} {name : String} {empty : σ}
    {finish : (String → Fault) → σ → Except Fault α} {depth : Nat} {d : Document} {a : α}
    (hd : d.Proper) (h : record name fields empty finish (depth + 1) d = .ok a) (hempty : P empty)
    (hread : ∀ f ∈ fields, ∀ draft next d, d.Proper → P draft → f.read draft depth d = .ok next →
      P next) : ∃ missing draft, P draft ∧ finish missing draft = .ok a := by
  -- a list fills the fields in their order, an object in that of its members
  cases hd with
  | leaf => exact absurd h (mismatch_ne_ok _ _ a)
  | list proper =>
    obtain ⟨draft, hdraft, h⟩ := bind_eq_ok.1 h
    exact ⟨_, draft, readItems_eq_ok proper hdraft hempty hread, h⟩
  | object proper =>
    obtain ⟨draft, hdraft, h⟩ := bind_eq_ok.1 h
    obtain ⟨-, -, h⟩ := bind_eq_ok.1 h
    exact ⟨_, draft, readMembers_eq_ok proper hdraft hempty hread, h⟩

/-- What the draft of a structure has in a slot was read from a part of the tree. -/
lemma record_slot_eq_ok {β : Type} {get : σ → Option β} {value : Decoder β} {name : String}
    {empty : σ} {finish : (String → Fault) → σ → Except Fault α} {depth : Nat} {d : Document} {a : α}
    (hd : d.Proper) (h : record name fields empty finish (depth + 1) d = .ok a)
    (hempty : get empty = none)
    (hread : ∀ f ∈ fields, ∀ draft next d, f.read draft depth d = .ok next →
      get next = get draft ∨ ∃ b, value depth d = .ok b ∧ get next = some b) :
    ∃ missing draft, (∀ b, get draft = some b → ∃ d' : Document, d'.Proper ∧ value depth d' = .ok b) ∧
      finish missing draft = .ok a := by
  refine record_eq_ok hd h (by simp [hempty]) ?_
  intro f hf draft next d' hd' hp hnext
  rcases hread f hf draft next d' hnext with hsame | ⟨b, hb, hget⟩
  · rw [hsame]
    exact hp
  · intro c hc
    rw [hget] at hc
    cases hc
    exact ⟨d', hd', hb⟩

/-- The values of a list that was read are read from parts of the tree. -/
lemma list_eq_ok {item : Decoder α} {depth : Nat} {d : Document} {values : List α}
    (hd : d.Proper) (h : list item (depth + 1) d = .ok values) :
    ∀ a ∈ values, ∃ d' : Document, d'.Proper ∧ item depth d' = .ok a := by
  cases hd with
  | leaf => exact absurd h (mismatch_ne_ok _ _ values)
  | list proper =>
    obtain ⟨as, hitems, h⟩ := bind_eq_ok.1 h
    obtain ⟨-, -, h⟩ := bind_eq_ok.1 h
    cases h
    intro a ha
    obtain ⟨d, hd, hitem⟩ := mapM_eq_ok hitems a ha
    exact ⟨d, proper d hd, hitem⟩
  | object proper => exact absurd h (mismatch_ne_ok _ _ values)

end Decoder

lemma required_eq_ok {α : Type} {missing : String → Fault} {name : String} {o : Option α} {a : α}
    (h : required missing name o = .ok a) : o = some a := by
  cases o with
  | none => cases h
  | some b =>
    cases h
    rfl

end LayerChain.Json
