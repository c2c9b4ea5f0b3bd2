import LayerChain.Proofs.Json.Tokens

/-!
# Written values are built as their trees

`Json.document` is the tree of a value. The tokens of a value are built into it, and nothing of
what comes after them is touched (`Json.buildsAs_tokens`). So both texts of a value are read as its
tree is read (`Json.decode_compact`, `Json.decode_pretty`).
-/

namespace LayerChain.Json

mutual

/-- The tree of a value. -/
def document : Json → Document
  | null => .leaf (some (.word .null))
  | bool b => .leaf (some (.word (.bool b)))
  | whole n => .leaf (some (.number (.ofWhole n)))
  | float x => .leaf (some (.ofFloat x))
  | text s => .leaf (some (.string (.ofString s)))
  | list items => .list (itemDocuments items) .closed
  | object members => .object (memberDocuments members) .closed

/-- The trees of the items of a list. -/
def itemDocuments : List Json → List Document
  | [] => []
  | v :: rest => document v :: itemDocuments rest

/-- The spellings of the names of some members, and the trees of the members. -/
def memberDocuments : List (String × Json) → List (Lexeme × Document)
  | [] => []
  | (name, v) :: rest => (.ofString name, document v) :: memberDocuments rest

end

namespace Document

variable {token : Token} {tokens after after' : List Token} {d : Document} {ds : List Document}
  {name : Lexeme} {ms : List (Lexeme × Document)}

/-! ## Building step by step -/

/-- A value is built from a token and those after it, of which some are left. -/
def IsValue (token : Token) (tokens : List Token) (d : Document) (after : List Token) : Prop :=
  (value token tokens).1 = d ∧ (value token tokens).2.val = after

/-- Further items of a list up to its end are built from some tokens, of which some are left. -/
def AreItems (tokens : List Token) (ds : List Document) (after : List Token) : Prop :=
  (moreItems tokens).1 = ds ∧ (moreItems tokens).2.1 = .closed ∧ (moreItems tokens).2.2.val = after

/-- Further members of an object up to its end are built from some tokens, of which some are
left. -/
def AreMembers (tokens : List Token) (ms : List (Lexeme × Document)) (after : List Token) : Prop :=
  (moreMembers tokens).1 = ms ∧ (moreMembers tokens).2.1 = .closed ∧
    (moreMembers tokens).2.2.val = after

lemma isValue_leaf (h : ∀ rest, value token rest = (.leaf (some token), ⟨rest, Nat.le_refl _⟩))
    (rest : List Token) : IsValue token rest (.leaf (some token)) rest := by
  rw [IsValue, h]
  exact ⟨rfl, rfl⟩

lemma areItems_close (rest : List Token) : AreItems (.closeList :: rest) [] rest := by
  rw [AreItems, moreItems]
  exact ⟨rfl, rfl, rfl⟩

lemma areMembers_close (rest : List Token) : AreMembers (.closeObject :: rest) [] rest := by
  rw [AreMembers, moreMembers]
  exact ⟨rfl, rfl, rfl⟩

lemma IsValue.exists_eq (h : IsValue token tokens d after) :
    ∃ hle, value token tokens = (d, ⟨after, hle⟩) := by
  obtain ⟨rfl, rfl⟩ := h
  exact ⟨(value token tokens).2.property, rfl⟩

lemma AreItems.exists_eq (h : AreItems tokens ds after) :
    ∃ hle, moreItems tokens = (ds, .closed, ⟨after, hle⟩) := by
  obtain ⟨rfl, hstop, rfl⟩ := h
  exact ⟨(moreItems tokens).2.2.property, by rw [← hstop]⟩

lemma AreMembers.exists_eq (h : AreMembers tokens ms after) :
    ∃ hle, moreMembers tokens = (ms, .closed, ⟨after, hle⟩) := by
  obtain ⟨rfl, hstop, rfl⟩ := h
  exact ⟨(moreMembers tokens).2.2.property, by rw [← hstop]⟩

/-- The first item of a list and the items after it are built. -/
lemma items_cons (hne : token ≠ .closeList) (hd : IsValue token tokens d after)
    (hds : AreItems after ds after') :
    (items (token :: tokens)).1 = d :: ds ∧ (items (token :: tokens)).2.1 = .closed ∧
      (items (token :: tokens)).2.2.val = after' := by
  obtain ⟨hle, hvalue⟩ := hd.exists_eq
  obtain ⟨hle', hmore⟩ := hds.exists_eq
  rw [items, hvalue]
  · dsimp only
    rw [hmore]
    exact ⟨rfl, rfl, rfl⟩
  · exact hne

lemma AreItems.cons (hne : token ≠ .closeList) (hd : IsValue token tokens d after)
    (hds : AreItems after ds after') : AreItems (.comma :: token :: tokens) (d :: ds) after' := by
  have hitems := items_cons hne hd hds
  -- behind a comma the items are built in the same way as behind the bracket
  rw [items] at hitems
  rw [AreItems, moreItems]
  · exact hitems
  · exact hne
  · exact hne

lemma isValue_list_nil (rest : List Token) :
    IsValue .openList (.closeList :: rest) (.list [] .closed) rest := by
  rw [IsValue, value, items]
  exact ⟨rfl, rfl⟩

/-- A list is built from its first item and the further ones. -/
lemma isValue_list (hne : token ≠ .closeList) (hd : IsValue token tokens d after)
    (hds : AreItems after ds after') :
    IsValue .openList (token :: tokens) (.list (d :: ds) .closed) after' := by
  have hitems := items_cons hne hd hds
  rw [IsValue, value]
  generalize items (token :: tokens) = built at hitems ⊢
  obtain ⟨ds', stop, left, hle⟩ := built
  obtain ⟨rfl, rfl, rfl⟩ := hitems
  exact ⟨rfl, rfl⟩

/-- A member's value and the members after it are built. -/
lemma member_cons (name : Lexeme) (hd : IsValue token tokens d after)
    (hms : AreMembers after ms after') :
    (member name (.colon :: token :: tokens)).1 = (name, d) :: ms ∧
      (member name (.colon :: token :: tokens)).2.1 = .closed ∧
      (member name (.colon :: token :: tokens)).2.2.val = after' := by
  obtain ⟨hle, hvalue⟩ := hd.exists_eq
  obtain ⟨hle', hmore⟩ := hms.exists_eq
  rw [member, hvalue]
  dsimp only
  rw [hmore]
  exact ⟨rfl, rfl, rfl⟩

lemma AreMembers.cons (name : Lexeme) (hd : IsValue token tokens d after)
    (hms : AreMembers after ms after') :
    AreMembers (.comma :: .string name :: .colon :: token :: tokens) ((name, d) :: ms) after' := by
  have hmember := member_cons name hd hms
  rw [AreMembers, moreMembers]
  generalize member name (.colon :: token :: tokens) = built at hmember ⊢
  obtain ⟨ms', stop, left, hle⟩ := built
  exact hmember

lemma isValue_object_nil (rest : List Token) :
    IsValue .openObject (.closeObject :: rest) (.object [] .closed) rest := by
  rw [IsValue, value, members]
  exact ⟨rfl, rfl⟩

/-- An object is built from its first member and the further ones. -/
lemma isValue_object (name : Lexeme) (hd : IsValue token tokens d after)
    (hms : AreMembers after ms after') :
    IsValue .openObject (.string name :: .colon :: token :: tokens)
      (.object ((name, d) :: ms) .closed) after' := by
  have hmember := member_cons name hd hms
  rw [IsValue, value, members]
  generalize member name (.colon :: token :: tokens) = built at hmember ⊢
  obtain ⟨ms', stop, left, hle⟩ := built
  obtain ⟨rfl, rfl, rfl⟩ := hmember
  exact ⟨rfl, rfl⟩

end Document

/-! ## Building whole values -/

/-- The tokens of a value are built into its tree, whatever comes after them. -/
def BuildsAs (v : Json) : Prop :=
  ∃ token tail, tokens v = token :: tail ∧ token ≠ .closeList ∧
    ∀ rest, Document.IsValue token (tail ++ rest) (document v) rest

lemma areItems_tokens {items : List Json} (h : ∀ v ∈ items, BuildsAs v) (rest : List Token) :
    Document.AreItems (moreItemTokens items ++ rest) (itemDocuments items) rest := by
  induction items with
  | nil => exact Document.areItems_close rest
  | cons v items ih =>
    obtain ⟨token, tail, ht, hne, hbuild⟩ := h v List.mem_cons_self
    have hitems := ih fun w hw => h w (List.mem_cons_of_mem _ hw)
    have hcs : moreItemTokens (v :: items) ++ rest =
        .comma :: token :: (tail ++ (moreItemTokens items ++ rest)) := by
      simp [moreItemTokens, ht]
    rw [hcs]
    exact .cons hne (hbuild _) hitems

lemma areMembers_tokens {members : List (String × Json)} (h : ∀ m ∈ members, BuildsAs m.2)
    (rest : List Token) :
    Document.AreMembers (moreMemberTokens members ++ rest) (memberDocuments members) rest := by
  induction members with
  | nil => exact Document.areMembers_close rest
  | cons m members ih =>
    obtain ⟨name, v⟩ := m
    obtain ⟨token, tail, ht, -, hbuild⟩ := h (name, v) List.mem_cons_self
    have hmembers := ih fun n hn => h n (List.mem_cons_of_mem _ hn)
    have hcs : moreMemberTokens ((name, v) :: members) ++ rest =
        .comma :: .string (.ofString name) :: .colon :: token ::
          (tail ++ (moreMemberTokens members ++ rest)) := by
      simp [moreMemberTokens, ht]
    rw [hcs]
    exact .cons _ (hbuild _) hmembers

/-- The tokens of a value are built into its tree. -/
theorem buildsAs_tokens (v : Json) : BuildsAs v := by
  induction v using induction with
  | null =>
    exact ⟨_, [], rfl, by simp, Document.isValue_leaf fun rest => by rw [Document.value]⟩
  | bool b =>
    exact ⟨_, [], rfl, by simp, Document.isValue_leaf fun rest => by rw [Document.value]⟩
  | whole n =>
    exact ⟨_, [], rfl, by simp, Document.isValue_leaf fun rest => by rw [Document.value]⟩
  | float x =>
    -- a token that is no number, nor a word or a string, would drop what comes after it
    refine ⟨.number x.numeral, [], by rw [tokens, Token.ofFloat_eq], by simp, ?_⟩
    rw [document, Token.ofFloat_eq]
    exact Document.isValue_leaf fun rest => by rw [Document.value]
  | text s =>
    exact ⟨_, [], rfl, by simp, Document.isValue_leaf fun rest => by rw [Document.value]⟩
  | list items ih =>
    cases items with
    | nil => exact ⟨.openList, [.closeList], rfl, by simp, Document.isValue_list_nil⟩
    | cons v items =>
      refine ⟨.openList, _, rfl, by simp, fun rest => ?_⟩
      obtain ⟨token, tail, ht, hne, hbuild⟩ := ih v List.mem_cons_self
      have hitems := areItems_tokens (fun w hw => ih w (List.mem_cons_of_mem _ hw)) rest
      have hcs : itemTokens (v :: items) ++ rest =
          token :: (tail ++ (moreItemTokens items ++ rest)) := by
        simp [itemTokens, ht]
      rw [hcs]
      exact Document.isValue_list hne (hbuild _) hitems
  | object members ih =>
    cases members with
    | nil => exact ⟨.openObject, [.closeObject], rfl, by simp, Document.isValue_object_nil⟩
    | cons m members =>
      obtain ⟨name, v⟩ := m
      refine ⟨.openObject, _, rfl, by simp, fun rest => ?_⟩
      obtain ⟨token, tail, ht, -, hbuild⟩ := ih (name, v) List.mem_cons_self
      have hmembers := areMembers_tokens (fun n hn => ih n (List.mem_cons_of_mem _ hn)) rest
      have hcs : memberTokens ((name, v) :: members) ++ rest =
          .string (.ofString name) :: .colon :: token ::
            (tail ++ (moreMemberTokens members ++ rest)) := by
        simp [memberTokens, ht]
      rw [hcs]
      exact Document.isValue_object _ (hbuild _) hmembers

/-- The tree of a whole text that is scanned as a value is the tree of the value. -/
theorem ofTokens_of_scansAs {v : Json} {text : List Char} (hs : ScansAs text v) :
    Document.ofTokens (Token.scan (chars text)) = (document v, []) := by
  obtain ⟨token, tail, ht, -, hbuild⟩ := buildsAs_tokens v
  obtain ⟨hvalue, hafter⟩ := hbuild []
  have hscan : Token.scan (chars text) = token :: tail := by
    have hscan := hs [] Numeral.stops_nil
    rw [List.append_nil, ht, Token.scan, List.append_nil] at hscan
    exact hscan
  rw [List.append_nil] at hvalue hafter
  rw [hscan, Document.ofTokens, hvalue, hafter]

/-- A whole text that is scanned as a value is read as the tree of the value. -/
theorem decode_of_scansAs {α : Type} {v : Json} {text : List Char} (hs : ScansAs text v)
    (decoder : Decoder α) :
    decode decoder (chars text) = decoder maxDepth (document v) := by
  rw [decode, ofTokens_of_scansAs hs]
  dsimp only
  cases decoder maxDepth (document v) <;> rfl

/-- The text of a value on one line is read as its tree. -/
theorem decode_compact {α : Type} (v : Json) (decoder : Decoder α) :
    decode decoder (Content.ofString v.compact) = decoder maxDepth (document v) := by
  have htext : Content.ofString v.compact = chars v.compactChars := by
    simp [Content.ofString, compact]
  rw [htext, decode_of_scansAs (scan_compact v)]

/-- The indented text of a value is read as its tree. -/
theorem decode_pretty {α : Type} (v : Json) (decoder : Decoder α) :
    decode decoder (Content.ofString v.pretty) = decoder maxDepth (document v) := by
  have htext : Content.ofString v.pretty = chars (v.prettyChars 0) := by
    simp [Content.ofString, pretty]
  rw [htext, decode_of_scansAs (scan_pretty v 0)]

namespace Document

/-! ## Trees of texts -/

/-- No leaf of a tree is the start of a list or an object. -/
inductive Proper : Document → Prop where
  | leaf {token : Option Token} (list : token ≠ some .openList) (object : token ≠ some .openObject) :
    Proper (.leaf token)
  | list {items : List Document} {stop : ListStop} (proper : ∀ d ∈ items, Proper d) :
    Proper (.list items stop)
  | object {members : List (Lexeme × Document)} {stop : ObjectStop}
    (proper : ∀ m ∈ members, Proper m.2) : Proper (.object members stop)

/-- Whatever is built from some tokens is proper. -/
structure ProperFrom (tokens : List Token) : Prop where
  items : ∀ d ∈ (items tokens).1, Proper d
  moreItems : ∀ d ∈ (moreItems tokens).1, Proper d
  members : ∀ m ∈ (members tokens).1, Proper m.2
  member : ∀ name, ∀ m ∈ (member name tokens).1, Proper m.2
  moreMembers : ∀ m ∈ (moreMembers tokens).1, Proper m.2

variable {tokens : List Token}

lemma proper_none : Proper (.leaf none) := .leaf (by simp) (by simp)

/-- A value is proper if what is built behind its first token is. -/
lemma ProperFrom.value (h : ProperFrom tokens) (token : Token) :
    Proper (value token tokens).1 := by
  rw [Document.value.eq_def]
  split
  case h_1 => exact .list h.items
  case h_2 => exact .object h.members
  case h_3 => exact .leaf (by simp) (by simp)
  case h_4 => exact .leaf (by simp) (by simp)
  case h_5 => exact .leaf (by simp) (by simp)
  case h_6 hlist hobject _ _ _ => exact .leaf (by simpa using hlist) (by simpa using hobject)

section Step

-- the tokens behind the first ones are fewer, so what is built from them is proper already
variable (h : ∀ rest : List Token, rest.length < tokens.length → ProperFrom rest)
include h

lemma proper_items : ∀ d ∈ (items tokens).1, Proper d := by
  rw [items.eq_def]
  split
  case h_1 => simp
  case h_2 => simp
  case h_3 token rest _ =>
    have hrest : rest.length < (token :: rest).length := Nat.lt_succ_self _
    have hafter := (value token rest).2.2
    exact List.forall_mem_cons.2 ⟨(h rest hrest).value token,
      (h _ (Nat.lt_of_le_of_lt hafter hrest)).moreItems⟩

lemma proper_moreItems : ∀ d ∈ (moreItems tokens).1, Proper d := by
  rw [moreItems.eq_def]
  split
  case h_1 => simp
  case h_2 => simp
  case h_3 => exact List.forall_mem_singleton.2 proper_none
  case h_4 => simp
  case h_5 token rest _ =>
    have hrest : rest.length < (Token.comma :: token :: rest).length :=
      Nat.lt_succ_of_lt (Nat.lt_succ_self _)
    have hafter := (value token rest).2.2
    exact List.forall_mem_cons.2 ⟨(h rest hrest).value token,
      (h _ (Nat.lt_of_le_of_lt hafter hrest)).moreItems⟩
  case h_6 => simp

lemma proper_members : ∀ m ∈ (members tokens).1, Proper m.2 := by
  rw [members.eq_def]
  split
  case h_1 => simp
  case h_2 => simp
  case h_3 name rest => exact (h rest (Nat.lt_succ_self _)).member name
  case h_4 => simp

lemma proper_member (name : Lexeme) : ∀ m ∈ (member name tokens).1, Proper m.2 := by
  rw [member.eq_def]
  split
  case h_1 => simp
  case h_2 => exact List.forall_mem_singleton.2 proper_none
  case h_3 token rest =>
    have hrest : rest.length < (Token.colon :: token :: rest).length :=
      Nat.lt_succ_of_lt (Nat.lt_succ_self _)
    have hafter := (value token rest).2.2
    exact List.forall_mem_cons.2 ⟨(h rest hrest).value token,
      (h _ (Nat.lt_of_le_of_lt hafter hrest)).moreMembers⟩
  case h_4 => simp

lemma proper_moreMembers : ∀ m ∈ (moreMembers tokens).1, Proper m.2 := by
  rw [moreMembers.eq_def]
  split
  case h_1 => simp
  case h_2 => simp
  case h_3 => simp
  case h_4 => simp
  case h_5 name rest => exact (h rest (Nat.lt_succ_of_lt (Nat.lt_succ_self _))).member name
  case h_6 => simp
  case h_7 => simp

end Step

/-- What is built from tokens is proper, in whatever place the text stops making sense. -/
theorem properFrom (tokens : List Token) : ProperFrom tokens := by
  induction hn : tokens.length using Nat.strongRecOn generalizing tokens with
  | ind n ih =>
    have h (rest : List Token) (hrest : rest.length < tokens.length) : ProperFrom rest :=
      ih _ (hn ▸ hrest) rest rfl
    exact ⟨proper_items h, proper_moreItems h, proper_members h, proper_member h,
      proper_moreMembers h⟩

lemma proper_ofTokens (tokens : List Token) : Proper (ofTokens tokens).1 := by
  cases tokens with
  | nil => exact proper_none
  | cons token tokens => exact (properFrom tokens).value token

end Document

end LayerChain.Json
