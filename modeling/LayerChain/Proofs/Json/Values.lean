import LayerChain.Proofs.Json.Documents
import LayerChain.Proofs.Results
import Mathlib.Data.String.Basic

/-!
# Values that come back

A value is readable for a depth if it nests no deeper, its whole numbers have at most 64 bits, and
the members of its objects are sorted. From the tree of such a value the same value is read, with
every floating-point number read again (`Json.any_document_eq_reread`), and any value that was read
is readable (`Json.readable_of_any`).

A readable value whose floating-point numbers all come back is normal. It is read again as itself
(`Json.reread_of_floatsReadBack`), so normal values are those that come back from their trees.
-/

namespace LayerChain.Json

/-- Every floating-point number in a value comes back from its text. -/
inductive FloatsReadBack : Json → Prop where
  | null : FloatsReadBack .null
  | bool (b : Bool) : FloatsReadBack (.bool b)
  | whole (n : Int) : FloatsReadBack (.whole n)
  | float {x : Binary64} (back : x.ReadsBack) : FloatsReadBack (.float x)
  | text (s : String) : FloatsReadBack (.text s)
  | list {items : List Json} (back : ∀ v ∈ items, FloatsReadBack v) : FloatsReadBack (.list items)
  | object {members : List (String × Json)} (back : ∀ m ∈ members, FloatsReadBack m.2) :
    FloatsReadBack (.object members)

/-- A value that comes back where so many levels may be nested. -/
inductive Normal : Nat → Json → Prop where
  | null (depth : Nat) : Normal depth .null
  | bool (depth : Nat) (b : Bool) : Normal depth (.bool b)
  | whole (depth : Nat) {n : Int} (inRange : Numeral.InRange n) : Normal depth (.whole n)
  | float (depth : Nat) {x : Binary64} (back : x.ReadsBack) : Normal depth (.float x)
  | text (depth : Nat) (s : String) : Normal depth (.text s)
  | list {depth : Nat} {items : List Json} (normal : ∀ v ∈ items, Normal depth v) :
    Normal (depth + 1) (.list items)
  | object {depth : Nat} {members : List (String × Json)}
    (sorted : members.Pairwise fun m n => m.1 < n.1) (normal : ∀ m ∈ members, Normal depth m.2) :
    Normal (depth + 1) (.object members)

/-- A value that is read, if its floating-point numbers are, where so many levels may be nested. -/
inductive Readable : Nat → Json → Prop where
  | null (depth : Nat) : Readable depth .null
  | bool (depth : Nat) (b : Bool) : Readable depth (.bool b)
  | whole (depth : Nat) {n : Int} (inRange : Numeral.InRange n) : Readable depth (.whole n)
  | float (depth : Nat) (x : Binary64) : Readable depth (.float x)
  | text (depth : Nat) (s : String) : Readable depth (.text s)
  | list {depth : Nat} {items : List Json} (readable : ∀ v ∈ items, Readable depth v) :
    Readable (depth + 1) (.list items)
  | object {depth : Nat} {members : List (String × Json)}
    (sorted : members.Pairwise fun m n => m.1 < n.1)
    (readable : ∀ m ∈ members, Readable depth m.2) : Readable (depth + 1) (.object members)

lemma Normal.readable {depth : Nat} {v : Json} (h : Normal depth v) : Readable depth v := by
  induction h with
  | null depth => exact .null depth
  | bool depth b => exact .bool depth b
  | whole depth inRange => exact .whole depth inRange
  | @float depth x back => exact .float depth x
  | text depth s => exact .text depth s
  | list normal ih => exact .list ih
  | object sorted normal ih => exact .object sorted ih

lemma Readable.normal {depth : Nat} {v : Json} (h : Readable depth v) (hv : v.FloatsReadBack) :
    Normal depth v := by
  induction h with
  | null depth => exact .null depth
  | bool depth b => exact .bool depth b
  | whole depth inRange => exact .whole depth inRange
  | float depth x =>
    cases hv with
    | float back => exact .float depth back
  | text depth s => exact .text depth s
  | list readable ih =>
    cases hv with
    | list back => exact .list fun v hv => ih v hv (back v hv)
  | object sorted readable ih =>
    cases hv with
    | object back => exact .object sorted fun m hm => ih m hm (back m hm)

mutual

/-- The value that is read where a value was written: every floating-point number is read again. -/
def reread : Json → Except Fault Json
  | float x => x.reread.map .float
  | list items => (rereadItems items).map .list
  | object members => (rereadMembers members).map .object
  | null => .ok .null
  | bool b => .ok (.bool b)
  | whole n => .ok (.whole n)
  | text s => .ok (.text s)

/-- The items that are read where the items of a list were written. -/
def rereadItems : List Json → Except Fault (List Json)
  | [] => .ok []
  | v :: rest => do
    let value ← reread v
    let values ← rereadItems rest
    return value :: values

/-- The members that are read where the members of an object were written. -/
def rereadMembers : List (String × Json) → Except Fault (List (String × Json))
  | [] => .ok []
  | (name, v) :: rest => do
    let value ← reread v
    let values ← rereadMembers rest
    return (name, value) :: values

end

/-! ## Sorted members -/

lemma mem_insertSorted {name : String} {v : Json} {members : List (String × Json)}
    {m : String × Json} (h : m ∈ insertSorted name v members) : m = (name, v) ∨ m ∈ members := by
  induction members with
  | nil => exact .inl (List.mem_singleton.1 h)
  | cons n rest ih =>
    obtain ⟨k, w⟩ := n
    rw [insertSorted] at h
    split_ifs at h
    · exact List.mem_cons.1 h
    · rcases List.mem_cons.1 h with h | h
      · exact .inl h
      · exact .inr (List.mem_cons_of_mem _ h)
    · rcases List.mem_cons.1 h with h | h
      · exact .inr (h ▸ List.mem_cons_self)
      · exact (ih h).imp_right (List.mem_cons_of_mem _)

lemma sorted_insertSorted (name : String) (v : Json) {members : List (String × Json)}
    (h : members.Pairwise fun m n => m.1 < n.1) :
    (insertSorted name v members).Pairwise fun m n => m.1 < n.1 := by
  induction members with
  | nil => exact List.pairwise_singleton _ _
  | cons n rest ih =>
    obtain ⟨k, w⟩ := n
    obtain ⟨hk, hrest⟩ := List.pairwise_cons.1 h
    rw [insertSorted]
    split_ifs with hlt heq
    · refine List.pairwise_cons.2 ⟨?_, h⟩
      intro m hm
      rcases List.mem_cons.1 hm with rfl | hm
      · exact hlt
      · exact lt_trans hlt (hk m hm)
    · exact List.pairwise_cons.2 ⟨fun m hm => heq ▸ hk m hm, hrest⟩
    -- the new name is neither below `k` nor `k` itself, so it is beyond
    · refine List.pairwise_cons.2 ⟨?_, ih hrest⟩
      intro m hm
      rcases mem_insertSorted hm with rfl | hm
      · exact lt_of_le_of_ne (le_of_not_gt hlt) (Ne.symm heq)
      · exact hk m hm

/-- A member whose name is beyond all others goes to the end. -/
lemma insertSorted_of_lt {name : String} {v : Json} {members : List (String × Json)}
    (h : ∀ m ∈ members, m.1 < name) : insertSorted name v members = members ++ [(name, v)] := by
  induction members with
  | nil => rfl
  | cons n rest ih =>
    obtain ⟨k, w⟩ := n
    have hk : k < name := h (k, w) List.mem_cons_self
    rw [insertSorted, if_neg (lt_asymm hk), if_neg (ne_of_gt hk),
      ih fun m hm => h m (List.mem_cons_of_mem _ hm)]
    rfl

lemma foldl_insertSorted_spec {p : String × Json → Prop} {members sorted : List (String × Json)}
    (hm : ∀ m ∈ members, p m) (hs : sorted.Pairwise fun m n => m.1 < n.1)
    (hp : ∀ m ∈ sorted, p m) :
    ((members.foldl (fun s m => insertSorted m.1 m.2 s) sorted).Pairwise fun m n => m.1 < n.1) ∧
      ∀ m ∈ members.foldl (fun s m => insertSorted m.1 m.2 s) sorted, p m := by
  induction members generalizing sorted with
  | nil => exact ⟨hs, hp⟩
  | cons m members ih =>
    refine ih (fun n hn => hm n (List.mem_cons_of_mem _ hn)) (sorted_insertSorted _ _ hs) ?_
    intro n hn
    rcases mem_insertSorted hn with rfl | hn
    · exact hm m List.mem_cons_self
    · exact hp n hn

/-- What holds of all members holds of the sorted ones, and those are sorted. -/
lemma sortMembers_spec {p : String × Json → Prop} {members : List (String × Json)}
    (h : ∀ m ∈ members, p m) :
    ((sortMembers members).Pairwise fun m n => m.1 < n.1) ∧ ∀ m ∈ sortMembers members, p m :=
  foldl_insertSorted_spec h .nil (by simp)

lemma foldl_insertSorted_of_sorted {members sorted : List (String × Json)}
    (h : (sorted ++ members).Pairwise fun m n => m.1 < n.1) :
    members.foldl (fun s m => insertSorted m.1 m.2 s) sorted = sorted ++ members := by
  induction members generalizing sorted with
  | nil => simp
  | cons m members ih =>
    have hlast : ∀ n ∈ sorted, n.1 < m.1 := fun n hn =>
      (List.pairwise_append.1 h).2.2 n hn m List.mem_cons_self
    rw [List.foldl_cons, insertSorted_of_lt hlast, ih (by simpa using h)]
    simp

/-- Members that are sorted stay as they are. -/
lemma sortMembers_of_sorted {members : List (String × Json)}
    (h : members.Pairwise fun m n => m.1 < n.1) : sortMembers members = members :=
  foldl_insertSorted_of_sorted h

/-! ## Reading a value back -/

lemma found_whole {n : Int} (h : Numeral.InRange n) :
    (document (.whole n)).found = .ok (.whole n) := by
  show (Token.number (.ofWhole n)).found = _
  rw [Token.found, Numeral.value_ofWhole h]
  rfl

lemma found_float (x : Binary64) : (document (.float x)).found = x.reread.map .float := by
  show (Token.ofFloat x).found = _
  rw [Token.ofFloat_eq, Token.found, Binary64.value_numeral]
  cases x.reread <;> rfl

lemma found_text (s : String) : (document (.text s)).found = .ok (.text s) := by
  show (Token.string (.ofString s)).found = _
  rw [Token.found, Lexeme.text_ofString]
  rfl

lemma any_document_float (depth : Nat) (x : Binary64) :
    Decoder.any depth (document (.float x)) = x.reread.map .float := by
  show (document (.float _)).found.map Decoder.scalar = _
  rw [found_float]
  cases x.reread <;> rfl

/-- A number comes back from its text exactly if it is read again as itself. -/
theorem readsBack_iff {x : Binary64} : x.ReadsBack ↔ x.reread = .ok x := by
  have hdecode : decodeString Decoder.any (Layout.document.text x) = x.reread.map .float :=
    (decode_compact (.float x) Decoder.any).trans (any_document_float _ x)
  rw [Binary64.ReadsBack, hdecode, map_eq_ok]
  constructor
  · rintro ⟨y, hy, h⟩
    rw [hy, Json.float.inj h]
  · exact fun h => ⟨x, h, rfl⟩

namespace Decoder

lemma anyItems_documents {depth : Nat} {items : List Json}
    (h : ∀ v ∈ items, any depth (document v) = v.reread) :
    anyItems depth (itemDocuments items) = rereadItems items := by
  induction items with
  | nil => rfl
  | cons v items ih =>
    have hv := h v List.mem_cons_self
    have hitems := ih fun w hw => h w (List.mem_cons_of_mem _ hw)
    rw [itemDocuments, anyItems, hv, hitems, rereadItems]

lemma anyMembers_documents {depth : Nat} {members : List (String × Json)}
    (h : ∀ m ∈ members, any depth (document m.2) = m.2.reread) :
    anyMembers depth (memberDocuments members) = rereadMembers members := by
  induction members with
  | nil => rfl
  | cons m members ih =>
    obtain ⟨name, v⟩ := m
    have hv := h (name, v) List.mem_cons_self
    have hmembers := ih fun n hn => h n (List.mem_cons_of_mem _ hn)
    rw [memberDocuments, anyMembers, Lexeme.text_ofString, hv, hmembers, rereadMembers]
    rfl

end Decoder

/-- Members that are read again keep their names. -/
lemma names_of_rereadMembers {members values : List (String × Json)}
    (h : rereadMembers members = .ok values) : values.map Prod.fst = members.map Prod.fst := by
  induction members generalizing values with
  | nil =>
    cases h
    rfl
  | cons m members ih =>
    obtain ⟨name, v⟩ := m
    rw [rereadMembers, bind_eq_ok] at h
    obtain ⟨value, -, h⟩ := h
    obtain ⟨rest, hrest, h⟩ := bind_eq_ok.1 h
    cases h
    rw [List.map_cons, List.map_cons, ih hrest]

/-- From the tree of a readable value the value is read with its floating-point numbers read
again. -/
theorem any_document_eq_reread {depth : Nat} {v : Json} (h : Readable depth v) :
    Decoder.any depth (document v) = v.reread := by
  induction h with
  | null depth => rfl
  | bool depth b => rfl
  | whole depth inRange =>
    show (document (.whole _)).found.map Decoder.scalar = _
    rw [found_whole inRange]
    rfl
  | float depth x => exact any_document_float depth x
  | text depth s =>
    show (document (.text s)).found.map Decoder.scalar = _
    rw [found_text]
    rfl
  | @list depth items readable ih =>
    rw [document, Decoder.any, Decoder.enter, Decoder.anyItems_documents ih, reread]
    cases rereadItems items <;> rfl
  | @object depth members sorted readable ih =>
    rw [document, Decoder.any, Decoder.enter, Decoder.anyMembers_documents ih, reread]
    cases hmembers : rereadMembers members with
    | error fault => rfl
    | ok values =>
      have hsorted : values.Pairwise fun m n => m.1 < n.1 := by
        rw [← List.pairwise_map, names_of_rereadMembers hmembers, List.pairwise_map]
        exact sorted
      show Except.ok (Json.object (sortMembers values)) = _
      rw [sortMembers_of_sorted hsorted]
      rfl

/-- A value whose floating-point numbers come back is read again as itself. -/
lemma reread_of_floatsReadBack {v : Json} (h : v.FloatsReadBack) : v.reread = .ok v := by
  induction h with
  | float back => rw [reread, readsBack_iff.1 back, Except.map]
  | @list items back ih =>
    have hitems : rereadItems items = .ok items := by
      clear back
      induction items with
      | nil => rfl
      | cons v items ihitems =>
        obtain ⟨hv, hrest⟩ := List.forall_mem_cons.1 ih
        rw [rereadItems, hv, ihitems hrest]
        rfl
    rw [reread, hitems, Except.map]
  | @object members back ih =>
    have hmembers : rereadMembers members = .ok members := by
      clear back
      induction members with
      | nil => rfl
      | cons m members ihmembers =>
        obtain ⟨name, v⟩ := m
        obtain ⟨hv, hrest⟩ := List.forall_mem_cons.1 ih
        rw [rereadMembers, hv, ihmembers hrest]
        rfl
    rw [reread, hmembers, Except.map]
  | _ => rfl

lemma Normal.floatsReadBack {depth : Nat} {v : Json} (h : Normal depth v) : v.FloatsReadBack := by
  induction h with
  | null depth => exact .null
  | bool depth b => exact .bool b
  | whole depth inRange => exact .whole _
  | float depth back => exact .float back
  | text depth s => exact .text s
  | list normal ih => exact .list ih
  | object sorted normal ih => exact .object ih

/-! ## What was read is readable -/

lemma collect_le {a : Nat} (ha : a ≤ Numeral.maxSignificand) (ds : List Nat) :
    (Numeral.collect a ds).1 ≤ Numeral.maxSignificand := by
  induction ds generalizing a with
  | nil => exact ha
  | cons d ds ih =>
    rw [Numeral.collect]
    split_ifs with h
    · exact ih h
    · exact ha

lemma inRange_of_value {numeral : Numeral} {n : Int} (h : numeral.value = .ok (.whole n)) :
    Numeral.InRange n := by
  have hle := collect_le (Nat.zero_le _) numeral.whole
  rw [Numeral.value] at h
  generalize Numeral.collect 0 numeral.whole = found at h hle
  obtain ⟨significand, dropped⟩ := found
  dsimp only at h hle
  have hmax : Numeral.maxNegative ≤ Numeral.maxSignificand := by decide
  -- whole are a positive significand, and a negative one in the range of 64-bit integers
  split_ifs at h with hwhole hpos hrange
  · cases h
    constructor <;> omega
  · cases h
  · cases h
    constructor <;> omega
  · generalize Numeral.valueFrom _ _ _ _ = x at h
    cases x <;> cases h

namespace Decoder

/-- The values of a list of trees are those of the trees one by one. -/
lemma anyItems_eq_ok {depth : Nat} {ds : List Document} {values : List Json}
    (h : anyItems depth ds = .ok values) : ∀ v ∈ values, ∃ d ∈ ds, any depth d = .ok v := by
  induction ds generalizing values with
  | nil =>
    cases h
    simp
  | cons d ds ih =>
    rw [anyItems, bind_eq_ok] at h
    obtain ⟨v, hv, h⟩ := h
    obtain ⟨vs, hvs, h⟩ := bind_eq_ok.1 h
    cases h
    refine List.forall_mem_cons.2 ⟨⟨d, List.mem_cons_self, hv⟩, ?_⟩
    intro w hw
    obtain ⟨d', hd', hany⟩ := ih hvs w hw
    exact ⟨d', List.mem_cons_of_mem _ hd', hany⟩

/-- The values of the members of a tree are those of the trees one by one. -/
lemma anyMembers_eq_ok {depth : Nat} {ms : List (Lexeme × Document)} {values : List (String × Json)}
    (h : anyMembers depth ms = .ok values) :
    ∀ v ∈ values, ∃ m ∈ ms, any depth m.2 = .ok v.2 := by
  induction ms generalizing values with
  | nil =>
    cases h
    simp
  | cons m ms ih =>
    obtain ⟨name, d⟩ := m
    rw [anyMembers, bind_eq_ok] at h
    obtain ⟨k, -, h⟩ := h
    obtain ⟨v, hv, h⟩ := bind_eq_ok.1 h
    obtain ⟨vs, hvs, h⟩ := bind_eq_ok.1 h
    cases h
    refine List.forall_mem_cons.2 ⟨⟨(name, d), List.mem_cons_self, hv⟩, ?_⟩
    intro w hw
    obtain ⟨m', hm', hany⟩ := ih hvs w hw
    exact ⟨m', List.mem_cons_of_mem _ hm', hany⟩

end Decoder

lemma readable_of_leaf {depth : Nat} {token : Option Token} {v : Json}
    (hp : (Document.leaf token).Proper) (h : Decoder.any depth (.leaf token) = .ok v) :
    Readable depth v := by
  obtain _ | token := token
  · cases h
  change token.found.map Decoder.scalar = _ at h
  obtain ⟨found, hfound, rfl⟩ := map_eq_ok.1 h
  have htoken := Token.found_eq_ok hfound
  cases found with
  | null => exact .null depth
  | bool b => exact .bool depth b
  | whole n =>
    obtain ⟨numeral, -, hvalue⟩ := htoken
    exact .whole depth (inRange_of_value hvalue)
  | float x => exact .float depth x
  | text s => exact .text depth s
  | sequence =>
    cases hp with
    | leaf hlist hobject => exact absurd (congrArg some htoken) hlist
  | map =>
    cases hp with
    | leaf hlist hobject => exact absurd (congrArg some htoken) hobject

/-- A value that was read from a text is readable. -/
theorem readable_of_any {depth : Nat} {d : Document} {v : Json} (hd : d.Proper)
    (h : Decoder.any depth d = .ok v) : Readable depth v := by
  -- a list or an object takes one level off the depth, which the induction is on
  induction depth generalizing d v with
  | zero =>
    cases d with
    | leaf token => exact readable_of_leaf hd h
    | list items stop => cases h
    | object members stop => cases h
  | succ depth ih =>
    cases d with
    | leaf token => exact readable_of_leaf hd h
    | list items stop =>
      rw [Decoder.any, Decoder.enter, bind_eq_ok] at h
      obtain ⟨values, hitems, h⟩ := h
      obtain ⟨-, -, h⟩ := bind_eq_ok.1 h
      cases h
      cases hd with
      | list proper =>
        refine .list fun w hw => ?_
        obtain ⟨d, hd, hany⟩ := Decoder.anyItems_eq_ok hitems w hw
        exact ih (proper d hd) hany
    | object members stop =>
      rw [Decoder.any, Decoder.enter, bind_eq_ok] at h
      obtain ⟨values, hmembers, h⟩ := h
      obtain ⟨-, -, h⟩ := bind_eq_ok.1 h
      cases h
      cases hd with
      | object proper =>
        have hread : ∀ m ∈ values, ∃ n ∈ members, Decoder.any depth n.2 = .ok m.2 :=
          Decoder.anyMembers_eq_ok hmembers
        obtain ⟨hsorted, hsorted_read⟩ := sortMembers_spec hread
        refine .object hsorted fun m hm => ?_
        obtain ⟨n, hn, hany⟩ := hsorted_read m hm
        exact ih (proper n hn) hany

end LayerChain.Json
