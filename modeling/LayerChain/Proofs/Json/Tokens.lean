import LayerChain.Proofs.Json.Floats
import LayerChain.Proofs.Text.Apart

/-!
# Written values are scanned as their tokens

`Json.tokens` are the tokens of a value. Its text on one line and its indented text are scanned as
them, and then the scan goes on behind the text (`Json.scan_compact`, `Json.scan_pretty`): neither
the line breaks nor what comes after the value count, as long as it does not go on like a number.
-/

namespace LayerChain

namespace Json

/-- What holds of a value if it holds of all parts of it holds of every value. -/
@[elab_as_elim]
theorem induction {motive : Json → Prop} (null : motive .null) (bool : ∀ b, motive (.bool b))
    (whole : ∀ n, motive (.whole n)) (float : ∀ x, motive (.float x))
    (text : ∀ s, motive (.text s))
    (list : ∀ items : List Json, (∀ v ∈ items, motive v) → motive (.list items))
    (object : ∀ members : List (String × Json), (∀ m ∈ members, motive m.2) →
      motive (.object members)) (v : Json) : motive v := by
  -- what is shown of lists of values and of members is that it holds of all of them
  refine @Json.rec motive (fun items => ∀ v ∈ items, motive v)
    (fun members => ∀ m ∈ members, motive m.2) (fun m => motive m.2) null bool whole float text
    list object ?_ ?_ ?_ ?_ ?_ v
  · simp
  · exact fun v items hv hitems => List.forall_mem_cons.2 ⟨hv, hitems⟩
  · simp
  · exact fun m members hm hmembers => List.forall_mem_cons.2 ⟨hm, hmembers⟩
  · exact fun name v hv => hv

/-- A text is read if its tree is read and no token is left. -/
lemma decode_eq_ok {α : Type} {decoder : Decoder α} {content : Content} {a : α} :
    decode decoder content = .ok a ↔
      decoder maxDepth (Document.ofTokens (Token.scan content)).1 = .ok a ∧
        (Document.ofTokens (Token.scan content)).2 = [] := by
  rw [decode]
  generalize Document.ofTokens (Token.scan content) = built
  obtain ⟨document, rest⟩ := built
  dsimp only
  cases hd : decoder maxDepth document with
  | error fault => simp [bind, Except.bind]
  | ok value =>
    cases rest with
    | nil => simp [bind, Except.bind, pure, Except.pure]
    | cons token rest => simp [bind, Except.bind, throw, throwThe, MonadExceptOf.throw]

namespace Token

/-! ## Scanning token by token -/

lemma scan_space {s : Symbol} (h : isSpace s = true) (rest : Content) :
    scan (s :: rest) = scan rest := by
  rw [scan, if_pos h]

lemma scan_cons {s : Symbol} {rest after : Content} {token : Token} (h : isSpace s = false)
    (hone : scanOne s rest = (token, after)) : scan (s :: rest) = token :: scan after := by
  rw [scan, if_neg (by simp [h]), hone]

lemma scan_mark {s : Symbol} {token : Token} (h : isSpace s = false) (hm : mark? s = some token)
    (rest : Content) : scan (s :: rest) = token :: scan rest := by
  refine scan_cons h ?_
  rw [scanOne, hm]

lemma expect_append (letters : List Char) (rest : Content) :
    expect letters (chars letters ++ rest) = .ok rest := by
  induction letters with
  | nil => rfl
  | cons c letters ih =>
    rw [chars, List.map_cons, List.cons_append, expect, if_pos rfl]
    exact ih

lemma scan_word {c : Char} {w : Word} {letters : List Char} (h : isSpace (.char c) = false)
    (hm : mark? (.char c) = none) (hw : wordAt? (.char c) = some (w, letters)) (rest : Content) :
    scan (chars (c :: letters) ++ rest) = .word w :: scan rest := by
  refine scan_cons h ?_
  show scanOne (.char c) (chars letters ++ rest) = _
  rw [scanOne, hm, hw]
  dsimp only
  rw [expect_append]

/-- Space between tokens, of any length. -/
def Blank (gap : List Char) : Prop := ∀ c ∈ gap, isSpace (.char c) = true

lemma blank_nil : Blank [] := by
  intro c hc
  cases hc

lemma blank_newline (level : Nat) : Blank (newline level) := by
  intro c hc
  rcases List.mem_cons.1 hc with rfl | hc
  · decide
  · rw [List.eq_of_mem_replicate hc]
    decide

lemma scan_blank {gap : List Char} (h : Blank gap) (rest : Content) :
    scan (chars gap ++ rest) = scan rest := by
  induction gap with
  | nil => rfl
  | cons c gap ih =>
    rw [chars, List.map_cons, List.cons_append, scan_space (h c List.mem_cons_self)]
    exact ih fun d hd => h d (List.mem_cons_of_mem _ hd)

lemma scan_quoted (s : String) (rest : Content) :
    scan (chars (quoted s) ++ rest) = .string (.ofString s) :: scan rest := by
  refine scan_cons (by decide) ?_
  show scanOne (.char '"') (chars (s.toList.flatMap escape ++ ['"']) ++ rest) = _
  have hmark : mark? (.char '"') = none := rfl
  have hword : wordAt? (.char '"') = none := rfl
  rw [scanOne, hmark, hword]
  dsimp only
  rw [if_pos rfl, Lexeme.scan_quoted]

/-! ## Scanning numbers -/

/-- What starts with a digit is scanned as a number. -/
lemma scan_digit {c : Char} {cs after : Content} {numeral : Numeral} (h : c.isDigit)
    (hu : Numeral.scanUnsigned false (.char c :: cs) = .ok (numeral, after)) :
    scan (.char c :: cs) = .number numeral :: scan after := by
  have hne : ∀ d : Char, d.isDigit = false → c ≠ d := by
    rintro d hd rfl
    rw [hd] at h
    cases h
  have hspace : isSpace (.char c) = false := by
    simp [isSpace, hne]
  have hmark : mark? (.char c) = none := by
    unfold mark?
    split <;> rename_i he <;> first | rfl | exact absurd (Symbol.char.inj he) (hne _ (by decide))
  have hword : wordAt? (.char c) = none := by
    unfold wordAt?
    split <;> rename_i he <;> first | rfl | exact absurd (Symbol.char.inj he) (hne _ (by decide))
  have hquote : (Symbol.char c) ≠ .char '"' := by simp [hne]
  have hminus : (Symbol.char c) ≠ .char '-' := by simp [hne]
  have hdigit : (Numeral.digit? (.char c)).isSome := by simp [Numeral.digit?, h]
  refine scan_cons hspace ?_
  rw [scanOne, hmark, hword]
  dsimp only
  rw [if_neg hquote, if_pos (.inr hdigit), scanNumber, if_neg hminus, hu]

/-- A sign and an unsigned numeral are scanned as a number, where the text goes on with something
that no number has. -/
lemma scan_signed {negative : Bool} {cs : List Char} {numeral : Numeral}
    (h : ∀ c ∈ cs.head?, c.isDigit)
    (hu : Numeral.scanUnsigned negative (chars cs) = .ok (numeral, [])) {rest : Content}
    (hs : Numeral.Stops rest) :
    scan (chars ((if negative then ['-'] else []) ++ cs) ++ rest) = .number numeral :: scan rest := by
  have happend := Numeral.scanUnsigned_append hs hu
  rw [List.nil_append] at happend
  -- without a sign the number starts with a digit
  cases negative with
  | true =>
    have hone : scanOne (.char '-') (chars cs ++ rest) = (.number numeral, rest) := by
      show scanNumber (.char '-') _ = _
      rw [scanNumber, if_pos rfl, happend]
    exact scan_cons (by decide) hone
  | false =>
    obtain _ | ⟨c, cs⟩ := cs
    · cases hu
    · exact scan_digit (h c rfl) happend

/-- A whole number is scanned as it was written. -/
lemma scan_whole (n : Int) {rest : Content} (hs : Numeral.Stops rest) :
    scan (chars (wholeChars n) ++ rest) = .number (.ofWhole n) :: scan rest := by
  have hdigit : ∀ c ∈ (Nat.toDigits 10 n.natAbs).head?, c.isDigit := fun c hc =>
    Nat.isDigit_of_mem_toDigits (by decide) (by decide) (List.mem_of_mem_head? hc)
  have hscan := scan_signed hdigit (Numeral.scanUnsigned_toDigits (decide (n < 0)) n.natAbs) hs
  have hchars : wholeChars n =
      (if decide (n < 0) then ['-'] else []) ++ Nat.toDigits 10 n.natAbs := by
    rw [wholeChars]
    by_cases hneg : n < 0 <;> simp [hneg]
  rw [hchars, hscan, Numeral.ofWhole]

/-- The token that a floating-point number is written as. -/
def ofFloat (x : Binary64) : Token := (scan (chars (Layout.document.chars x))).headD .junk

/-- What a token is as a value tells which token it is. -/
lemma found_eq_ok {token : Token} {found : Found} (h : token.found = .ok found) :
    match found with
    | .null => token = .word .null
    | .bool b => token = .word (.bool b)
    | .whole n => ∃ numeral, token = .number numeral ∧ numeral.value = .ok (.whole n)
    | .float x => ∃ numeral, token = .number numeral ∧ numeral.value = .ok (.float x)
    | .text s => ∃ lexeme, token = .string lexeme ∧ lexeme.text = .ok s
    | .sequence => token = .openList
    | .map => token = .openObject := by
  cases token with
  | number numeral =>
    rw [Token.found] at h
    cases hv : numeral.value with
    | error fault =>
      rw [hv] at h
      cases h
    | ok value =>
      rw [hv] at h
      cases value <;> cases h <;> exact ⟨numeral, rfl, hv⟩
  | string lexeme =>
    rw [Token.found] at h
    cases ht : lexeme.text with
    | error fault =>
      rw [ht] at h
      cases h
    | ok s =>
      rw [ht] at h
      cases h
      exact ⟨lexeme, rfl, ht⟩
  | word w =>
    cases w <;> cases h <;> rfl
  | openList | openObject =>
    cases h
    rfl
  | closeList | closeObject | comma | colon | junk => cases h
  | brokenWord fault => cases h
  | brokenNumber atEnd => cases atEnd <;> cases h

/-- A floating-point number is scanned as it was written. -/
lemma scan_float (x : Binary64) {rest : Content} (hs : Numeral.Stops rest) :
    scan (chars (Layout.document.chars x) ++ rest) = .number x.numeral :: scan rest := by
  have hform := Layout.wellFormed_spelling Layout.document x
  have hsign : Layout.document.exponentSign = [] ∨ Layout.document.exponentSign = ['+'] := .inr rfl
  have hscan := Numeral.scanUnsigned_spelling hform x.negative hsign
  have hdigit : ∀ c ∈ ((Layout.document.spelling x).chars Layout.document.exponentSign).head?,
      c.isDigit := by
    intro c hc
    rw [Spelling.chars, List.head?_append_of_ne_nil _ hform.whole_ne_nil] at hc
    exact hform.isDigit c (List.mem_append_left _ (List.mem_of_mem_head? hc))
  rw [Layout.chars_eq]
  exact scan_signed hdigit hscan hs

lemma ofFloat_eq (x : Binary64) : ofFloat x = .number x.numeral := by
  have hscan := scan_float x Numeral.stops_nil
  rw [List.append_nil] at hscan
  rw [ofFloat, hscan]
  rfl

end Token

/-! ## The tokens of a value -/

mutual

/-- The tokens of a written value. -/
def tokens : Json → List Token
  | null => [.word .null]
  | bool b => [.word (.bool b)]
  | whole n => [.number (.ofWhole n)]
  | float x => [.ofFloat x]
  | text s => [.string (.ofString s)]
  | list items => .openList :: itemTokens items
  | object members => .openObject :: memberTokens members

/-- The tokens of the items of a list and of its end. -/
def itemTokens : List Json → List Token
  | [] => [.closeList]
  | v :: rest => tokens v ++ moreItemTokens rest

/-- The tokens of the further items of a list and of its end. -/
def moreItemTokens : List Json → List Token
  | [] => [.closeList]
  | v :: rest => .comma :: (tokens v ++ moreItemTokens rest)

/-- The tokens of the members of an object and of its end. -/
def memberTokens : List (String × Json) → List Token
  | [] => [.closeObject]
  | (name, v) :: rest => .string (.ofString name) :: .colon :: (tokens v ++ moreMemberTokens rest)

/-- The tokens of the further members of an object and of its end. -/
def moreMemberTokens : List (String × Json) → List Token
  | [] => [.closeObject]
  | (name, v) :: rest =>
    .comma :: .string (.ofString name) :: .colon :: (tokens v ++ moreMemberTokens rest)

end

/-! ## Scanning whole values -/

/-- A text is scanned as the tokens of a value, whatever comes after it. -/
def ScansAs (text : List Char) (v : Json) : Prop :=
  ∀ rest, Numeral.Stops rest → Token.scan (chars text ++ rest) = tokens v ++ Token.scan rest

lemma stops_mark {c : Char} (h : c ∈ [',', ']', '\x7d']) (rest : Content) :
    Numeral.Stops (.char c :: rest) := by
  intro s hs
  obtain rfl : .char c = s := by simpa using hs
  simp only [List.mem_cons, List.not_mem_nil, or_false] at h
  rcases h with rfl | rfl | rfl <;> decide

/-- A number ends where space follows, or else what ends it. -/
lemma stops_blank {gap : List Char} (h : Token.Blank gap) {rest : Content}
    (hs : Numeral.Stops rest) : Numeral.Stops (chars gap ++ rest) := by
  cases gap with
  | nil => exact hs
  | cons c gap =>
    intro s hs
    obtain rfl : .char c = s := by simpa using hs
    have hc := h c List.mem_cons_self
    simp only [Token.isSpace, Bool.or_eq_true, beq_iff_eq, Symbol.char.injEq] at hc
    rcases hc with ((rfl | rfl) | rfl) | rfl <;> decide

/-! ### Parts between marks

Items and members are written in the same way, on one line or on several: with commas between
them, and with some space around these. -/

section

variable {α : Type} {gap outer : List Char} {write : α → List Char} {parts : α → List Token}

/-- Parts up to the mark that closes them are scanned one by one. -/
lemma scan_separated (hgap : Token.Blank gap) (houter : Token.Blank outer) {close : Char}
    {closing : Token} (hc : close ∈ [']', '\x7d'])
    (hclose : ∀ cs, Token.scan (.char close :: cs) = closing :: Token.scan cs) {a : α} {as : List α}
    (h : ∀ b ∈ a :: as, ∀ rest, Numeral.Stops rest →
      Token.scan (chars (write b) ++ rest) = parts b ++ Token.scan rest) (rest : Content) :
    Token.scan (chars (separated gap ((a :: as).map write) ++ outer ++ [close]) ++ rest) =
      parts a ++ as.flatMap (fun b => .comma :: parts b) ++ closing :: Token.scan rest := by
  -- the induction is on the parts behind the first one, which goes along
  induction as generalizing a with
  | nil =>
    have hstop : Numeral.Stops (chars outer ++ .char close :: rest) :=
      stops_blank houter (stops_mark (List.mem_cons_of_mem _ hc) rest)
    have hcs : chars (separated gap [write a] ++ outer ++ [close]) ++ rest =
        chars (write a) ++ (chars outer ++ .char close :: rest) := by
      simp [separated]
    rw [List.map_cons, List.map_nil, hcs, h a List.mem_cons_self _ hstop, Token.scan_blank houter,
      hclose]
    simp
  | cons b as ih =>
    have ha := h a List.mem_cons_self
    have hcomma : ∀ cs, Token.scan (.char ',' :: cs) = .comma :: Token.scan cs :=
      Token.scan_mark (by decide) rfl
    have hrest := ih fun c hc => h c (List.mem_cons_of_mem _ hc)
    generalize htail : chars (separated gap ((b :: as).map write) ++ outer ++ [close]) ++ rest =
      tail at hrest
    have hcs : chars (separated gap ((a :: b :: as).map write) ++ outer ++ [close]) ++ rest =
        chars (write a) ++ .char ',' :: (chars gap ++ tail) := by
      rw [← htail]
      simp [separated]
    rw [hcs, ha _ (stops_mark (by decide) _), hcomma, Token.scan_blank hgap, hrest]
    simp

end

lemma moreItemTokens_eq (items : List Json) :
    moreItemTokens items = items.flatMap (fun v => .comma :: tokens v) ++ [.closeList] := by
  induction items with
  | nil => rfl
  | cons v items ih => simp [moreItemTokens, ih]

lemma moreMemberTokens_eq (members : List (String × Json)) :
    moreMemberTokens members = members.flatMap (fun m =>
      .comma :: .string (.ofString m.1) :: .colon :: tokens m.2) ++ [.closeObject] := by
  induction members with
  | nil => rfl
  | cons m members ih =>
    obtain ⟨name, v⟩ := m
    simp [moreMemberTokens, ih]

section

variable {gap outer : List Char} {write : Json → List Char}

/-- A list is scanned item by item, whatever space stands between its items. -/
lemma scan_list (hgap : Token.Blank gap) (houter : Token.Blank outer) {v : Json}
    {items : List Json} (h : ∀ w ∈ v :: items, ScansAs (write w) w) :
    ScansAs ('[' :: (gap ++ (separated gap ((v :: items).map write) ++ outer ++ [']'])))
      (.list (v :: items)) := by
  intro rest _
  have hopen : ∀ cs, Token.scan (.char '[' :: cs) = .openList :: Token.scan cs :=
    Token.scan_mark (by decide) rfl
  have hclose : ∀ cs, Token.scan (.char ']' :: cs) = .closeList :: Token.scan cs :=
    Token.scan_mark (by decide) rfl
  have hitems := scan_separated hgap houter (by decide) hclose h rest
  rw [chars, List.map_cons, List.map_append, List.cons_append, List.append_assoc, hopen,
    Token.scan_blank hgap, hitems, tokens, itemTokens, moreItemTokens_eq]
  simp

/-- An object is scanned member by member, whatever space stands between its members and before
their values. -/
lemma scan_object {inner : List Char} (hgap : Token.Blank gap) (houter : Token.Blank outer)
    (hinner : Token.Blank inner) {m : String × Json} {members : List (String × Json)}
    (h : ∀ n ∈ m :: members, ScansAs (write n.2) n.2) :
    ScansAs ('\x7b' :: (gap ++ (separated gap ((m :: members).map fun n =>
      quoted n.1 ++ ':' :: (inner ++ write n.2)) ++ outer ++ ['\x7d']))) (.object (m :: members)) := by
  intro rest _
  have hopen : ∀ cs, Token.scan (.char '\x7b' :: cs) = .openObject :: Token.scan cs :=
    Token.scan_mark (by decide) rfl
  have hcolon : ∀ cs, Token.scan (.char ':' :: cs) = .colon :: Token.scan cs :=
    Token.scan_mark (by decide) rfl
  have hmember : ∀ n ∈ m :: members, ∀ rest, Numeral.Stops rest →
      Token.scan (chars (quoted n.1 ++ ':' :: (inner ++ write n.2)) ++ rest) =
        .string (.ofString n.1) :: .colon :: tokens n.2 ++ Token.scan rest := by
    intro n hn rest hs
    rw [chars, List.map_append, List.append_assoc, Token.scan_quoted, List.map_cons,
      List.cons_append, hcolon, List.map_append, List.append_assoc, Token.scan_blank hinner,
      h n hn rest hs]
    rfl
  have hclose : ∀ cs, Token.scan (.char '\x7d' :: cs) = .closeObject :: Token.scan cs :=
    Token.scan_mark (by decide) rfl
  have hmembers := scan_separated hgap houter (by decide) hclose hmember rest
  rw [chars, List.map_cons, List.map_append, List.cons_append, List.append_assoc, hopen,
    Token.scan_blank hgap, hmembers, tokens, memberTokens, moreMemberTokens_eq]
  simp

/-- A value other than a list or an object is scanned as its one token. -/
lemma scan_scalar {v : Json} (hlist : ∀ items, v ≠ .list items)
    (hobject : ∀ members, v ≠ .object members) : ScansAs (compactChars v) v := by
  intro rest hs
  cases v with
  | null => exact Token.scan_word (by decide) rfl rfl rest
  | bool b =>
    cases b with
    | true => exact Token.scan_word (by decide) rfl rfl rest
    | false => exact Token.scan_word (by decide) rfl rfl rest
  | whole n => exact Token.scan_whole n hs
  | float x =>
    rw [tokens, Token.ofFloat_eq]
    exact Token.scan_float x hs
  | text s => exact Token.scan_quoted s rest
  | list items => exact absurd rfl (hlist items)
  | object members => exact absurd rfl (hobject members)

/-- An empty list or object is written by its two marks. -/
lemma scan_empty : ScansAs ['[', ']'] (.list []) ∧ ScansAs ['\x7b', '\x7d'] (.object []) := by
  constructor <;> intro rest _
  · have hopen := Token.scan_mark (s := .char '[') (by decide) rfl (.char ']' :: rest)
    exact hopen.trans (congrArg _ (Token.scan_mark (by decide) rfl rest))
  · have hopen := Token.scan_mark (s := .char '\x7b') (by decide) rfl (.char '\x7d' :: rest)
    exact hopen.trans (congrArg _ (Token.scan_mark (by decide) rfl rest))

end

/-! ### Both forms -/

lemma compactItems_eq (items : List Json) :
    compactItems items = separated [] (items.map compactChars) := by
  induction items with
  | nil => rfl
  | cons v items ih =>
    cases items with
    | nil => rfl
    | cons w items =>
      rw [compactItems, ih]
      · rfl
      · simp

lemma compactMembers_eq (members : List (String × Json)) :
    compactMembers members =
      separated [] (members.map fun m => quoted m.1 ++ ':' :: compactChars m.2) := by
  induction members with
  | nil => rfl
  | cons m members ih =>
    obtain ⟨name, v⟩ := m
    cases members with
    | nil => rfl
    | cons n members =>
      rw [compactMembers, ih]
      · simp [separated]
      · simp

lemma prettyItems_eq (level : Nat) (items : List Json) :
    prettyItems level items = separated (newline level) (items.map (prettyChars level)) := by
  induction items with
  | nil => rfl
  | cons v items ih =>
    cases items with
    | nil => rfl
    | cons w items =>
      rw [prettyItems, ih]
      · rfl
      · simp

lemma prettyMembers_eq (level : Nat) (members : List (String × Json)) :
    prettyMembers level members = separated (newline level)
      (members.map fun m => quoted m.1 ++ ':' :: ([' '] ++ prettyChars level m.2)) := by
  induction members with
  | nil => rfl
  | cons m members ih =>
    obtain ⟨name, v⟩ := m
    cases members with
    | nil => rfl
    | cons n members =>
      rw [prettyMembers, ih]
      · simp [separated]
      · simp

/-- The text of a value on one line is scanned as the tokens of the value. -/
theorem scan_compact (v : Json) : ScansAs (compactChars v) v := by
  induction v using induction with
  | list items ih =>
    cases items with
    | nil => exact scan_empty.1
    | cons v items =>
      rw [compactChars, compactItems_eq]
      simpa using scan_list Token.blank_nil Token.blank_nil ih
  | object members ih =>
    cases members with
    | nil => exact scan_empty.2
    | cons m members =>
      rw [compactChars, compactMembers_eq]
      simpa using scan_object Token.blank_nil Token.blank_nil Token.blank_nil ih
  | null => exact scan_scalar (by simp) (by simp)
  | bool b => exact scan_scalar (by simp) (by simp)
  | whole n => exact scan_scalar (by simp) (by simp)
  | float x => exact scan_scalar (by simp) (by simp)
  | text s => exact scan_scalar (by simp) (by simp)

/-- The indented text of a value is scanned as the tokens of the value. -/
theorem scan_pretty (v : Json) (level : Nat) : ScansAs (prettyChars level v) v := by
  induction v using induction generalizing level with
  | list items ih =>
    cases items with
    | nil => exact scan_empty.1
    | cons v items =>
      have hitems := scan_list (Token.blank_newline (level + 1)) (Token.blank_newline level)
        fun w hw => ih w hw (level + 1)
      rw [← prettyItems_eq] at hitems
      simpa [prettyChars] using hitems
  | object members ih =>
    cases members with
    | nil => exact scan_empty.2
    | cons m members =>
      have hspace : Token.Blank [' '] := by
        intro c hc
        rw [List.mem_singleton.1 hc]
        decide
      have hmembers := scan_object (Token.blank_newline (level + 1)) (Token.blank_newline level)
        hspace fun n hn => ih n hn (level + 1)
      rw [← prettyMembers_eq] at hmembers
      simpa [prettyChars] using hmembers
  | null => exact scan_scalar (by simp) (by simp)
  | bool b => exact scan_scalar (by simp) (by simp)
  | whole n => exact scan_scalar (by simp) (by simp)
  | float x => exact scan_scalar (by simp) (by simp)
  | text s => exact scan_scalar (by simp) (by simp)

end Json

end LayerChain
