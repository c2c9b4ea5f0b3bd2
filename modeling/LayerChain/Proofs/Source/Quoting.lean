import LayerChain.Proofs.Source.Literals
import Mathlib.Data.List.Induction

/-!
# String literals read back

The string literal of a choice is read as Python reads it, from the opening quote on
(`PythonLiteral.read`). Every character of the choice is read back from what it was escaped to, so
reading ends at the closing quote and gives the choice (`PythonLiteral.read_escaped`). A quote on
the way stands behind an odd number of backslashes, because all that was escaped before it ends with
an even number of them (`PythonLiteral.odd_backslashes_before_quote`).

To escape a text is also to replace four characters in it, one after the other, each of them in the
whole text. The backslash has to be the first: no later replacement touches what an earlier one has
brought in (`PythonLiteral.escapeInTurn_eq`).
-/

namespace LayerChain

namespace PythonLiteral

/-! ## Replacing in the whole text -/

/-- A text with every occurrence of a character replaced. -/
def replaceAll (c : Char) (replacement text : List Char) : List Char :=
  text.flatMap fun d => if d = c then replacement else [d]

/-- A text in which backslashes, then double quotes, then line feeds, and then carriage returns are
replaced. -/
def escapeInTurn (text : List Char) : List Char :=
  replaceAll '\r' ['\\', 'r'] <| replaceAll '\n' ['\\', 'n'] <| replaceAll '"' ['\\', '"'] <|
    replaceAll '\\' ['\\', '\\'] text

/-- Replacing in turn escapes a single character. -/
lemma escapeInTurn_singleton (c : Char) : escapeInTurn [c] = escape c := by
  obtain ⟨letter, hmem, h⟩ | ⟨hplain, h⟩ := escape_cases c
  · have hletters : ∀ p ∈ letters, escapeInTurn [p.1] = ['\\', p.2] := by decide
    rw [h]
    exact hletters (c, letter) hmem
  · simp only [letters, List.map_cons, List.map_nil, List.mem_cons, not_or] at hplain
    rw [h]
    simp [escapeInTurn, replaceAll, hplain]

lemma escapeInTurn_append (text more : List Char) :
    escapeInTurn (text ++ more) = escapeInTurn text ++ escapeInTurn more := by
  simp only [escapeInTurn, replaceAll, List.flatMap_append]

/-- The four replacements in turn escape every character once. -/
theorem escapeInTurn_eq (text : List Char) : escapeInTurn text = text.flatMap escape := by
  induction text with
  | nil => rfl
  | cons c text ih =>
    rw [← List.singleton_append, escapeInTurn_append, escapeInTurn_singleton, ih]
    rfl

/-! ## Reading -/

/-- The character that is denoted by a backslash and another character. -/
def denoted? : Char → Option Char
  | '\\' => some '\\'
  | '"' => some '"'
  | 'n' => some '\n'
  | 'r' => some '\r'
  | _ => none

/-- Reads a string literal behind its opening quote: what it denotes, and what stands behind its
closing quote. A backslash goes together with the character behind it, and any other character
denotes itself. A literal does not go on in the next line. -/
def read : List Char → Option (List Char × List Char)
  | [] => none
  | '"' :: rest => some ([], rest)
  | ['\\'] => none
  | '\\' :: c :: rest => do
    let d ← denoted? c
    let (text, behind) ← read rest
    return (d :: text, behind)
  | c :: rest =>
    if isLineBreak c then none
    else do
      let (text, behind) ← read rest
      return (c :: text, behind)

/-- What a character was escaped to denotes it. -/
lemma read_escape {text cs rest : List Char} (c : Char) (h : read cs = some (text, rest)) :
    read (escape c ++ cs) = some (c :: text, rest) := by
  obtain ⟨letter, hmem, hescape⟩ | ⟨hplain, hescape⟩ := escape_cases c
  · have hletters : ∀ p ∈ letters, denoted? p.2 = some p.1 := by decide
    have hread : read ('\\' :: letter :: cs) = some (c :: text, rest) := by
      simp [read, hletters (c, letter) hmem, h]
    rw [hescape]
    exact hread
  · rw [hescape, List.singleton_append, read.eq_def]
    split <;> simp_all [letters, isLineBreak]

/-- Reading ends behind an escaped text at the quote there, and gives the text. -/
theorem read_escaped (text rest : List Char) :
    read (text.flatMap escape ++ '"' :: rest) = some (text, rest) := by
  induction text with
  | nil => rfl
  | cons c text ih =>
    rw [List.flatMap_cons, List.append_assoc]
    exact read_escape c ih

/-! ## Escaped quotes -/

/-- How many backslashes stand at the end of a text. -/
def backslashesAtEnd (text : List Char) : Nat := (text.reverse.takeWhile (· == '\\')).length

lemma even_backslashes_append {text : List Char} (h : backslashesAtEnd text % 2 = 0) (c : Char) :
    backslashesAtEnd (text ++ escape c) % 2 = 0 := by
  unfold backslashesAtEnd at *
  obtain ⟨letter, hmem, hescape⟩ | ⟨hplain, hescape⟩ := escape_cases c
  · rw [hescape]
    by_cases hslash : letter = '\\'
    · simp [hslash]
      omega
    · simp [hslash]
  · rw [hescape]
    have hslash : c ≠ '\\' := by
      rintro rfl
      exact hplain (by decide)
    simp [hslash]

/-- An escaped text ends with an even number of backslashes. -/
lemma even_backslashes (text : List Char) : backslashesAtEnd (text.flatMap escape) % 2 = 0 := by
  induction text using List.reverseRecOn with
  | nil => rfl
  | append_singleton text c ih =>
    rw [List.flatMap_append, List.flatMap_singleton]
    exact even_backslashes_append ih c

/-- In what a character was escaped to, a quote stands behind a backslash. -/
lemma before_quote_of_escape {c : Char} {before behind : List Char}
    (h : escape c = before ++ '"' :: behind) : before = ['\\'] := by
  cases before with
  | nil =>
    refine absurd ?_ (escape_ne_quote c [] behind)
    rw [List.append_nil]
    exact h
  | cons b before =>
    have hlength := congrArg List.length h
    rw [List.cons_append, List.length_cons, List.length_append, List.length_cons] at hlength
    obtain ⟨letter, -, hletter⟩ | ⟨-, hself⟩ := escape_cases c
    · rw [hletter] at h hlength
      have hbefore : before.length = 0 := by
        simp only [List.length_cons, List.length_nil] at hlength
        omega
      rw [List.eq_nil_of_length_eq_zero hbefore, ← (List.cons.inj h).1]
    · rw [hself, List.length_singleton] at hlength
      omega

/-- What stands before a quote in an escaped text was escaped too, and a backslash follows it. -/
lemma exists_escaped_before_quote {text before behind : List Char}
    (h : text.flatMap escape = before ++ '"' :: behind) :
    ∃ earlier : List Char, before = earlier.flatMap escape ++ ['\\'] := by
  induction text generalizing before with
  | nil => simp at h
  | cons c text ih =>
    rw [List.flatMap_cons] at h
    rcases List.append_eq_append_iff.1 h with ⟨more, rfl, hmore⟩ | ⟨more, hmore, hrest⟩
    · obtain ⟨earlier, rfl⟩ := ih hmore
      exact ⟨c :: earlier, by rw [List.flatMap_cons, List.append_assoc]⟩
    · cases more with
      | nil =>
        rw [List.append_nil] at hmore
        -- nothing stands before the quote, not even the backslash
        obtain ⟨earlier, hearlier⟩ := @ih [] hrest.symm
        simp at hearlier
      | cons quote more =>
        obtain ⟨rfl, -⟩ := List.cons.inj hrest
        exact ⟨[], before_quote_of_escape hmore⟩

/-- A quote in an escaped text stands behind an odd number of backslashes. -/
theorem odd_backslashes_before_quote {text before behind : List Char}
    (h : text.flatMap escape = before ++ '"' :: behind) : backslashesAtEnd before % 2 = 1 := by
  obtain ⟨earlier, rfl⟩ := exists_escaped_before_quote h
  have heven := even_backslashes earlier
  have hone : backslashesAtEnd (earlier.flatMap escape ++ ['\\']) =
      backslashesAtEnd (earlier.flatMap escape) + 1 := by
    simp [backslashesAtEnd]
  omega

/-! ## Choices -/

/-- The literal of a choice is a body between two quotes. The body is on one line, and every quote
in it is escaped: an odd number of backslashes stands right before it. Read as a literal, it goes on
to the second quote and no further, whatever follows there, and it denotes the choice. All
characters are escaped one by one, which is the same as escaping one after the other in the whole
text. -/
theorem choice_read_back (s : String) : ∃ body : List Char,
    (ofValue (.choice s)).toList = '"' :: (body ++ ['"']) ∧
    OneLine body ∧
    (∀ before behind, body = before ++ '"' :: behind → backslashesAtEnd before % 2 = 1) ∧
    (∀ rest, read (body ++ '"' :: rest) = some (s.toList, rest)) ∧
    body = s.toList.flatMap escape ∧ body = escapeInTurn s.toList :=
  ⟨s.toList.flatMap escape, toList_quote s, oneLine_escaped s.toList,
    fun _ _ h => odd_backslashes_before_quote h, read_escaped s.toList, rfl,
    (escapeInTurn_eq s.toList).symm⟩

/-- Behind a backslash a quote gets the third backslash in a row, and the literal does not end
there. -/
theorem choice_read_back_of_quote : ∃ body : List Char,
    (ofValue (.choice "\\\"")).toList = '"' :: (body ++ ['"']) ∧
    body = ['\\', '\\', '\\', '"'] ∧ backslashesAtEnd ['\\', '\\', '\\'] % 2 = 1 ∧
    read (body ++ ['"', ')']) = some (['\\', '"'], [')']) := by
  have htext : "\\\"".toList = ['\\', '"'] := rfl
  obtain ⟨body, hliteral, -, hodd, hread, hescaped, -⟩ := choice_read_back "\\\""
  rw [htext] at hescaped hread
  have hbody : body = ['\\', '\\', '\\', '"'] := hescaped
  exact ⟨body, hliteral, hbody, hodd _ [] hbody, hread [')']⟩

end PythonLiteral

end LayerChain
