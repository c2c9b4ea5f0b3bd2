import LayerChain.Proofs.Number.Texts
import LayerChain.Source.PythonLiteral

/-!
# Literals that tell values apart

The literal of a setting value is either in quotes, and then every character of the choice can be
read back from it (`PythonLiteral.unescape_escape`), or it is a bare word without commas, brackets
and quotes. In both cases it says itself where it ends, so different values have different literals
in whatever arguments they stand (`PythonLiteral.ofValue_apart`). Of floating-point numbers it is
assumed that their texts are different.
-/

namespace LayerChain

/-! ## Texts without line breaks -/

/-- Whether a character breaks a line. -/
def isLineBreak (c : Char) : Bool := c == '\n' || c == '\r'

/-- No character of a text breaks a line. -/
def OneLine (cs : List Char) : Prop := ∀ c ∈ cs, isLineBreak c = false

@[simp] lemma oneLine_nil : OneLine [] := by simp [OneLine]

@[simp] lemma oneLine_cons {c : Char} {cs : List Char} :
    OneLine (c :: cs) ↔ isLineBreak c = false ∧ OneLine cs := List.forall_mem_cons

@[simp] lemma oneLine_append {cs ds : List Char} : OneLine (cs ++ ds) ↔ OneLine cs ∧ OneLine ds :=
  List.forall_mem_append

lemma OneLine.notMem {cs : List Char} (h : OneLine cs) {b : Char} (hb : isLineBreak b = true) :
    b ∉ cs := by
  intro hmem
  rw [h b hmem] at hb
  cases hb

namespace PythonLiteral

/-! ## Choices -/

/-- The characters that are escaped, each with the letter that stands for it behind a backslash. -/
def letters : List (Char × Char) := [('\\', '\\'), ('"', '"'), ('\n', 'n'), ('\r', 'r')]

/-- A character is escaped by its letter, or it has none and stands for itself. -/
lemma escape_cases (c : Char) :
    (∃ letter, (c, letter) ∈ letters ∧ escape c = ['\\', letter]) ∨
      (c ∉ letters.map Prod.fst ∧ escape c = [c]) := by
  unfold escape
  split_ifs with hslash hquote hline hreturn
  · exact .inl ⟨'\\', by simp [letters, hslash], rfl⟩
  · exact .inl ⟨'"', by simp [letters, hquote], rfl⟩
  · exact .inl ⟨'n', by simp [letters, hline], rfl⟩
  · exact .inl ⟨'r', by simp [letters, hreturn], rfl⟩
  · exact .inr ⟨by simp [letters, hslash, hquote, hline, hreturn], rfl⟩

/-- Reads one character back, and what goes on behind it. -/
def unescape : List Char → Option (Char × List Char)
  | [] => none
  | '\\' :: 'n' :: rest => some ('\n', rest)
  | '\\' :: 'r' :: rest => some ('\r', rest)
  | '\\' :: c :: rest => some (c, rest)
  | c :: rest => some (c, rest)

/-- A character is read back as it was. -/
lemma unescape_escape (c : Char) (rest : List Char) :
    unescape (escape c ++ rest) = some (c, rest) := by
  obtain ⟨letter, hmem, h⟩ | ⟨hplain, h⟩ := escape_cases c
  · simp only [letters, List.mem_cons, List.not_mem_nil, Prod.mk.injEq] at hmem
    obtain ⟨rfl, rfl⟩ | ⟨rfl, rfl⟩ | ⟨rfl, rfl⟩ | ⟨rfl, rfl⟩ | hmem := hmem
    · rfl
    · rfl
    · rfl
    · rfl
    · cases hmem
  · rw [h, List.singleton_append, unescape.eq_def]
    split <;> simp_all [letters]

lemma escape_unique (c d : Char) (r s : List Char) (h : escape c ++ r = escape d ++ s) :
    c = d ∧ r = s := by
  have hread := unescape_escape c r
  rw [h, unescape_escape] at hread
  exact (Prod.mk.inj (Option.some.inj hread)).imp Eq.symm Eq.symm

lemma escape_ne_quote (c : Char) (r s : List Char) : escape c ++ r ≠ '"' :: s := by
  intro hquote
  obtain ⟨letter, -, h⟩ | ⟨hplain, h⟩ := escape_cases c
  · rw [h] at hquote
    exact absurd (List.cons.inj hquote).1 (by decide)
  · rw [h] at hquote
    rw [(List.cons.inj hquote).1] at hplain
    exact hplain (by decide)

lemma oneLine_escape (c : Char) : OneLine (escape c) := by
  obtain ⟨letter, hmem, h⟩ | ⟨hplain, h⟩ := escape_cases c
  · have hletters : ∀ p ∈ letters, OneLine ['\\', p.2] := by
      simp [letters, OneLine, isLineBreak]
    rw [h]
    exact hletters (c, letter) hmem
  · simp only [letters, List.map_cons, List.map_nil, List.mem_cons, not_or] at hplain
    rw [h]
    simp [OneLine, isLineBreak, hplain]

/-- No escaped text leaves its line. -/
lemma oneLine_escaped (text : List Char) : OneLine (text.flatMap escape) := by
  intro d hd
  obtain ⟨c, -, hd⟩ := List.mem_flatMap.1 hd
  exact oneLine_escape c d hd

lemma toList_quote (text : String) :
    (quote text).toList = '"' :: (text.toList.flatMap escape ++ ['"']) := by
  rw [quote, String.toList_ofList]

/-! ## Bare words -/

/-- Whether a character may stand in a literal without quotes. -/
def isBare (c : Char) : Bool := c ∉ [',', ')', '"', '\n', '\r']

lemma isBare_of_isNumeric {c : Char} (h : isNumeric c = true) : isBare c = true := by
  have hnot : ∀ d ∈ [',', ')', '"', '\n', '\r'], isNumeric d = false := forall_mem_of_all (by decide)
  rw [isBare, decide_eq_true_eq]
  intro hmem
  rw [hnot c hmem] at h
  cases h

lemma toList_ofValue_int (n : Int64) : (ofValue (.int n)).toList = Json.wholeChars n.toInt := by
  rw [ofValue, Json.wholeChars_eq_toString]

lemma toList_ofValue_float (x : Binary64) :
    (ofValue (.float x)).toList = Layout.literal.chars x := by
  rw [ofValue, Layout.text, String.toList_ofList]

lemma isNumeric_of_mem_float {x : Binary64} {c : Char} (h : c ∈ (ofValue (.float x)).toList) :
    isNumeric c = true := by
  rw [toList_ofValue_float] at h
  exact Layout.isNumeric_of_mem_chars (forall_mem_of_all (by decide)) x c h

lemma isNumeric_of_mem_int {n : Int64} {c : Char} (h : c ∈ (ofValue (.int n)).toList) :
    isNumeric c = true := by
  rw [toList_ofValue_int] at h
  exact Json.isNumeric_of_mem_wholeChars h

/-- Every value other than a choice has a bare literal. -/
lemma bare_ofValue {v : SettingValue} (h : ∀ s, v ≠ .choice s) :
    (ofValue v).toList ≠ [] ∧ ∀ c ∈ (ofValue v).toList, isBare c = true := by
  cases v with
  | bool b => cases b <;> exact ⟨by decide, forall_mem_of_all (by decide)⟩
  | int n =>
    refine ⟨?_, fun c hc => isBare_of_isNumeric (isNumeric_of_mem_int hc)⟩
    rw [toList_ofValue_int]
    exact Json.wholeChars_ne_nil n.toInt
  | float x =>
    refine ⟨?_, fun c hc => isBare_of_isNumeric (isNumeric_of_mem_float hc)⟩
    rw [toList_ofValue_float]
    rcases Layout.literal.point_or_exponent_mem x with hm | hm <;> exact List.ne_nil_of_mem hm
  | choice s => exact absurd rfl (h s)
  | auto => exact ⟨by decide, forall_mem_of_all (by decide)⟩

/-- The values whose literals are words. -/
def words : List SettingValue := [.bool true, .bool false, .auto]

lemma bare_cases {v : SettingValue} (h : ∀ s, v ≠ .choice s) :
    v ∈ words ∨ (∃ n, v = .int n) ∨ ∃ x, v = .float x := by
  cases v with
  | bool b => cases b <;> exact .inl (by decide)
  | int n => exact .inr (.inl ⟨n, rfl⟩)
  | float x => exact .inr (.inr ⟨x, rfl⟩)
  | choice s => exact absurd rfl (h s)
  | auto => exact .inl (by decide)

lemma word_not_numeric {v : SettingValue} (h : v ∈ words) :
    ¬ ∀ c ∈ (ofValue v).toList, isNumeric c = true := by
  have hword : ∀ v ∈ words, ¬ (ofValue v).toList.all isNumeric = true := by decide
  rw [← List.all_eq_true]
  exact hword v h

lemma int_ne_float (n : Int64) (x : Binary64) : ofValue (.int n) ≠ ofValue (.float x) := by
  intro h
  have hchars := congrArg String.toList h
  rw [toList_ofValue_int, toList_ofValue_float] at hchars
  exact Layout.literal.chars_ne_wholeChars x n.toInt hchars.symm

/-- Different values with bare literals have different ones. -/
lemma eq_of_bare {v w : SettingValue} (hv : ∀ s, v ≠ .choice s) (hw : ∀ s, w ≠ .choice s)
    (hfloat : ∀ x y, v = .float x → w = .float y → Layout.literal.text x = Layout.literal.text y →
      x = y) (h : ofValue v = ofValue w) : v = w := by
  rcases bare_cases hv with hword | ⟨n, rfl⟩ | ⟨x, rfl⟩
  · rcases bare_cases hw with hword' | ⟨n, rfl⟩ | ⟨y, rfl⟩
    · have hwords : ∀ v ∈ words, ∀ w ∈ words, ofValue v = ofValue w → v = w := by decide
      exact hwords v hword w hword' h
    · have hnot := word_not_numeric hword
      rw [h] at hnot
      exact absurd (fun c => isNumeric_of_mem_int) hnot
    · have hnot := word_not_numeric hword
      rw [h] at hnot
      exact absurd (fun c => isNumeric_of_mem_float) hnot
  · rcases bare_cases hw with hword | ⟨m, rfl⟩ | ⟨y, rfl⟩
    · have hnot := word_not_numeric hword
      rw [← h] at hnot
      exact absurd (fun c => isNumeric_of_mem_int) hnot
    · have hchars := congrArg String.toList h
      rw [toList_ofValue_int, toList_ofValue_int] at hchars
      rw [Int64.toInt_inj.1 (Json.wholeChars_injective hchars)]
    · exact absurd h (int_ne_float n y)
  · rcases bare_cases hw with hword | ⟨m, rfl⟩ | ⟨y, rfl⟩
    · have hnot := word_not_numeric hword
      rw [← h] at hnot
      exact absurd (fun c => isNumeric_of_mem_float) hnot
    · exact absurd h.symm (int_ne_float m x)
    · rw [hfloat x y rfl rfl h]

/-! ## All literals -/

lemma stop_of_ends {r : List Char} (h : Ends [',', ')'] r) : ∀ c ∈ r.head?, isBare c = false := by
  intro c hc
  have hmark : ∀ d ∈ [',', ')'], isBare d = false := forall_mem_of_all (by decide)
  exact hmark c (h c hc)

lemma quote_ne_bare {s : String} {w : SettingValue} (hw : ∀ t, w ≠ .choice t) (r r' : List Char) :
    (ofValue (.choice s)).toList ++ r ≠ (ofValue w).toList ++ r' := by
  intro h
  obtain ⟨hne, hbare⟩ := bare_ofValue hw
  obtain ⟨c, cs, hcs⟩ := List.exists_cons_of_ne_nil hne
  rw [ofValue, toList_quote, hcs] at h
  have hquote : '"' = c := (List.cons.inj h).1
  have hc := hbare c (hcs ▸ List.mem_cons_self)
  rw [← hquote] at hc
  exact absurd hc (by decide)

/-- The literal of a value tells it from every other one, in front of a comma or a bracket. -/
theorem ofValue_apart {v w : SettingValue}
    (hfloat : ∀ x y, v = .float x → w = .float y → Layout.literal.text x = Layout.literal.text y →
      x = y) : Apart (fun v => (ofValue v).toList) [',', ')'] v w := by
  intro r r' hr hr' h
  by_cases hv : ∃ s, v = .choice s
  · obtain ⟨s, rfl⟩ := hv
    by_cases hw : ∃ t, w = .choice t
    · obtain ⟨t, rfl⟩ := hw
      dsimp only at h
      rw [ofValue, ofValue, toList_quote, toList_quote, List.cons_append, List.cons_append,
        List.append_assoc, List.append_assoc] at h
      obtain ⟨hst, hrest⟩ := escaped_unique escape_unique escape_ne_quote (List.cons.inj h).2
      rw [String.toList_injective hst]
      exact ⟨rfl, hrest⟩
    · exact absurd h (quote_ne_bare (fun t ht => hw ⟨t, ht⟩) r r')
  · have hv : ∀ s, v ≠ .choice s := fun s hs => hv ⟨s, hs⟩
    by_cases hw : ∃ t, w = .choice t
    · obtain ⟨t, rfl⟩ := hw
      exact absurd h.symm (quote_ne_bare hv r' r)
    · have hw : ∀ t, w ≠ .choice t := fun t ht => hw ⟨t, ht⟩
      obtain ⟨hchars, hrest⟩ := span_unique (bare_ofValue hv).2 (bare_ofValue hw).2
        (stop_of_ends hr) (stop_of_ends hr') h
      exact ⟨eq_of_bare hv hw hfloat (String.toList_injective hchars), hrest⟩

/-- Different values have different literals. -/
lemma eq_of_ofValue_eq {v w : SettingValue}
    (hfloat : ∀ x y, v = .float x → w = .float y → Layout.literal.text x = Layout.literal.text y →
      x = y) (h : ofValue v = ofValue w) : v = w :=
  (ofValue_apart hfloat [] [] (ends_nil _) (ends_nil _) (by simp [h])).1

lemma oneLine_of_isBare {cs : List Char} (h : ∀ c ∈ cs, isBare c = true) : OneLine cs := by
  intro c hc
  have hbare := h c hc
  simp only [isBare, decide_eq_true_eq, List.mem_cons, not_or] at hbare
  simp [isLineBreak, hbare]

/-- No literal leaves its line. -/
lemma oneLine_ofValue (v : SettingValue) : OneLine (ofValue v).toList := by
  by_cases hv : ∃ s, v = .choice s
  · obtain ⟨s, rfl⟩ := hv
    rw [ofValue, toList_quote]
    simp [isLineBreak, oneLine_escaped]
  · exact oneLine_of_isBare (bare_ofValue fun s hs => hv ⟨s, hs⟩).2

end PythonLiteral

end LayerChain
