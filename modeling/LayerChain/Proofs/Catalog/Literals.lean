import LayerChain.Catalog.SettingValue
import LayerChain.Proofs.Number.Spelling
import LayerChain.Proofs.Results
import Mathlib.Data.List.DropRight

/-!
# Literals and assignments

What is shown for a value is a literal of the same class, and it is read as the same value
(`SettingValue.ofLiteral_display`): words as words, since blanks at their ends are gone; integers by
their digits; and floating-point numbers since their texts have a point or an exponent, so they are
no integers, and are rounded to the number they were written for.
-/

namespace LayerChain

/-! ## Trimming -/

lemma trimBlanks_eq (cs : List Char) :
    trimBlanks cs = (cs.dropWhile isBlank).rdropWhile isBlank := rfl

/-- Trimming again changes nothing. -/
lemma trimBlanks_trimBlanks (cs : List Char) : trimBlanks (trimBlanks cs) = trimBlanks cs := by
  have hfront : (trimBlanks cs).dropWhile isBlank = trimBlanks cs := by
    obtain ⟨after, hafter⟩ := List.rdropWhile_prefix isBlank (l := cs.dropWhile isBlank)
    rw [← trimBlanks_eq] at hafter
    -- what trimming leaves starts as the text without the blanks in front
    cases htrim : trimBlanks cs with
    | nil => rfl
    | cons c rest =>
      have hhead := List.head?_dropWhile_not isBlank cs
      rw [← hafter, htrim] at hhead
      exact List.dropWhile_cons_of_neg (by simpa using hhead)
  rw [trimBlanks_eq (trimBlanks cs), hfront, trimBlanks_eq, List.rdropWhile_idempotent]

/-- A text without blanks is not trimmed. -/
lemma trimBlanks_of_not_blank {cs : List Char} (h : ∀ c ∈ cs, isBlank c = false) :
    trimBlanks cs = cs := by
  have hdrop {ds : List Char} (hd : ∀ c ∈ ds, isBlank c = false) : ds.dropWhile isBlank = ds := by
    cases ds with
    | nil => rfl
    | cons d ds => exact List.dropWhile_cons_of_neg (by simp [hd d List.mem_cons_self])
  rw [trimBlanks, hdrop h, hdrop fun c hc => h c (List.mem_reverse.1 hc), List.reverse_reverse]

lemma isBlank_of_isNumeric {c : Char} (h : isNumeric c = true) : isBlank c = false := by
  simp only [isNumeric, Bool.or_eq_true, beq_iff_eq] at h
  rcases h with (((h | rfl) | rfl) | rfl) | rfl
  · rw [Char.isDigit, Bool.and_eq_true, decide_eq_true_eq, decide_eq_true_eq] at h
    have hlow : 48 ≤ c.toNat := UInt32.le_iff_toNat_le.1 h.1
    have hhigh : c.toNat ≤ 57 := UInt32.le_iff_toNat_le.1 h.2
    simp only [isBlank, Bool.or_eq_false_iff, Bool.and_eq_false_iff, decide_eq_false_iff_not,
      beq_eq_false_iff_ne, ne_eq]
    omega
  all_goals decide

lemma trimBlanks_of_isNumeric {cs : List Char} (h : ∀ c ∈ cs, isNumeric c = true) :
    trimBlanks cs = cs :=
  trimBlanks_of_not_blank fun c hc => isBlank_of_isNumeric (h c hc)

namespace SettingValue

/-! ## Literals -/

/-- A numeric text is no word with a meaning. -/
lemma ofLiteral_of_isNumeric {literal : String} (hne : literal.toList ≠ [])
    (h : ∀ c ∈ literal.toList, isNumeric c = true) :
    ofLiteral literal =
      match Literal.int64? literal.toList with
      | some n => .ok (int n)
      | none =>
        match Literal.readReal literal.toList with
        | .finite x => .ok (float x)
        | .nonfinite => .error (.invalidLiteral literal)
        | .notANumber => .ok (choice literal) := by
  have hword (c : Char) {word : String} (hc : c ∈ word.toList) (hnot : isNumeric c = false) :
      ¬ literal = word := by
    rintro rfl
    rw [h c hc] at hnot
    cases hnot
  have htrue : ¬ literal = "true" := hword 't' (by decide) (by decide)
  have hfalse : ¬ literal = "false" := hword 'f' (by decide) (by decide)
  have hauto : ¬ literal = "auto" := hword 'a' (by decide) (by decide)
  have hnull : ¬ literal = "null" := hword 'n' (by decide) (by decide)
  rw [ofLiteral]
  rw [trimBlanks_of_isNumeric h, String.ofList_toList, if_neg hne, if_neg htrue, if_neg hfalse]
  exact if_neg (by simp [hauto, hnull])

/-- Literals that are the same but for blanks at their ends are read alike. -/
lemma ofLiteral_of_trimBlanks_eq {l l' : String} {v : SettingValue}
    (htrim : trimBlanks l.toList = trimBlanks l'.toList) (h : ofLiteral l = .ok v) :
    ofLiteral l' = .ok v := by
  rw [ofLiteral] at h ⊢
  rw [← htrim]
  generalize trimBlanks l.toList = chars at h ⊢
  split_ifs at h ⊢
  · exact h
  · exact h
  · exact h
  · cases hint : Literal.int64? chars with
    | some n =>
      rw [hint] at h
      exact h
    | none =>
      rw [hint] at h
      dsimp only at h ⊢
      cases hreal : Literal.readReal chars with
      | nonfinite =>
        rw [hreal] at h
        cases h
      | finite x =>
        rw [hreal] at h
        exact h
      | notANumber =>
        rw [hreal] at h
        exact h

/-! ## What is shown -/

lemma int64?_toString (n : Int64) : Literal.int64? (toString n.toInt).toList = some n := by
  have hrange : Int64.minValue.toInt ≤ n.toInt ∧ n.toInt ≤ Int64.maxValue.toInt :=
    ⟨Int64.minValue_le_toInt n, Int64.toInt_le n⟩
  have hdigit : ∀ c ∈ Nat.toDigits 10 n.toInt.natAbs, c.isDigit = true :=
    fun _ => isDigit_of_mem_toDigits
  have hsplit : Literal.splitSign (Json.wholeChars n.toInt) =
      (decide (n.toInt < 0), Nat.toDigits 10 n.toInt.natAbs) := by
    unfold Json.wholeChars
    split_ifs with hneg
    · rw [decide_eq_true hneg]
      rfl
    · rw [decide_eq_false hneg]
      simpa using Literal.splitSign_of_isDigit Nat.toDigits_ne_nil hdigit []
  have hvalue : (if decide (n.toInt < 0) = true then -(n.toInt.natAbs : Int)
      else (n.toInt.natAbs : Int)) = n.toInt := by
    split_ifs with hneg
    · have := of_decide_eq_true hneg
      omega
    · have := not_lt.1 fun h => hneg (decide_eq_true h)
      omega
  rw [← Json.wholeChars_eq_toString, Literal.int64?, hsplit]
  dsimp only
  rw [if_pos ⟨Nat.toDigits_ne_nil, List.all_eq_true.2 hdigit⟩, Literal.digitsValue_toDigits, hvalue,
    if_pos hrange, Int64.ofInt_toInt]

/-- What has a character that is no digit and no sign is no integer. -/
lemma int64?_eq_none {cs : List Char} {c : Char} (hc : c ∈ cs) (hdigit : c.isDigit = false)
    (hminus : c ≠ '-') (hplus : c ≠ '+') : Literal.int64? cs = none := by
  have hrest : c ∈ (Literal.splitSign cs).2 := by
    unfold Literal.splitSign
    split
    · exact (List.mem_cons.1 hc).resolve_left hminus
    · exact (List.mem_cons.1 hc).resolve_left hplus
    · exact hc
  rw [Literal.int64?]
  generalize Literal.splitSign cs = split at hrest ⊢
  dsimp only
  refine if_neg fun h => ?_
  have hall := List.all_eq_true.1 h.2 c hrest
  rw [hdigit] at hall
  cases hall

lemma ofLiteral_display_int (n : Int64) : ofLiteral (int n).display = .ok (int n) := by
  have hnumeric : ∀ c ∈ (toString n.toInt).toList, isNumeric c = true := by
    rw [← Json.wholeChars_eq_toString]
    exact fun c => Json.isNumeric_of_mem_wholeChars
  have hne : (toString n.toInt).toList ≠ [] := by
    rw [← Json.wholeChars_eq_toString]
    exact Json.wholeChars_ne_nil n.toInt
  rw [display, ofLiteral_of_isNumeric hne hnumeric, int64?_toString]

lemma ofLiteral_display_float (x : Binary64) : ofLiteral (float x).display = .ok (float x) := by
  have hchars : (Layout.literal.text x).toList = Layout.literal.chars x := String.toList_ofList
  have hmark := Layout.literal.point_or_exponent_mem x
  have hne : (Layout.literal.text x).toList ≠ [] := by
    rw [hchars]
    rcases hmark with h | h
    · exact List.ne_nil_of_mem h
    · exact List.ne_nil_of_mem h
  have hnumeric : ∀ c ∈ (Layout.literal.text x).toList, isNumeric c = true := by
    rw [hchars]
    exact Layout.isNumeric_of_mem_chars (by simp [Layout.literal]) x
  have hint : Literal.int64? (Layout.literal.chars x) = none := by
    rcases hmark with h | h
    · exact int64?_eq_none h (by decide) (by decide) (by decide)
    · exact int64?_eq_none h (by decide) (by decide) (by decide)
  rw [display, ofLiteral_of_isNumeric hne hnumeric, hchars, hint,
    Literal.readReal_chars (.inl rfl)]

lemma eq_of_ofLiteral_choice {l s : String} (h : ofLiteral l = .ok (choice s)) :
    s = String.ofList (trimBlanks l.toList) := by
  rw [ofLiteral] at h
  split_ifs at h
  · cases h
  · cases h
  · cases h
  · split at h
    · cases h
    · split at h <;> cases h
      rfl

/-- What is shown for a value that was read is read as the same value. -/
theorem ofLiteral_display {l : String} {v : SettingValue} (h : ofLiteral l = .ok v) :
    ofLiteral v.display = .ok v := by
  cases v with
  | bool b => cases b <;> rfl
  | int n => exact ofLiteral_display_int n
  | float x => exact ofLiteral_display_float x
  | choice s =>
    refine ofLiteral_of_trimBlanks_eq ?_ h
    rw [display, eq_of_ofLiteral_choice h, String.toList_ofList, trimBlanks_trimBlanks]
  | auto => rfl

/-! ## Numbers that are not finite -/

/-- An integer is a finite number. -/
lemma readReal_of_int64? {cs : List Char} {n : Int64} (h : Literal.int64? cs = some n) :
    ∃ x, Literal.readReal cs = .finite x := by
  rw [Literal.int64?] at h
  generalize hsplit : Literal.splitSign cs = split at h
  obtain ⟨negative, digits⟩ := split
  dsimp only at h
  have hform : (digits ≠ [] ∧ digits.all Char.isDigit = true) ∧
      Literal.digitsValue digits < 2 ^ 64 := by
    have hmin : Int64.minValue.toInt = -2 ^ 63 := rfl
    have hmax : Int64.maxValue.toInt = 2 ^ 63 - 1 := rfl
    rw [hmin, hmax] at h
    split_ifs at h with hform hnegative hrange hrange
    · exact ⟨hform, by omega⟩
    · exact ⟨hform, by omega⟩
  obtain ⟨⟨hne, hall⟩, hlt⟩ := hform
  have hdigit : ∀ c ∈ digits, c.isDigit = true := List.all_eq_true.1 hall
  have htake : digits.takeWhile Char.isDigit = digits := List.takeWhile_eq_self_iff.2 hdigit
  have hdrop : digits.dropWhile Char.isDigit = [] := List.dropWhile_eq_nil_iff.2 hdigit
  have hreal : Literal.real? cs = some ⟨negative, Literal.digitsValue digits, 0⟩ := by
    rw [Literal.real?, hsplit]
    dsimp only
    rw [htake, hdrop, if_neg fun h => hne h.1, List.append_nil]
    rfl
  obtain ⟨x, hx⟩ := Option.isSome_iff_exists.1 (Binary64.isSome_ofDecimal_whole negative hlt)
  refine ⟨x, ?_⟩
  rw [Literal.readReal, hreal]
  dsimp only
  rw [hx]

/-- A literal that names a number that is not finite, or one too large, is refused. -/
lemma ofLiteral_of_nonfinite {l : String}
    (h : Literal.readReal (trimBlanks l.toList) = .nonfinite) :
    ofLiteral l = .error (.invalidLiteral l) := by
  have hword {word : String} (hw : Literal.readReal word.toList = .notANumber) :
      ¬ String.ofList (trimBlanks l.toList) = word := by
    rintro rfl
    rw [String.toList_ofList, h] at hw
    cases hw
  have hint : Literal.int64? (trimBlanks l.toList) = none := by
    cases hint : Literal.int64? (trimBlanks l.toList) with
    | none => rfl
    | some n =>
      obtain ⟨x, hx⟩ := readReal_of_int64? hint
      rw [h] at hx
      cases hx
  rw [ofLiteral]
  split_ifs with hempty htrue hfalse hauto
  · rfl
  · exact absurd htrue (hword rfl)
  · exact absurd hfalse (hword rfl)
  · rcases hauto with hauto | hnull
    · exact absurd hauto (hword rfl)
    · exact absurd hnull (hword rfl)
  · rw [hint, h]

/-! ## Assignments -/

/-- An assignment is accepted if the text before its first `=` is not blank, and the text behind it
is a literal. -/
lemma ofAssignment_eq_ok {assignment key : String} {v : SettingValue} :
    ofAssignment assignment = .ok (key, v) ↔
      ∃ before literal, assignment.toList = before ++ '=' :: literal ∧ '=' ∉ before ∧
        trimBlanks before ≠ [] ∧ key = String.ofList (trimBlanks before) ∧
        ofLiteral (String.ofList literal) = .ok v := by
  have hsplit := List.takeWhile_append_dropWhile (p := (· != '=')) (l := assignment.toList)
  rw [ofAssignment]
  constructor
  · intro h
    have hbefore : '=' ∉ assignment.toList.takeWhile (· != '=') := fun hm => by
      simpa using List.mem_takeWhile_imp hm
    split at h
    · rename_i literal hafter
      split_ifs at h with hkey
      obtain ⟨value, hvalue, hpair⟩ := map_eq_ok.1 h
      obtain ⟨rfl, rfl⟩ := Prod.mk.inj hpair
      rw [hafter] at hsplit
      exact ⟨_, literal, hsplit.symm, hbefore, hkey, rfl, hvalue⟩
    · cases h
  · rintro ⟨before, literal, htext, hbefore, hkey, rfl, hvalue⟩
    have hall : ∀ c ∈ before, (c != '=') = true := by
      intro c hc
      exact bne_iff_ne.2 fun h => hbefore (h ▸ hc)
    have htake : assignment.toList.takeWhile (· != '=') = before := by
      rw [htext, List.takeWhile_append_of_pos hall, List.takeWhile_cons_of_neg (by simp),
        List.append_nil]
    have hdrop : assignment.toList.dropWhile (· != '=') = '=' :: literal := by
      rw [htext, List.dropWhile_append_of_pos hall, List.dropWhile_cons_of_neg (by simp)]
    rw [htake, hdrop]
    show (if trimBlanks before = [] then .error (.invalidLiteral assignment)
      else (ofLiteral (String.ofList literal)).map fun v =>
        (String.ofList (trimBlanks before), v)) = _
    rw [if_neg hkey, hvalue]
    rfl

/-- An accepted assignment is accepted again as it is shown, with its key and its value. -/
lemma ofAssignment_display {assignment key : String} {v : SettingValue}
    (h : ofAssignment assignment = .ok (key, v)) :
    key ≠ "" ∧ '=' ∉ key.toList ∧ trimBlanks key.toList = key.toList ∧
      ofAssignment (key ++ "=" ++ v.display) = .ok (key, v) := by
  obtain ⟨before, literal, -, hbefore, hkey, rfl, hvalue⟩ := ofAssignment_eq_ok.1 h
  have hlist : (String.ofList (trimBlanks before)).toList = trimBlanks before := String.toList_ofList
  have hequals : '=' ∉ trimBlanks before := by
    intro hm
    have hdrop := (List.rdropWhile_prefix isBlank (l := before.dropWhile isBlank)).subset hm
    exact hbefore ((List.dropWhile_suffix isBlank).subset hdrop)
  refine ⟨fun hempty => hkey ?_, by rwa [hlist], by rw [hlist, trimBlanks_trimBlanks], ?_⟩
  · rw [← hlist, hempty]
    rfl
  · refine ofAssignment_eq_ok.2 ⟨trimBlanks before, v.display.toList, ?_, hequals, ?_, ?_, ?_⟩
    · rw [String.toList_append, String.toList_append, hlist, List.append_assoc]
      rfl
    · rwa [trimBlanks_trimBlanks]
    · rw [trimBlanks_trimBlanks]
    · rw [String.ofList_toList]
      exact ofLiteral_display hvalue

end SettingValue

/-- What is shown for a setting can be typed back. The key of an accepted assignment is not empty,
has no `=` in it and no blanks at its ends, and the key, a `=` and the shown value are an assignment
of the same value to the same key. In the same way an accepted literal is read from what is shown
for it as the same value. And a literal that is a number too large, or the name of one that is not
finite, is refused. -/
theorem shown_settings_read_back :
    (∀ {assignment key : String} {v : SettingValue},
      SettingValue.ofAssignment assignment = .ok (key, v) →
        key ≠ "" ∧ '=' ∉ key.toList ∧ trimBlanks key.toList = key.toList ∧
          SettingValue.ofAssignment (key ++ "=" ++ v.display) = .ok (key, v)) ∧
    (∀ {literal : String} {v : SettingValue}, SettingValue.ofLiteral literal = .ok v →
      SettingValue.ofLiteral v.display = .ok v) ∧
    ∀ {literal : String}, Literal.readReal (trimBlanks literal.toList) = .nonfinite →
      SettingValue.ofLiteral literal = .error (.invalidLiteral literal) :=
  ⟨SettingValue.ofAssignment_display, SettingValue.ofLiteral_display,
    SettingValue.ofLiteral_of_nonfinite⟩

/-- A choice with a `=` and a space in it comes back, a number with blanks around it comes back as
the same number, and an overflowing number is refused. -/
theorem shown_settings_read_back_on_literals :
    SettingValue.ofAssignment " mode = a=b c" = .ok ("mode", .choice "a=b c") ∧
      SettingValue.ofAssignment "mode=a=b c" = .ok ("mode", .choice "a=b c") ∧
      SettingValue.ofLiteral " -007 " = .ok (.int (-7)) ∧
      SettingValue.ofLiteral "-7" = .ok (.int (-7)) ∧
      SettingValue.ofLiteral "1e999" = .error (.invalidLiteral "1e999") := by
  obtain ⟨hassignments, hliterals, hnonfinite⟩ := shown_settings_read_back
  have hassignment : SettingValue.ofAssignment " mode = a=b c" = .ok ("mode", .choice "a=b c") := by
    decide +kernel
  have hliteral : SettingValue.ofLiteral " -007 " = .ok (.int (-7)) := by decide +kernel
  exact ⟨hassignment, (hassignments hassignment).2.2.2, hliteral, hliterals hliteral,
    hnonfinite (by decide +kernel)⟩

end LayerChain
