import LayerChain.Proofs.Json.Tokens
import LayerChain.Proofs.Number.Texts

/-!
# One-line texts that tell values apart

A value on one line says itself where it ends, so two values with the same text are the same value
(`Json.compact_unique`): whole and floating-point numbers, words and strings of the same letters,
and objects with their members in another order have different texts. Of the floating-point numbers
in the values it is assumed that their texts are different.
-/

namespace LayerChain.Json

/-- Every floating-point number in a value is one out of some. -/
inductive FloatsIn (floats : List Binary64) : Json → Prop where
  | null : FloatsIn floats .null
  | bool (b : Bool) : FloatsIn floats (.bool b)
  | whole (n : Int) : FloatsIn floats (.whole n)
  | float {x : Binary64} (mem : x ∈ floats) : FloatsIn floats (.float x)
  | text (s : String) : FloatsIn floats (.text s)
  | list {items : List Json} (mem : ∀ v ∈ items, FloatsIn floats v) : FloatsIn floats (.list items)
  | object {members : List (String × Json)} (mem : ∀ m ∈ members, FloatsIn floats m.2) :
    FloatsIn floats (.object members)

/-- The marks that may follow a value in a text on one line. -/
def closers : List Char := [',', ']', '\x7d']

/-! ## The first character -/

/-- What the first character of a text says about the value. -/
inductive Form where
  | null
  | bool
  | number
  | text
  | list
  | object
deriving DecidableEq

/-- What the first character of a text says, if it can be one. -/
def Form.ofChar? (c : Char) : Option Form :=
  if c = 'n' then some .null
  else if c = 't' ∨ c = 'f' then some .bool
  else if c = '"' then some .text
  else if c = '[' then some .list
  else if c = '\x7b' then some .object
  else if isNumeric c then some .number
  else none

/-- The form of a value. -/
def form : Json → Form
  | null => .null
  | bool _ => .bool
  | whole _ | float _ => .number
  | text _ => .text
  | list _ => .list
  | object _ => .object

lemma ofChar?_of_isNumeric {c : Char} (h : isNumeric c = true) :
    Form.ofChar? c = some .number := by
  have hother : ∀ d ∈ ['n', 't', 'f', '"', '[', '\x7b'], isNumeric d = false :=
    forall_mem_of_all (by decide)
  have hne : ∀ d ∈ ['n', 't', 'f', '"', '[', '\x7b'], c ≠ d := by
    rintro d hd rfl
    rw [hother c hd] at h
    cases h
  simp only [List.forall_mem_cons, List.not_mem_nil, false_implies, implies_true, and_true] at hne
  obtain ⟨hn, ht, hf, hq, hl, ho⟩ := hne
  rw [Form.ofChar?, if_neg hn, if_neg (not_or.2 ⟨ht, hf⟩), if_neg hq, if_neg hl, if_neg ho,
    if_pos h]

lemma isNumeric_of_mem_document {x : Binary64} {c : Char} (h : c ∈ Layout.document.chars x) :
    isNumeric c = true :=
  Layout.isNumeric_of_mem_chars (forall_mem_of_all (by decide)) x c h

/-- The first character of a value's text says its form. -/
lemma exists_compactChars_eq (v : Json) :
    ∃ c cs, compactChars v = c :: cs ∧ Form.ofChar? c = some v.form := by
  have hnumber : ∀ cs : List Char, cs ≠ [] → (∀ c ∈ cs, isNumeric c = true) →
      ∃ c rest, cs = c :: rest ∧ Form.ofChar? c = some .number := by
    intro cs hne hcs
    obtain ⟨c, rest, rfl⟩ := List.exists_cons_of_ne_nil hne
    exact ⟨c, rest, rfl, ofChar?_of_isNumeric (hcs c List.mem_cons_self)⟩
  cases v with
  | null => exact ⟨'n', _, rfl, by decide⟩
  | bool b =>
    cases b with
    | true => exact ⟨'t', _, rfl, by decide⟩
    | false => exact ⟨'f', _, rfl, by decide⟩
  | whole n =>
    exact hnumber _ (wholeChars_ne_nil n) fun c => isNumeric_of_mem_wholeChars
  | float x =>
    refine hnumber _ ?_ fun c => isNumeric_of_mem_document
    rcases Layout.document.point_or_exponent_mem x with hm | hm <;> exact List.ne_nil_of_mem hm
  | text s => exact ⟨'"', _, rfl, rfl⟩
  | list items => exact ⟨'[', _, rfl, rfl⟩
  | object members => exact ⟨'\x7b', _, rfl, rfl⟩

/-- Values whose texts start in the same way are of one form. -/
lemma form_unique {v w : Json} {r s : List Char} (h : compactChars v ++ r = compactChars w ++ s) :
    v.form = w.form := by
  obtain ⟨c, cs, hv, hc⟩ := v.exists_compactChars_eq
  obtain ⟨d, ds, hw, hd⟩ := w.exists_compactChars_eq
  rw [hv, hw] at h
  have hcd : c = d := (List.cons.inj h).1
  rw [hcd, hd] at hc
  exact (Option.some.inj hc).symm

lemma compactChars_ne_closer (v : Json) {close : Char} (hc : close ∈ closers) (r s : List Char) :
    compactChars v ++ r ≠ close :: s := by
  obtain ⟨c, cs, hv, hform⟩ := v.exists_compactChars_eq
  have hnone : ∀ d ∈ closers, Form.ofChar? d = none := forall_mem_of_all (by decide)
  intro h
  rw [hv] at h
  have hcd : c = close := (List.cons.inj h).1
  rw [hcd, hnone close hc] at hform
  cases hform

/-! ## Numbers and strings -/

lemma stop_of_ends_closers {r : List Char} (h : Ends closers r) :
    ∀ c ∈ r.head?, isNumeric c = false := by
  have hcloser : ∀ d ∈ closers, isNumeric d = false := forall_mem_of_all (by decide)
  exact fun c hc => hcloser c (h c hc)

/-- A written string says itself where it ends. -/
lemma quoted_unique {s t : String} {r r' : List Char} (h : quoted s ++ r = quoted t ++ r') :
    s = t ∧ r = r' := by
  have hscan : ∀ (s : String) (r : List Char),
      Lexeme.scan (chars ((s.toList.flatMap escape ++ ['"']) ++ r)) = (.ofString s, chars r) := by
    intro s r
    rw [chars, List.map_append]
    exact Lexeme.scan_quoted s (chars r)
  have htail : (s.toList.flatMap escape ++ ['"']) ++ r = (t.toList.flatMap escape ++ ['"']) ++ r' :=
    (List.cons.inj h).2
  have hs := hscan s r
  rw [htail, hscan] at hs
  obtain ⟨hlexeme, hrest⟩ := Prod.mk.inj hs
  constructor
  · have htext := Lexeme.text_ofString s
    rw [← hlexeme, Lexeme.text_ofString] at htext
    exact (Except.ok.inj htext).symm
  · exact (List.map_injective_iff.2 (fun c d hcd => Symbol.char.inj hcd) hrest).symm

/-! ## Members -/

/-- The text of a member on one line. -/
def memberChars (m : String × Json) : List Char := quoted m.1 ++ ':' :: compactChars m.2

lemma member_apart {m n : String × Json} (h : Apart compactChars closers m.2 n.2) :
    Apart memberChars closers m n := by
  obtain ⟨name, v⟩ := m
  obtain ⟨name', w⟩ := n
  intro r s hr hs he
  rw [memberChars, memberChars, List.append_assoc, List.append_assoc] at he
  obtain ⟨rfl, hvalue⟩ := quoted_unique he
  obtain ⟨hvw, hrest⟩ := h r s hr hs (List.cons.inj hvalue).2
  dsimp only at hvw
  rw [hvw]
  exact ⟨rfl, hrest⟩

lemma member_ne_close (m : String × Json) (r s : List Char) : memberChars m ++ r ≠ '\x7d' :: s := by
  intro h
  exact absurd (List.cons.inj h).1 (by decide)

/-! ## All values -/

variable {floats : List Binary64}

lemma bool_apart (b c : Bool) : Apart compactChars closers (.bool b) (.bool c) := by
  intro r s _ _ h
  have hbool : b = c := by
    cases b with
    | true =>
      cases c with
      | true => rfl
      | false => exact absurd (List.cons.inj h).1 (by decide)
    | false =>
      cases c with
      | true => exact absurd (List.cons.inj h).1 (by decide)
      | false => rfl
  rw [hbool] at h ⊢
  exact ⟨rfl, List.append_cancel_left h⟩

lemma whole_apart (n m : Int) : Apart compactChars closers (.whole n) (.whole m) := by
  intro r s hr hs h
  obtain ⟨hchars, hrest⟩ := span_unique (fun c => isNumeric_of_mem_wholeChars)
    (fun c => isNumeric_of_mem_wholeChars) (stop_of_ends_closers hr) (stop_of_ends_closers hs) h
  rw [wholeChars_injective hchars]
  exact ⟨rfl, hrest⟩

lemma float_apart (hdiffer : TextsDiffer .document floats) {x y : Binary64} (hx : x ∈ floats)
    (hy : y ∈ floats) : Apart compactChars closers (.float x) (.float y) := by
  intro r s hr hs h
  obtain ⟨hchars, hrest⟩ := span_unique (fun c => isNumeric_of_mem_document)
    (fun c => isNumeric_of_mem_document) (stop_of_ends_closers hr) (stop_of_ends_closers hs) h
  rw [hdiffer x hx y hy (congrArg String.ofList hchars)]
  exact ⟨rfl, hrest⟩

/-- A whole number is never written like a floating-point one. -/
lemma whole_ne_float (n : Int) (x : Binary64) {r s : List Char} (hr : Ends closers r)
    (hs : Ends closers s) : compactChars (.whole n) ++ r ≠ compactChars (.float x) ++ s := by
  intro h
  obtain ⟨hchars, -⟩ := span_unique (fun c => isNumeric_of_mem_wholeChars)
    (fun c => isNumeric_of_mem_document) (stop_of_ends_closers hr) (stop_of_ends_closers hs) h
  exact Layout.document.chars_ne_wholeChars x n hchars.symm

/-- Lists are told apart if their items are. -/
lemma list_apart {items items' : List Json}
    (h : ∀ v ∈ items, ∀ w ∈ items', Apart compactChars closers v w) :
    Apart compactChars closers (.list items) (.list items') := by
  intro r s _ _ he
  rw [compactChars, compactChars, compactItems_eq, compactItems_eq, List.cons_append,
    List.cons_append, List.append_assoc, List.append_assoc] at he
  obtain ⟨rfl, hrest⟩ := separated_unique (by decide) (by decide) (by decide) h
    (fun v _ => v.compactChars_ne_closer (by decide)) (List.cons.inj he).2
  exact ⟨rfl, hrest⟩

/-- Objects are told apart if the values of their members are. -/
lemma object_apart {members members' : List (String × Json)}
    (h : ∀ m ∈ members, ∀ n ∈ members', Apart compactChars closers m.2 n.2) :
    Apart compactChars closers (.object members) (.object members') := by
  intro r s _ _ he
  rw [compactChars, compactChars, compactMembers_eq, compactMembers_eq, List.cons_append,
    List.cons_append, List.append_assoc, List.append_assoc] at he
  obtain ⟨rfl, hrest⟩ := separated_unique (by decide) (by decide) (by decide)
    (fun m hm n hn => member_apart (h m hm n hn)) (fun m _ => member_ne_close m)
    (List.cons.inj he).2
  exact ⟨rfl, hrest⟩

/-- The text of a value on one line tells it from every other one. -/
theorem compactChars_apart (hdiffer : TextsDiffer .document floats) {v w : Json}
    (hv : FloatsIn floats v) (hw : FloatsIn floats w) : Apart compactChars closers v w := by
  -- the first character tells the form of a value; only the two forms of numbers share theirs
  induction hv generalizing w with
  | null =>
    intro r s _ _ h
    have hform := form_unique h
    cases hw with
    | null => exact ⟨rfl, List.append_cancel_left h⟩
    | _ => cases hform
  | bool b =>
    intro r s hr hs h
    have hform := form_unique h
    cases hw with
    | bool c => exact bool_apart b c r s hr hs h
    | _ => cases hform
  | whole n =>
    intro r s hr hs h
    have hform := form_unique h
    cases hw with
    | whole m => exact whole_apart n m r s hr hs h
    | @float y mem => exact absurd h (whole_ne_float n y hr hs)
    | _ => cases hform
  | @float x memx =>
    intro r s hr hs h
    have hform := form_unique h
    cases hw with
    | whole m => exact absurd h.symm (whole_ne_float m x hs hr)
    | @float y memy => exact float_apart hdiffer memx memy r s hr hs h
    | _ => cases hform
  | text s =>
    intro r r' _ _ h
    have hform := form_unique h
    cases hw with
    | text t =>
      obtain ⟨rfl, hrest⟩ := quoted_unique h
      exact ⟨rfl, hrest⟩
    | _ => cases hform
  | @list items mem ih =>
    intro r s hr hs h
    have hform := form_unique h
    cases hw with
    | @list items' mem' =>
      exact list_apart (fun v hv w hw => ih v hv (mem' w hw)) r s hr hs h
    | _ => cases hform
  | @object members mem ih =>
    intro r s hr hs h
    have hform := form_unique h
    cases hw with
    | @object members' mem' =>
      exact object_apart (fun m hm n hn => ih m hm (mem' n hn)) r s hr hs h
    | _ => cases hform

/-- Two values with the same text on one line are the same. -/
theorem compact_unique (hdiffer : TextsDiffer .document floats) {v w : Json}
    (hv : FloatsIn floats v) (hw : FloatsIn floats w) (h : v.compact = w.compact) : v = w := by
  have hchars : compactChars v = compactChars w := String.ofList_injective h
  exact (compactChars_apart hdiffer hv hw [] [] (ends_nil _) (ends_nil _) (by rw [hchars])).1

end LayerChain.Json
