import LayerChain.Proofs.Source.Literals
import LayerChain.Source.Generator

/-!
# Declarations that tell components apart

The line that declares a component says its name, its class and its arguments, and nothing in these
parts can be taken for the marks between them: names, classes and keywords are made of the
characters of identifiers, and the arguments are literals (`Component.Plain`). So different
components are declared in different lines (`Component.declared_unique`), and since no declaration
leaves its line, modules with the same text declare the same components
(`moduleLines_declared_unique`).
-/

namespace LayerChain

/-! ## The characters of identifiers -/

/-- A text is made of the characters of identifiers. -/
def IdentifierText (text : String) : Prop :=
  ∀ c ∈ text.toList, Component.continuesIdentifier c = true

lemma IdentifierText.notMem {text : String} (h : IdentifierText text) {mark : Char}
    (hm : Component.continuesIdentifier mark = false) : mark ∉ text.toList := by
  intro hmem
  rw [h mark hmem] at hm
  cases hm

lemma IdentifierText.oneLine {text : String} (h : IdentifierText text) : OneLine text.toList := by
  intro c hc
  by_contra hbreak
  have hmark : ∀ b, isLineBreak b = true → Component.continuesIdentifier b = false := by
    intro b hb
    simp only [isLineBreak, Bool.or_eq_true, beq_iff_eq] at hb
    rcases hb with rfl | rfl
    · rfl
    · rfl
  exact h.notMem (hmark c (by simpa using hbreak)) hc

lemma IdentifierText.append {text text' : String} (h : IdentifierText text)
    (h' : IdentifierText text') : IdentifierText (text ++ text') := by
  intro c hc
  rw [String.toList_append, List.mem_append] at hc
  rcases hc with hc | hc
  · exact h c hc
  · exact h' c hc

lemma isDigit_of_mem_position {position : Nat} {c : Char} (h : c ∈ (toString position).toList) :
    c.isDigit = true := by
  have hdigits : (toString position).toList = Nat.toDigits 10 position := Nat.toList_repr
  rw [hdigits] at h
  exact isDigit_of_mem_toDigits h

lemma identifierText_position (position : Nat) : IdentifierText (toString position) := by
  intro c hc
  have hdigit := isDigit_of_mem_position hc
  simp [Component.continuesIdentifier, Char.isAlphanum, hdigit]

lemma identifierText_of_isIdentifier {name : String} (h : Component.isIdentifier name = true) :
    IdentifierText name := by
  unfold Component.isIdentifier at h
  intro c hc
  cases hname : name.toList with
  | nil =>
    rw [hname] at hc
    cases hc
  | cons first rest =>
    rw [hname] at h hc
    obtain ⟨hfirst, hrest⟩ := Bool.and_eq_true_iff.1 h
    rcases List.mem_cons.1 hc with rfl | hc
    · simp only [Component.startsIdentifier, Bool.or_eq_true] at hfirst
      simp only [Component.continuesIdentifier, Char.isAlphanum, Bool.or_eq_true]
      rcases hfirst with hfirst | hfirst
      · exact .inl (.inl hfirst)
      · exact .inr hfirst
    · exact List.all_eq_true.1 hrest c hc

namespace Component

/-! ## Arguments -/

/-- The text of an argument: a keyword and a literal. -/
def argument (a : String × String) : List Char := (a.1 ++ "=" ++ a.2).toList

lemma argument_eq (keyword literal : String) :
    argument (keyword, literal) = keyword.toList ++ '=' :: literal.toList := by
  simp [argument]

/-- The literal of an argument is that of a value, which is no floating-point number or one out of
some. -/
def IsLiteral (floats : List Binary64) (literal : String) : Prop :=
  ∃ v, literal = PythonLiteral.ofValue v ∧ ∀ x, v = .float x → x ∈ floats

/-- Nothing in a component can be taken for a mark of its declaration. Its floating-point numbers
are some of the given ones. -/
structure Plain (floats : List Binary64) (c : Component) : Prop where
  name : IdentifierText c.name
  className : IdentifierText c.className
  keyword : ∀ a ∈ c.arguments, IdentifierText a.1
  literal : ∀ a ∈ c.arguments, IsLiteral floats a.2

/-- What the declaration of a component says. -/
def declared (c : Component) : String × String × List (String × String) :=
  (c.name, c.className, c.arguments)

variable {floats : List Binary64} {c d : Component}

lemma argument_apart (hfloats : TextsDiffer .literal floats) {a b : String × String}
    (ha : IdentifierText a.1) (hb : IdentifierText b.1) (hla : IsLiteral floats a.2)
    (hlb : IsLiteral floats b.2) : Apart argument [',', ')'] a b := by
  obtain ⟨k, l⟩ := a
  obtain ⟨k', l'⟩ := b
  obtain ⟨v, rfl, hv⟩ := hla
  obtain ⟨w, rfl, hw⟩ := hlb
  intro r s hr hs h
  rw [argument_eq, argument_eq, List.append_assoc, List.append_assoc] at h
  obtain ⟨hkeyword, hrest⟩ := mark_unique (ha.notMem (by decide)) (hb.notMem (by decide)) h
  have hvalue : Apart (fun v => (PythonLiteral.ofValue v).toList) [',', ')'] v w :=
    PythonLiteral.ofValue_apart fun x y hx hy => hfloats x (hv x hx) y (hw y hy)
  obtain rfl : k = k' := String.toList_injective hkeyword
  obtain ⟨rfl, rfl⟩ := hvalue r s hr hs hrest
  exact ⟨rfl, rfl⟩

/-- An argument starts with its keyword, or with the sign behind it. -/
lemma argument_ne_close {a : String × String} (ha : IdentifierText a.1) (r s : List Char) :
    argument a ++ r ≠ ')' :: s := by
  obtain ⟨keyword, literal⟩ := a
  intro h
  rw [argument_eq] at h
  cases hk : keyword.toList with
  | nil =>
    rw [hk] at h
    exact absurd (List.cons.inj h).1 (by decide)
  | cons first rest =>
    rw [hk] at h
    have hfirst : first = ')' := (List.cons.inj h).1
    have hcontinues := ha first (hk ▸ List.mem_cons_self)
    rw [hfirst] at hcontinues
    exact absurd hcontinues (by decide)

lemma oneLine_argument {a : String × String} (ha : IdentifierText a.1)
    (hl : IsLiteral floats a.2) : OneLine (argument a) := by
  obtain ⟨keyword, literal⟩ := a
  obtain ⟨v, rfl, -⟩ := hl
  rw [argument_eq]
  simp [isLineBreak, ha.oneLine, PythonLiteral.oneLine_ofValue]

/-! ## Declarations -/

lemma intercalate_eq_separated (parts : List (List Char)) :
    [',', ' '].intercalate parts = separated [' '] parts := by
  induction parts with
  | nil => rfl
  | cons part rest ih =>
    cases rest with
    | nil => simp [separated]
    | cons next rest =>
      rw [List.intercalate_cons_cons, ih]
      simp [separated]

lemma toList_declaration (c : Component) :
    c.declaration.toList = "self.".toList ++ (c.name.toList ++ ' ' :: ("= nn.".toList ++
      (c.className.toList ++ '(' :: (separated [' '] (c.arguments.map argument) ++ [')'])))) := by
  have hdeclaration : c.declaration = "self." ++ c.name ++ " = nn." ++ c.className ++ "(" ++
      ", ".intercalate (c.arguments.map fun a => a.1 ++ "=" ++ a.2) ++ ")" := rfl
  have harguments : (", ".intercalate (c.arguments.map fun a => a.1 ++ "=" ++ a.2)).toList =
      separated [' '] (c.arguments.map argument) := by
    rw [String.toList_intercalate, List.map_map]
    exact intercalate_eq_separated _
  simp only [hdeclaration, String.toList_append, harguments]
  simp

/-- Components with the same declaration declare the same. -/
theorem declared_unique (hfloats : TextsDiffer .literal floats) (hc : c.Plain floats)
    (hd : d.Plain floats) (h : c.declaration = d.declaration) : c.declared = d.declared := by
  have hchars := congrArg String.toList h
  rw [toList_declaration, toList_declaration] at hchars
  obtain ⟨hname, hclass⟩ := mark_unique (hc.name.notMem (by decide)) (hd.name.notMem (by decide))
    (List.append_cancel_left hchars)
  obtain ⟨hclass, hargs⟩ := mark_unique (hc.className.notMem (by decide))
    (hd.className.notMem (by decide)) (List.append_cancel_left hclass)
  have hpart : ∀ a ∈ c.arguments, ∀ b ∈ d.arguments, Apart argument [',', ')'] a b :=
    fun a ha b hb => argument_apart hfloats (hc.keyword a ha) (hd.keyword b hb) (hc.literal a ha)
      (hd.literal b hb)
  have hopen : ∀ a ∈ c.arguments ++ d.arguments, ∀ r s, argument a ++ r ≠ ')' :: s := by
    intro a ha
    rcases List.mem_append.1 ha with ha | ha
    · exact argument_ne_close (hc.keyword a ha)
    · exact argument_ne_close (hd.keyword a ha)
  obtain ⟨harguments, -⟩ := separated_unique (by decide) (by decide) (by decide) hpart hopen hargs
  rw [declared, declared, String.toList_injective hname, String.toList_injective hclass, harguments]

/-- No declaration leaves its line. -/
lemma oneLine_declaration (hc : c.Plain floats) : OneLine c.declaration.toList := by
  have hargs : OneLine (separated [' '] (c.arguments.map argument)) := by
    intro b hb
    rcases mem_separated hb with rfl | hb | ⟨part, hpart, hb⟩
    · rfl
    · obtain rfl := List.mem_singleton.1 hb
      rfl
    · obtain ⟨a, ha, rfl⟩ := List.mem_map.1 hpart
      exact oneLine_argument (hc.keyword a ha) (hc.literal a ha) b hb
  rw [toList_declaration]
  simp [isLineBreak, hc.name.oneLine, hc.className.oneLine, hargs]

end Component

/-! ## Modules -/

/-- The lines of a module, written out. The constructor declares each component with its name, its
class and its arguments, and forward has one line for each of them in the same order. -/
def writtenLines (className : String) (cs : List Component) : List String :=
  [ "import torch",
    "import torch.nn as nn",
    "",
    "",
    "class " ++ className ++ "(nn.Module):",
    "    def __init__(self):",
    "        super().__init__()"] ++
  (cs.map fun c => "        " ++ ("self." ++ c.name ++ " = nn." ++ c.className ++
    "(" ++ ", ".intercalate (c.arguments.map fun a => a.1 ++ "=" ++ a.2) ++ ")")) ++
  [ "",
    "    def forward(self, x):"] ++
  (cs.map fun c => "        " ++ c.application) ++
  [ "        return x",
    "",
    "",
    "model = " ++ className ++ "()"]

lemma moduleLines_eq (className : String) (cs : List Component) :
    moduleLines className cs = writtenLines className cs := rfl

/-- The source of a model is the written text of its components. -/
lemma Generator.generate_eq (generator : Generator) (model : Model) :
    generator.generate model =
      model.components.map fun cs => textOfLines (writtenLines generator.className cs) := by
  simp only [generate, moduleLines_eq]

lemma toList_textOfLines (lines : List String) :
    (textOfLines lines).toList = (lines.map String.toList).flatMap fun l => l ++ ['\n'] := by
  rw [textOfLines, String.toList_join, List.flatMap_map, List.flatMap_map]
  simp

variable {floats : List Binary64} {cs ds : List Component}

/-- The lines that declare some components. -/
def declarationLines (components : List Component) : List (List Char) :=
  components.map fun c => (indent ++ indent ++ c.declaration).toList

lemma declarationLines_delimited (hc : ∀ c ∈ cs, c.Plain floats) :
    ∀ l ∈ declarationLines cs, l ≠ [] ∧ '\n' ∉ l := by
  intro l hl
  obtain ⟨c, hcs, rfl⟩ := List.mem_map.1 hl
  have hline := (Component.oneLine_declaration (hc c hcs)).notMem (b := '\n') rfl
  constructor
  · simp [indent]
  · simp [indent, hline]

/-- Modules with the same class name and the same text have the same declarations. -/
lemma declarationLines_unique (hc : ∀ c ∈ cs, c.Plain floats) (hd : ∀ d ∈ ds, d.Plain floats)
    {className : String}
    (h : textOfLines (moduleLines className cs) = textOfLines (moduleLines className ds)) :
    declarationLines cs = declarationLines ds := by
  have hchars := congrArg String.toList h
  rw [toList_textOfLines, toList_textOfLines, moduleLines, moduleLines] at hchars
  simp only [List.map_append, List.flatMap_append, List.append_assoc, List.map_map] at hchars
  -- the class name is the same, and an empty line follows the declarations
  have hlines := List.append_cancel_left hchars
  exact (lines_unique (declarationLines_delimited hc) (declarationLines_delimited hd) hlines).1

/-- Where the declarations are the same, line by line, the components declare the same. -/
lemma declared_unique_of_lines (hfloats : TextsDiffer .literal floats)
    (hc : ∀ c ∈ cs, c.Plain floats) (hd : ∀ d ∈ ds, d.Plain floats)
    (h : declarationLines cs = declarationLines ds) :
    cs.map Component.declared = ds.map Component.declared := by
  induction cs generalizing ds with
  | nil =>
    cases ds with
    | nil => rfl
    | cons d ds => cases h
  | cons c cs ih =>
    cases ds with
    | nil => cases h
    | cons d ds =>
      obtain ⟨hc, hcs⟩ := List.forall_mem_cons.1 hc
      obtain ⟨hd, hds⟩ := List.forall_mem_cons.1 hd
      obtain ⟨hline, hlines⟩ := List.cons.inj h
      simp only [String.toList_append] at hline
      have hdeclaration := String.toList_injective (List.append_cancel_left hline)
      rw [List.map_cons, List.map_cons, Component.declared_unique hfloats hc hd hdeclaration,
        ih hcs hds hlines]

/-- Modules with the same class name and the same text declare the same components. -/
theorem moduleLines_declared_unique (hfloats : TextsDiffer .literal floats)
    (hc : ∀ c ∈ cs, c.Plain floats) (hd : ∀ d ∈ ds, d.Plain floats) {className : String}
    (h : textOfLines (moduleLines className cs) = textOfLines (moduleLines className ds)) :
    cs.map Component.declared = ds.map Component.declared :=
  declared_unique_of_lines hfloats hc hd (declarationLines_unique hc hd h)

end LayerChain
