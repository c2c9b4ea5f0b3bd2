/-!
# Paths

A path is a text in which slashes separate names. `Path.names` takes it apart and `Path.ofNames`
puts it together. `Path.parent?` is the path of the directory that a path stands in, as far as its
text shows, and `Path.ancestors` goes on from there.
-/

namespace LayerChain

namespace Path

/-- The names between the slashes of a list of characters; between two slashes stands an empty
name. -/
def split : List Char → List (List Char)
  | [] => [[]]
  | c :: rest =>
    if c = '/' then [] :: split rest
    else
      match split rest with
      | [] => [[c]]
      | name :: names => (c :: name) :: names

/-- The names of a path. -/
def names (path : String) : List String := (split path.toList).map String.ofList

/-- The path that has some names. -/
def ofNames (names : List String) : String := "/".intercalate names

/-- Whether a name means the directory itself in which it stands. -/
def isSelf (name : String) : Bool := name == "" || name == "."

/-! ## The directory of a path -/

/-- Names without those at the end that mean the directory itself. The first name stays. -/
def trimEnd (names : List String) : List String :=
  match names with
  | [] => []
  | first :: rest => first :: (rest.reverse.dropWhile isSelf).reverse

theorem length_trimEnd_le (names : List String) : (trimEnd names).length ≤ names.length := by
  cases names with
  | nil => simp [trimEnd]
  | cons first rest =>
    have := (List.dropWhile_sublist isSelf (l := rest.reverse)).length_le
    simpa [trimEnd] using this

/-- The names of the directory that a path of some names stands in. -/
def parentNames (names : List String) : List String := trimEnd (trimEnd names).dropLast

theorem length_parentNames_lt {names : List String} (h : names ≠ []) :
    (parentNames names).length < names.length := by
  have := length_trimEnd_le (trimEnd names).dropLast
  have := length_trimEnd_le names
  have := List.length_pos_iff.2 h
  rw [List.length_dropLast] at *
  unfold parentNames
  omega

/-- The path of the directory that a path stands in, unless that is the current directory and goes
without saying. -/
def parent? (path : String) : Option String :=
  let parent := ofNames (parentNames (names path))
  if parent = "" then none else some parent

/-- The path of some names, the path of the directory it stands in, and so on, up to the current
directory. -/
def ancestorsFrom : List String → List String
  | [] => []
  | name :: rest =>
    let path := ofNames (name :: rest)
    if path = "" then [] else path :: ancestorsFrom (parentNames (name :: rest))
termination_by names => names.length
decreasing_by exact length_parentNames_lt (List.cons_ne_nil _ _)

/-- A path and the paths of the directories that it leads through, the innermost first. -/
def ancestors (path : String) : List String := ancestorsFrom (names path)

/-! ## Limits -/

/-- How many bytes a name may have. -/
def maxName : Nat := 255

/-- How many bytes a path may have. -/
def maxPath : Nat := 4095

/-- Whether a name is too long for a file. -/
def isTooLong (name : String) : Bool := maxName < name.utf8ByteSize

end Path

end LayerChain
