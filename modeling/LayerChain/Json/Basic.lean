import LayerChain.Number.Binary64

/-!
# JSON values

A JSON value, with whole numbers apart from floating-point ones: `1` and `1.0` are different
values. The members of an object keep their order.
-/

namespace LayerChain

inductive Json where
  | null
  | bool (b : Bool)
  | whole (n : Int)
  | float (x : Binary64)
  | text (s : String)
  | list (items : List Json)
  | object (members : List (String × Json))

namespace Json

instance : Inhabited Json := ⟨null⟩

mutual

/-- Equality of values, with floating-point numbers compared numerically. -/
def equal : Json → Json → Bool
  | null, null => true
  | bool a, bool b => a == b
  | whole m, whole n => m == n
  | float x, float y => x.equal y
  | text s, text t => s == t
  | list xs, list ys => equalItems xs ys
  | object xs, object ys => equalMembers xs ys
  | _, _ => false

/-- Equality of lists of values, item by item. -/
def equalItems : List Json → List Json → Bool
  | [], [] => true
  | x :: xs, y :: ys => x.equal y && equalItems xs ys
  | _, _ => false

/-- Equality of lists of members, in order. -/
def equalMembers : List (String × Json) → List (String × Json) → Bool
  | [], [] => true
  | (k, x) :: xs, (l, y) :: ys => k == l && x.equal y && equalMembers xs ys
  | _, _ => false

end

/-- The members with one more, kept in increasing order of their names; a member of that name is
replaced. -/
def insertSorted (name : String) (value : Json) : List (String × Json) → List (String × Json)
  | [] => [(name, value)]
  | (k, v) :: rest =>
    if name < k then (name, value) :: (k, v) :: rest
    else if name = k then (name, value) :: rest
    else (k, v) :: insertSorted name value rest

/-- The members in increasing order of their names, of each name the last one. -/
def sortMembers (members : List (String × Json)) : List (String × Json) :=
  members.foldl (fun sorted m => insertSorted m.1 m.2 sorted) []

end Json

end LayerChain
