import LayerChain.Chain.Basic

/-!
# History

What can be undone and redone. An entry holds the whole chain before and after an edit. A new edit
forgets what could be redone, and beyond a limit the oldest entries are forgotten.
-/

namespace LayerChain

/-- How many edits can be undone, unless another number is chosen. -/
def defaultUndoLevels : Nat := 50

/-- An edit that was made. -/
structure History.Entry where
  description : String
  before : Chain
  after : Chain

/-- The edits that can be undone and redone. -/
structure History where
  /-- The edits that can be undone, the latest first. -/
  undoable : List History.Entry
  /-- The edits that can be redone, the one undone last first. -/
  redoable : List History.Entry
  /-- How many edits can be undone at most. -/
  limit : Nat

namespace History

/-- A history without edits. -/
def new (limit : Nat) : History := ⟨[], [], limit⟩

instance : Inhabited History := ⟨new defaultUndoLevels⟩

/-- Records an edit. -/
def record (history : History) (entry : Entry) : History :=
  { history with undoable := (entry :: history.undoable).take history.limit, redoable := [] }

/-- Takes the latest edit back: that edit, and the history after it. -/
def undo (history : History) : Except Error (Entry × History) :=
  match history.undoable with
  | [] => .error .nothingToUndo
  | entry :: rest =>
    .ok (entry, { history with undoable := rest, redoable := entry :: history.redoable })

/-- Makes the edit again that was undone last: that edit, and the history after it. -/
def redo (history : History) : Except Error (Entry × History) :=
  match history.redoable with
  | [] => .error .nothingToRedo
  | entry :: rest =>
    .ok (entry, { history with undoable := entry :: history.undoable, redoable := rest })

/-- Whether there is an edit to undo. -/
def canUndo (history : History) : Bool := !history.undoable.isEmpty

/-- Whether there is an edit to redo. -/
def canRedo (history : History) : Bool := !history.redoable.isEmpty

/-- How many edits can be undone. -/
def undoCount (history : History) : Nat := history.undoable.length

/-- How many edits can be redone. -/
def redoCount (history : History) : Nat := history.redoable.length

/-- The edits that can be undone, the oldest first. -/
def entries (history : History) : List Entry := history.undoable.reverse

/-- Forgets all edits. -/
def clear (history : History) : History := { history with undoable := [], redoable := [] }

end History

end LayerChain
