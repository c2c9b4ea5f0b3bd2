/-!
# Notes

What an operation reports beside its result, for whoever watches it: a line of text with a level.
-/

namespace LayerChain

/-- How much a note matters. -/
inductive Note.Level where
  | debug
  | info
  | warn
deriving DecidableEq, Repr

/-- A line that an operation reports. -/
structure Note where
  level : Note.Level
  text : String
deriving DecidableEq, Repr

namespace Note

/-- The name of a level. -/
def Level.name : Level → String
  | debug => "DEBUG"
  | info => "INFO"
  | warn => "WARN"

/-- A note on a single step. -/
def debug (text : String) : Note := ⟨.debug, text⟩

/-- A note on what was done. -/
def info (text : String) : Note := ⟨.info, text⟩

/-- A note on something doubtful. -/
def warn (text : String) : Note := ⟨.warn, text⟩

/-- The note on one line, after the name of its level. -/
def render (note : Note) : String := note.level.name ++ " " ++ note.text

end Note

end LayerChain
