/-!
# Indented text

A layout is a tree of texts, line breaks and indentation. Rendering puts two spaces per level in
front of the first text of a line, and nothing in front of a line break, so that no line ends in
blanks of its own.
-/

namespace Dataflow

/-- Text to be laid out over lines: texts and line breaks in a row, where the lines of some parts
are one level deeper. -/
inductive Layout
  | nil
  | text (s : String)
  | line
  | concat (parts : List Layout)
  | nest (inner : Layout)
deriving Inhabited

namespace Layout

/-- The blanks in front of a line. -/
def indentation (level : Nat) : String := String.ofList (List.replicate (2 * level) ' ')

mutual

/-- The text of a layout at a level, and whether a line has just been broken after it; `fresh` tells
whether one has just been broken before it. -/
def write (level : Nat) (fresh : Bool) : Layout → String × Bool
  | nil => ("", fresh)
  | text s =>
    if s.isEmpty then ("", fresh)
    else if fresh then (indentation level ++ s, false)
    else (s, false)
  | line => ("\n", true)
  | concat parts => writeAll level fresh parts
  | nest inner => inner.write (level + 1) fresh

/-- The text of layouts one after another. -/
def writeAll (level : Nat) (fresh : Bool) : List Layout → String × Bool
  | [] => ("", fresh)
  | part :: parts =>
    let (s, fresh) := part.write level fresh
    let (t, fresh) := writeAll level fresh parts
    (s ++ t, fresh)

end

/-- The text of a layout. -/
def render (l : Layout) : String := (l.write 0 true).1

end Layout

end Dataflow
