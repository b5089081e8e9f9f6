/-!
# Registries

A registry assigns an element to each of some names, and lists them in increasing order of the
names.
-/

namespace Dataflow

/-- The number of an element: its position among the elements of its graph. -/
abbrev ElementId := Nat

/-- Names with their elements, in increasing order of the names. -/
structure Registry where
  entries : List (String × ElementId) := []
deriving DecidableEq, Inhabited

namespace Registry

/-- The element of a name. -/
def find? (r : Registry) (name : String) : Option ElementId := r.entries.lookup name

/-- Put an entry at its place, over an entry with the same name. -/
def insertEntry (name : String) (id : ElementId) :
    List (String × ElementId) → List (String × ElementId)
  | [] => [(name, id)]
  | (n, i) :: rest =>
    if name < n then (name, id) :: (n, i) :: rest
    else if name = n then (name, id) :: rest
    else (n, i) :: insertEntry name id rest

/-- Assign an element to a name, whether it has one or not. -/
def insert (r : Registry) (name : String) (id : ElementId) : Registry :=
  ⟨insertEntry name id r.entries⟩

/-- Assign an element to a name that has none. -/
def insertNew (r : Registry) (name : String) (id : ElementId) : Registry :=
  if (r.find? name).isSome then r else r.insert name id

/-- Drop a name. -/
def erase (r : Registry) (name : String) : Registry :=
  ⟨r.entries.filter fun e => e.1 ≠ name⟩

end Registry

end Dataflow
