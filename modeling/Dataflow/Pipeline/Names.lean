import Dataflow.Pipeline.Error

/-!
# Names of elements

In a pipeline every element has a name of its own: tables and inputs their relation, all others
their number.
-/

namespace Dataflow

/-- The names of a graph's elements, by number. -/
structure Names where
  names : List String
deriving DecidableEq, Inhabited

namespace Names

/-- The names of some elements; `owners` has the elements named before, with their names. -/
def assign (owners : List (String × ElementId)) : List Element → Except GenerateError (List String)
  | [] => .ok []
  | e :: es =>
    match owners.lookup e.identity with
    | some first => .error (.nameCollision e.identity first e.id)
    | none => do return e.identity :: (← assign ((e.identity, e.id) :: owners) es)

/-- The names of a graph's elements, unless two are the same. -/
def ofGraph (g : Graph) : Except GenerateError Names := do return ⟨← assign [] g.elements⟩

/-- The name of an element. -/
def find (ns : Names) (id : ElementId) : Except GenerateError String :=
  match ns.names[id]? with
  | some n => .ok n
  | none => .error (.unknownElement id)

end Names

end Dataflow
