import Dataflow.Graph.Basic

/-!
# A graph as text

One line for the counts, then each element with its edges, the strata in order, and the sizes of the
lookup tables.
-/

namespace Dataflow

/-- The word for a side of a join. -/
def sideText (left : Bool) : String := if left then "left" else "right"

namespace Graph

/-- What an element is, in words. -/
def describe (g : Graph) : ElementKind → String
  | .table r k => "table " ++ r ++ " (key bound " ++ toString k ++ ")"
  | .input r => "input " ++ r
  | .join _ _ left => "hash equi-join (build side " ++ sideText left ++ ")"
  | .map _ n => "map (arity " ++ toString n ++ ")"
  | .scanner t => "scanner over " ++ g.label t

/-- The line of an edge. -/
def edgeLine (g : Graph) (e : Edge) : String :=
  "    " ++ outputName ++ " -> " ++ g.label e.target ++ "." ++ e.port.name ++ "\n"

/-- The lines of an element. -/
def elementLines (g : Graph) (e : Element) : String :=
  "  " ++ toString e.id ++ ": " ++ g.describe e.kind ++ "\n" ++ String.join (e.edges.map g.edgeLine)

/-- The line of a stratum. -/
def stratumLine (g : Graph) (s : Stratum) : String :=
  "  stratum " ++ toString s.index ++ ": [" ++ ", ".intercalate (s.elements.map g.label) ++ "]\n"

/-- The line of a lookup table, unless it is empty. -/
def lookupLine (name : String) (t : LookupTable) : String :=
  if t.isEmpty then "" else "  " ++ name ++ " entries: " ++ toString t.length ++ "\n"

/-- A graph as text. -/
def summary (g : Graph) : String :=
  "DataflowGraph (" ++ toString g.elements.length ++ " elements, " ++ toString g.edges.length ++
    " edges, " ++ toString g.strata.length ++ " strata)\n" ++
    String.join (g.elements.map g.elementLines) ++
    String.join (g.strataInOrder.map g.stratumLine) ++
    lookupLine "invalidation" g.invalidation ++ lookupLine "rescan" g.rescan

end Graph

end Dataflow
