/-!
# Names bound in a generated pipeline

The factory function of a pipeline binds these names, in whose scope the functions of the graph
stand.
-/

namespace Dataflow.Pipeline

/-- The names that the factory binds. -/
def factoryLocals : List String :=
  ["runtime", "tables", "inputs", "entryPoints", "operators", "scanners", "invalidationLookupTable",
    "rescanLookupTable"]

end Dataflow.Pipeline
