/-!
# Passes

A document becomes a module in three passes, each of which uses the result of the one before.
-/

namespace Dataflow

/-- A pass of the compilation: make the graph of the document, check it, or generate the module. -/
inductive Pass
  | load
  | validate
  | codegen
deriving DecidableEq, Inhabited

/-- What a pass makes. -/
inductive Artifact
  | graph | certificate | module
deriving DecidableEq, Inhabited

namespace Pass

/-- The passes in order. -/
def all : List Pass := [load, validate, codegen]

/-- The name of a pass. -/
def name : Pass → String
  | load => "load"
  | validate => "validate"
  | codegen => "codegen"

/-- The passes whose results a pass uses. -/
def inputs : Pass → List Pass
  | load => []
  | validate => [load]
  | codegen => [validate]

/-- What a pass makes. -/
def outputs : Pass → List Artifact
  | load => [.graph]
  | validate => [.certificate]
  | codegen => [.module]

/-- What the result of a pass depends on. -/
def invalidationKey : Pass → String
  | load => "IR document text"
  | validate => "graph"
  | codegen => "graph + codegen_options"

/-- What holds after a pass. -/
def invariants : Pass → String
  | load => "references resolved, expressions parsed, ids in document order"
  | validate => "relations, scanners, ports, functions, strata, lookups well formed"
  | codegen => "names injective, every port resolved, module emitted"

/-- The passes that it takes to finish a pass: all up to it, in order. -/
def required (p : Pass) : List Pass := all.takeWhile (· ≠ p) ++ [p]

end Pass

end Dataflow
