import Dataflow.Graph.Basic

/-!
# Building graphs

A graph is built from nothing by steps: an element is added with the next number, an edge is added
to the output of its source, and strata and lookup entries are added at the end of their lists. The
first table or input with a relation is the one registered for it.
-/

namespace Dataflow

/-- One step in the making of a graph. -/
inductive BuildStep
  | add (kind : ElementKind)
  | connect (source target : ElementId) (port : InputPort)
  | stratum (index : Nat) (elements : List ElementId)
  | invalidate (key : ElementId) (values : List ElementId)
  | rescan (key : ElementId) (values : List ElementId)
deriving Inhabited

/-- Add an edge to the outputs of its source, which gets one if it has none. -/
def Element.connect (e : Element) (target : ElementId) (port : InputPort) : Element :=
  let edge : Edge := ⟨e.id, target, port⟩
  match e.outputs with
  | [] => { e with outputs := [⟨e.id, [edge]⟩] }
  | o :: os => { e with outputs := { o with connections := o.connections ++ [edge] } :: os }

namespace Graph

/-- The number that the next element gets. -/
def nextId (g : Graph) : ElementId := g.elements.length

/-- Add an element. -/
def add (g : Graph) (kind : ElementKind) : Graph :=
  let id := g.nextId
  let outputs := if kind.variant.hasOutput then [⟨id, []⟩] else []
  let g := { g with elements := g.elements ++ [⟨id, kind, outputs⟩] }
  match kind with
  | .table r _ => { g with tables := g.tables.insertNew r id }
  | .input r => { g with inputs := g.inputs.insertNew r id }
  | _ => g

/-- Add an edge; nothing changes if its source does not exist. -/
def connect (g : Graph) (source target : ElementId) (port : InputPort) : Graph :=
  { g with elements := g.elements.modify source fun e => e.connect target port }

/-- Take one step. -/
def apply (g : Graph) : BuildStep → Graph
  | .add kind => g.add kind
  | .connect s t p => g.connect s t p
  | .stratum i es => { g with strata := g.strata ++ [⟨i, es⟩] }
  | .invalidate k vs => { g with invalidation := g.invalidation ++ [(k, vs)] }
  | .rescan k vs => { g with rescan := g.rescan ++ [(k, vs)] }

/-- The graph that a list of steps makes. -/
def ofSteps (steps : List BuildStep) : Graph := steps.foldl apply {}

end Graph

end Dataflow
