import Dataflow.Graph.Summary

/-!
# Graphs as DOT pictures

`Graph.picture` decides what is drawn: a cluster for each stratum in order, each element in the
first cluster that lists it, all other elements by themselves, the edges, and a line from each
scanner to what it reads. `Picture.text` writes it down.
-/

namespace Dataflow

/-! ### Pictures -/

/-- How an edge is drawn: dotted if it leaves a table, dashed if it leaves a scanner. -/
inductive EdgeStyle
  | plain
  | dotted
  | dashed
deriving DecidableEq, Inhabited

/-- The elements drawn together for a stratum. -/
structure Cluster where
  index : Nat
  nodes : List Element
deriving Inhabited

/-- What is drawn of a graph: the strata, the elements outside all strata, the edges with their
styles, and each scanner with what it reads. -/
structure Picture where
  clusters : List Cluster
  loose : List Element
  edges : List (Edge × EdgeStyle)
  scans : List (ElementId × ElementId)
deriving Inhabited

namespace Graph

/-- The elements among some numbers that are not drawn yet, in order, and then all numbers drawn. -/
def drawNodes (g : Graph) : List ElementId → List ElementId → List Element × List ElementId
  | drawn, [] => ([], drawn)
  | drawn, id :: ids =>
    match g.element? id with
    | some e =>
      if id ∈ drawn then g.drawNodes drawn ids
      else
        let (nodes, drawn) := g.drawNodes (id :: drawn) ids
        (e :: nodes, drawn)
    | none => g.drawNodes drawn ids

/-- The clusters of some strata, and then all numbers drawn. -/
def drawClusters (g : Graph) : List ElementId → List Stratum → List Cluster × List ElementId
  | drawn, [] => ([], drawn)
  | drawn, s :: strata =>
    let (nodes, drawn) := g.drawNodes drawn s.elements
    let (clusters, drawn) := g.drawClusters drawn strata
    (⟨s.index, nodes⟩ :: clusters, drawn)

/-- The style of an edge. -/
def edgeStyle (g : Graph) (e : Edge) : EdgeStyle :=
  match (g.element? e.source).map Element.variant with
  | some .table => .dotted
  | some .scanner => .dashed
  | _ => .plain

/-- A scanner with what it reads. -/
def scan? (e : Element) : Option (ElementId × ElementId) :=
  match e.kind with
  | .scanner t => some (e.id, t)
  | _ => none

/-- What is drawn of a graph. -/
def picture (g : Graph) : Picture :=
  let (clusters, drawn) := g.drawClusters [] g.strataInOrder
  { clusters := clusters
    loose := g.elements.filter fun e => e.id ∉ drawn
    edges := g.edges.map fun e => (e, g.edgeStyle e)
    scans := g.elements.filterMap scan? }

end Graph

/-! ### Text -/

namespace Dot

/-- The characters of a label inside double quotes: quotes and backslashes get a backslash. -/
def escapeChars : List Char → List Char
  | [] => []
  | '\\' :: cs => '\\' :: '\\' :: escapeChars cs
  | '"' :: cs => '\\' :: '"' :: escapeChars cs
  | c :: cs => c :: escapeChars cs

/-- A label inside double quotes. -/
def escape (label : String) : String := String.ofList (escapeChars label.toList)

/-- The name of an element's node. -/
def nodeName (id : ElementId) : String := "e" ++ toString id

/-- The label of an element's node; a line break is written as a backslash and `n`. -/
def nodeLabel (e : Element) : String :=
  match e.kind with
  | .table r k => "table " ++ escape r ++ "\\nkey .." ++ toString k
  | .input r => "input " ++ escape r
  | .join _ _ left => "join #" ++ toString e.id ++ "\\nbuild " ++ sideText left
  | .map _ n => "map #" ++ toString e.id ++ "\\narity " ++ toString n
  | .scanner _ => "scan #" ++ toString e.id

/-- The shape and color of a sort of elements. -/
def nodeStyle : Variant → String × String
  | .table => ("cylinder", "lightsalmon")
  | .input => ("invhouse", "lightgreen")
  | .join => ("box", "lightblue")
  | .map => ("box", "lightyellow")
  | .scanner => ("ellipse", "white")

/-- The declaration of an element's node. -/
def nodeLine (indent : String) (e : Element) : String :=
  let (shape, color) := nodeStyle e.variant
  indent ++ nodeName e.id ++ " [shape=" ++ shape ++ ", style=filled, fillcolor=" ++ color ++
    ", label=\"" ++ nodeLabel e ++ "\"];\n"

/-- The attributes of a style. -/
def styleText : EdgeStyle → String
  | .plain => ""
  | .dotted => ", style=dotted, color=gray60"
  | .dashed => ", style=dashed"

/-- The line of an edge. -/
def edgeLine (e : Edge × EdgeStyle) : String :=
  "    " ++ nodeName e.1.source ++ " -> " ++ nodeName e.1.target ++ " [label=\"" ++ e.1.port.name ++
    "\"" ++ styleText e.2 ++ "];\n"

/-- The line from what is read to its scanner. -/
def scanLine (s : ElementId × ElementId) : String :=
  "    " ++ nodeName s.2 ++ " -> " ++ nodeName s.1 ++
    " [style=dotted, arrowhead=none, label=\"scans\"];\n"

/-- The lines of a cluster. -/
def clusterLines (c : Cluster) : String :=
  "\n    subgraph cluster_s" ++ toString c.index ++ " \x7b\n" ++
    "        label=\"stratum " ++ toString c.index ++ "\";\n" ++
    "        style=rounded;\n" ++
    "        color=gray50;\n" ++
    String.join (c.nodes.map (nodeLine "        ")) ++
    "    \x7d\n"

end Dot

/-- A picture in the DOT language. -/
def Picture.text (p : Picture) : String :=
  "digraph dataflow \x7b\n" ++
    "    rankdir=LR;\n" ++
    "    node [fontname=\"Helvetica\", fontsize=10];\n" ++
    "    edge [fontname=\"Helvetica\", fontsize=9];\n" ++
    String.join (p.clusters.map Dot.clusterLines) ++
    (if p.loose.isEmpty then "" else "\n") ++
    String.join (p.loose.map (Dot.nodeLine "    ")) ++
    (if p.edges.isEmpty && p.scans.isEmpty then "" else "\n") ++
    String.join (p.edges.map Dot.edgeLine) ++
    String.join (p.scans.map Dot.scanLine) ++
    "\x7d\n"

/-- A graph in the DOT language. -/
def Graph.dot (g : Graph) : String := g.picture.text

end Dataflow
