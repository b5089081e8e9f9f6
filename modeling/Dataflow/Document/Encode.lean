import Dataflow.Document.Basic
import Dataflow.Json.Basic

/-!
# Documents as JSON

Every section is written, in the order of their declaration; an element starts with its kind.
-/

namespace Dataflow

/-- A reference as JSON: a number or a string. -/
def ElementRef.toJson : ElementRef → Json
  | index i => .nat i.toNat
  | name n => .string n

/-- References as JSON. -/
def ElementRef.listToJson (rs : List ElementRef) : Json := .array (rs.map toJson)

/-- An element as JSON. -/
def ElementSpec.toJson : ElementSpec → Json
  | table r k =>
    .object [("kind", .string "table"), ("relation", .string r),
      ("last_key_col_index", .nat k.toNat)]
  | input r => .object [("kind", .string "input"), ("relation", .string r)]
  | join b p left =>
    .object [("kind", .string "hash_equi_join"), ("build_key", .string b), ("probe_key", .string p),
      ("left_is_build", .bool left)]
  | map f n => .object [("kind", .string "map"), ("function", .string f), ("arity", .nat n.toNat)]
  | scanner t => .object [("kind", .string "scanner"), ("target", t.toJson)]

/-- An edge as JSON. -/
def EdgeSpec.toJson (e : EdgeSpec) : Json :=
  .object [("from", e.source.toJson), ("to", e.target.toJson), ("port", .string e.port.name)]

/-- A stratum as JSON. -/
def StratumSpec.toJson (s : StratumSpec) : Json :=
  .object [("index", .nat s.index.toNat), ("elements", ElementRef.listToJson s.elements)]

/-- An entry of a lookup table as JSON. -/
def LookupSpec.toJson (l : LookupSpec) : Json :=
  .object [("key", l.key.toJson), ("values", ElementRef.listToJson l.values)]

/-- A document as JSON. -/
def Document.toJson (d : Document) : Json :=
  .object [("elements", .array (d.elements.map ElementSpec.toJson)),
    ("edges", .array (d.edges.map EdgeSpec.toJson)),
    ("strata", .array (d.strata.map StratumSpec.toJson)),
    ("invalidation", .array (d.invalidation.map LookupSpec.toJson)),
    ("rescan", .array (d.rescan.map LookupSpec.toJson))]

/-- A document as compact JSON text. -/
def Document.encode (d : Document) : String := d.toJson.compact

end Dataflow
