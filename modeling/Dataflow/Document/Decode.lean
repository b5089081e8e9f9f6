import Dataflow.Document.Basic
import Dataflow.Json.Reading

/-!
# Documents from JSON

A document is decoded from a reading of its text, front to back, so the first thing wrong with the
text is the one reported, be it a fault of the JSON or a value of the wrong sort.

* Every record may be an object, whose members come in any order, or an array of its fields in
  order.
* An element's kind may stand anywhere in its object. The object is gone through for its kind first,
  and then for the fields of that kind; other members are ignored.
* In other records an unknown member is an error.
-/

namespace Dataflow

/-! ### Errors -/

/-- Why a text is no document. -/
inductive DecodeError
  | fault (f : Json.Fault)
  | missingField (name : String)
  | unknownField (name : String) (known : List String)
  | duplicateField (name : String)
  | unknownVariant (name : String) (known : List String)
  | invalidType (found : Json.Shape) (wanted : String)
  | invalidValue (found : Int) (wanted : String)
  | invalidLength (found : Nat) (wanted : String)
  | noReference
deriving Inhabited

/-- How messages show a value. -/
def Json.Shape.text : Json.Shape → String
  | null => "null"
  | bool true => "boolean `true`"
  | bool false => "boolean `false`"
  | number (.integer n) => "integer `" ++ toString n ++ "`"
  | number (.float x) => "floating point `" ++ x.dataText ++ "`"
  | string s => "string " ++ Text.quoted s
  | array => "sequence"
  | object => "map"

/-- A name in backquotes. -/
def backquoted (name : String) : String := "`" ++ name ++ "`"

/-- Names to choose from. -/
def oneOf : List String → String
  | [a, b] => backquoted a ++ " or " ++ backquoted b
  | names => "one of " ++ ", ".intercalate (names.map backquoted)

/-- What is reported about a decoding error. -/
def DecodeError.message : DecodeError → String
  | fault f => f.message
  | missingField n => "missing field " ++ backquoted n
  | unknownField n known => "unknown field " ++ backquoted n ++ ", expected " ++ oneOf known
  | duplicateField n => "duplicate field " ++ backquoted n
  | unknownVariant n known => "unknown variant " ++ backquoted n ++ ", expected " ++ oneOf known
  | invalidType found wanted => "invalid type: " ++ found.text ++ ", expected " ++ wanted
  | invalidValue found wanted =>
    "invalid value: integer `" ++ toString found ++ "`, expected " ++ wanted
  | invalidLength found wanted => "invalid length " ++ toString found ++ ", expected " ++ wanted
  | noReference => "data did not match any variant of untagged enum ElementRef"

/-- A decoded value, or why there is none. -/
abbrev Decoded := Except DecodeError

namespace Decode

open Json (Reading Ending Fault)

/-! ### Scalars and lists -/

/-- A value of another sort than the wanted one. -/
def mismatch (wanted : String) (r : Reading) : DecodeError :=
  match r.shape with
  | .ok found => .invalidType found wanted
  | .error f => .fault f

/-- Nothing is wrong. -/
def noFault : Option Fault → Decoded Unit
  | some f => .error (.fault f)
  | none => .ok ()

/-- A text. -/
def string : Reading → Decoded String
  | .string s => .ok s
  | r => .error (mismatch "a string" r)

/-- A truth value. -/
def bool : Reading → Decoded Bool
  | .bool b => .ok b
  | r => .error (mismatch "a boolean" r)

/-- A number of 32 bits. -/
def word : Reading → Decoded UInt32
  | .number (.integer n) =>
    if 0 ≤ n ∧ n < UInt32.size then .ok (UInt32.ofNat n.toNat) else .error (.invalidValue n "u32")
  | r => .error (mismatch "u32" r)

/-- A list of values. -/
def list {α : Type} (item : Reading → Decoded α) : Reading → Decoded (List α)
  | .array items ending => do
    let xs ← items.mapM item
    noFault ending.fault?
    return xs
  | r => .error (mismatch "a sequence" r)

/-- A name out of a table. -/
def variant {α : Type} (table : List (String × α)) (name : String) : Decoded α :=
  match table.lookup name with
  | some a => .ok a
  | none => .error (.unknownVariant name (table.map Prod.fst))

/-- A reference to an element: a number of 32 bits or a string. The whole value is read before it is
looked at. -/
def reference (r : Reading) : Decoded ElementRef := do
  noFault r.fault?
  match r with
  | .number (.integer n) =>
    if 0 ≤ n ∧ n < UInt32.size then .ok (.index (UInt32.ofNat n.toNat)) else .error .noReference
  | .string s => .ok (.name s)
  | _ => .error .noReference

/-! ### Ports -/

/-- The ports by name. -/
def portNames : List (String × InputPort) := InputPort.all.map fun p => (p.name, p)

/-- The value that goes with a name which stands for itself. -/
def unit : Reading → Decoded Unit
  | .null => .ok ()
  | r => .error (mismatch "unit" r)

/-- What may follow the one member of an object that names a port. -/
def afterPortMember : List (String × Reading) → Ending → Decoded Unit
  | [], .closed => .ok ()
  | [], .fault .endInObject => .error (.fault .endInObject)
  | _, _ => .error (.fault .expectedValue)

/-- A port: its name, or an object with its name as the one member and null as the value. -/
def port : Reading → Decoded InputPort
  | .string s => variant portNames s
  | .object ((k, v) :: rest) ending => do
    let p ← variant portNames k
    unit v
    afterPortMember rest ending
    return p
  | .object [] .closed => .error (.fault .expectedValue)
  | .object [] (.fault f) => .error (.fault f)
  | .broken .endInScalar | .broken .expectedWord | .broken .invalidNumber
  | .broken .numberOutOfRange => .error (.fault .expectedValue)
  | .broken f => .error (.fault f)
  | _ => .error (.fault .expectedValue)

/-! ### Records -/

/-- Put a value in its slot, which is still empty. -/
def fill {α : Type} (name : String) (decode : Reading → Decoded α) (slot : Option α) (r : Reading) :
    Decoded (Option α) :=
  if slot.isSome then .error (.duplicateField name)
  else do return some (← decode r)

/-- The value of a slot that has to be filled. -/
def filled {α : Type} (name : String) : Option α → Decoded α
  | some a => .ok a
  | none => .error (.missingField name)

/-- Go through the members of an object; `set` puts each one in its slot. -/
def members {σ : Type} (set : σ → String → Reading → Decoded σ) (slots : σ)
    (ms : List (String × Reading)) (ending : Ending) : Decoded σ := do
  let slots ← ms.foldlM (fun slots m => set slots m.1 m.2) slots
  noFault ending.fault?
  return slots

/-- The next item of an array that stands for a record; `wanted` is the record in full. -/
def item {α : Type} (wanted : String) (position : Nat) (decode : Reading → Decoded α)
    (ending : Ending) :
    List Reading → Decoded (α × List Reading)
  | r :: rest => do return (← decode r, rest)
  | [] => do
    noFault ending.fault?
    .error (.invalidLength position wanted)

/-- The next item of an array that stands for a record; an array that ends before it leaves a list
empty. -/
def itemOrEmpty {α : Type} (decode : Reading → Decoded (List α)) (ending : Ending) :
    List Reading → Decoded (List α × List Reading)
  | r :: rest => do return (← decode r, rest)
  | [] => do
    noFault ending.fault?
    return ([], [])

/-- No item is left of an array that stands for a record. -/
def noItems : List Reading → Ending → Decoded Unit
  | [], .closed => .ok ()
  | [], .fault .endInArray => .error (.fault .endInArray)
  | [], .fault .trailingComma => .error (.fault .trailingComma)
  | _, _ => .error (.fault .trailingCharacters)

/-! ### Edges, strata and lookup entries -/

/-- The fields of an edge read so far. -/
structure EdgeSlots where
  source : Option ElementRef := none
  target : Option ElementRef := none
  port : Option InputPort := none

/-- Put a member of an edge in its slot. -/
def EdgeSlots.set (s : EdgeSlots) (name : String) (r : Reading) : Decoded EdgeSlots :=
  match name with
  | "from" => do return { s with source := ← fill "from" reference s.source r }
  | "to" => do return { s with target := ← fill "to" reference s.target r }
  | "port" => do return { s with port := ← fill "port" Decode.port s.port r }
  | name => .error (.unknownField name ["from", "to", "port"])

/-- An edge. -/
def edge : Reading → Decoded EdgeSpec
  | .object ms ending => do
    let s ← members EdgeSlots.set {} ms ending
    let source ← filled "from" s.source
    let target ← filled "to" s.target
    let port ← filled "port" s.port
    return ⟨source, target, port⟩
  | .array items ending => do
    let wanted := "struct EdgeDoc with 3 elements"
    let (source, items) ← item wanted 0 reference ending items
    let (target, items) ← item wanted 1 reference ending items
    let (port, items) ← item wanted 2 Decode.port ending items
    noItems items ending
    return ⟨source, target, port⟩
  | r => .error (mismatch "struct EdgeDoc" r)

/-- The fields of a stratum read so far. -/
structure StratumSlots where
  index : Option UInt32 := none
  elements : Option (List ElementRef) := none

/-- Put a member of a stratum in its slot. -/
def StratumSlots.set (s : StratumSlots) (name : String) (r : Reading) : Decoded StratumSlots :=
  match name with
  | "index" => do return { s with index := ← fill "index" word s.index r }
  | "elements" => do return { s with elements := ← fill "elements" (list reference) s.elements r }
  | name => .error (.unknownField name ["index", "elements"])

/-- A stratum. -/
def stratum : Reading → Decoded StratumSpec
  | .object ms ending => do
    let s ← members StratumSlots.set {} ms ending
    let index ← filled "index" s.index
    let elements ← filled "elements" s.elements
    return ⟨index, elements⟩
  | .array items ending => do
    let wanted := "struct StratumDoc with 2 elements"
    let (index, items) ← item wanted 0 word ending items
    let (elements, items) ← item wanted 1 (list reference) ending items
    noItems items ending
    return ⟨index, elements⟩
  | r => .error (mismatch "struct StratumDoc" r)

/-- The fields of a lookup entry read so far. -/
structure LookupSlots where
  key : Option ElementRef := none
  values : Option (List ElementRef) := none

/-- Put a member of a lookup entry in its slot. -/
def LookupSlots.set (s : LookupSlots) (name : String) (r : Reading) : Decoded LookupSlots :=
  match name with
  | "key" => do return { s with key := ← fill "key" reference s.key r }
  | "values" => do return { s with values := ← fill "values" (list reference) s.values r }
  | name => .error (.unknownField name ["key", "values"])

/-- An entry of a lookup table. -/
def lookup : Reading → Decoded LookupSpec
  | .object ms ending => do
    let s ← members LookupSlots.set {} ms ending
    let key ← filled "key" s.key
    let values ← filled "values" s.values
    return ⟨key, values⟩
  | .array items ending => do
    let wanted := "struct LookupEntryDoc with 2 elements"
    let (key, items) ← item wanted 0 reference ending items
    let (values, items) ← item wanted 1 (list reference) ending items
    noItems items ending
    return ⟨key, values⟩
  | r => .error (mismatch "struct LookupEntryDoc" r)

/-! ### Elements -/

/-- The kinds of elements by name. -/
def kindNames : List (String × Variant) :=
  [("table", .table), ("input", .input), ("hash_equi_join", .join), ("map", .map),
    ("scanner", .scanner)]

/-- The kind of an element. -/
def kind : Reading → Decoded Variant
  | .string s => variant kindNames s
  | r => .error (mismatch "variant identifier" r)

/-- The fields of an element read so far. -/
structure ElementSlots where
  relation : Option String := none
  lastKeyColumn : Option UInt32 := none
  buildKey : Option String := none
  probeKey : Option String := none
  leftIsBuild : Option Bool := none
  function : Option String := none
  arity : Option UInt32 := none
  target : Option ElementRef := none

/-- Put a member of an element in its slot, if its kind has such a field. -/
def ElementSlots.set (v : Variant) (s : ElementSlots) (name : String) (r : Reading) :
    Decoded ElementSlots :=
  match v, name with
  | .table, "relation" | .input, "relation" => do
    return { s with relation := ← fill "relation" string s.relation r }
  | .table, "last_key_col_index" => do
    return { s with lastKeyColumn := ← fill "last_key_col_index" word s.lastKeyColumn r }
  | .join, "build_key" => do return { s with buildKey := ← fill "build_key" string s.buildKey r }
  | .join, "probe_key" => do return { s with probeKey := ← fill "probe_key" string s.probeKey r }
  | .join, "left_is_build" => do
    return { s with leftIsBuild := ← fill "left_is_build" bool s.leftIsBuild r }
  | .map, "function" => do return { s with function := ← fill "function" string s.function r }
  | .map, "arity" => do return { s with arity := ← fill "arity" word s.arity r }
  | .scanner, "target" => do return { s with target := ← fill "target" reference s.target r }
  | _, _ => .ok s

/-- The element that the slots of its kind make. -/
def ElementSlots.finish (v : Variant) (s : ElementSlots) : Decoded ElementSpec :=
  match v with
  | .table => do
    let relation ← filled "relation" s.relation
    let column ← filled "last_key_col_index" s.lastKeyColumn
    return .table relation column
  | .input => do return .input (← filled "relation" s.relation)
  | .join => do
    let build ← filled "build_key" s.buildKey
    let probe ← filled "probe_key" s.probeKey
    let left ← filled "left_is_build" s.leftIsBuild
    return .join build probe left
  | .map => do
    let function ← filled "function" s.function
    let arity ← filled "arity" s.arity
    return .map function arity
  | .scanner => do return .scanner (← filled "target" s.target)

/-- The items after an element's kind that its fields leave over. -/
def surplus (fields : Nat) (items rest : List Reading) : Decoded Unit :=
  if rest.isEmpty then .ok ()
  else
    let noun := if fields = 1 then " element" else " elements"
    .error (.invalidLength items.length (toString fields ++ noun ++ " in sequence"))

/-- The element that the items after its kind make. -/
def elementItems (v : Variant) (items : List Reading) : Decoded ElementSpec :=
  match v with
  | .table => do
    let wanted := "struct variant ElementDoc::Table with 2 elements"
    let (relation, rest) ← item wanted 0 string .closed items
    let (column, rest) ← item wanted 1 word .closed rest
    surplus 2 items rest
    return .table relation column
  | .input => do
    let wanted := "struct variant ElementDoc::Input with 1 element"
    let (relation, rest) ← item wanted 0 string .closed items
    surplus 1 items rest
    return .input relation
  | .join => do
    let wanted := "struct variant ElementDoc::HashEquiJoin with 3 elements"
    let (build, rest) ← item wanted 0 string .closed items
    let (probe, rest) ← item wanted 1 string .closed rest
    let (left, rest) ← item wanted 2 bool .closed rest
    surplus 3 items rest
    return .join build probe left
  | .map => do
    let wanted := "struct variant ElementDoc::Map with 2 elements"
    let (function, rest) ← item wanted 0 string .closed items
    let (arity, rest) ← item wanted 1 word .closed rest
    surplus 2 items rest
    return .map function arity
  | .scanner => do
    let wanted := "struct variant ElementDoc::Scanner with 1 element"
    let (target, rest) ← item wanted 0 reference .closed items
    surplus 1 items rest
    return .scanner target

/-- Look at a member of an element for its kind. -/
def kindMember (found : Option Variant) (name : String) (r : Reading) : Decoded (Option Variant) :=
  if name = "kind" then fill "kind" kind found r else .ok found

/-- An element: an object with its kind and fields, or an array of them. -/
def element : Reading → Decoded ElementSpec
  | .object ms ending => do
    let v ← filled "kind" (← members kindMember none ms ending)
    let s ← members (ElementSlots.set v) {} ms .closed
    s.finish v
  | .array [] ending => do
    noFault ending.fault?
    .error (.missingField "kind")
  | .array (r :: items) ending => do
    let v ← kind r
    noFault ending.fault?
    elementItems v items
  | r => .error (mismatch "internally tagged enum ElementDoc" r)

/-! ### Documents -/

/-- The sections of a document read so far. -/
structure DocumentSlots where
  elements : Option (List ElementSpec) := none
  edges : Option (List EdgeSpec) := none
  strata : Option (List StratumSpec) := none
  invalidation : Option (List LookupSpec) := none
  rescan : Option (List LookupSpec) := none

/-- Put a section in its slot. -/
def DocumentSlots.set (s : DocumentSlots) (name : String) (r : Reading) : Decoded DocumentSlots :=
  match name with
  | "elements" => do return { s with elements := ← fill "elements" (list element) s.elements r }
  | "edges" => do return { s with edges := ← fill "edges" (list edge) s.edges r }
  | "strata" => do return { s with strata := ← fill "strata" (list stratum) s.strata r }
  | "invalidation" => do
    return { s with invalidation := ← fill "invalidation" (list lookup) s.invalidation r }
  | "rescan" => do return { s with rescan := ← fill "rescan" (list lookup) s.rescan r }
  | name => .error (.unknownField name ["elements", "edges", "strata", "invalidation", "rescan"])

/-- A document; all sections but the elements may be left out. -/
def document : Reading → Decoded Document
  | .object ms ending => do
    let s ← members DocumentSlots.set {} ms ending
    let elements ← filled "elements" s.elements
    return ⟨elements, s.edges.getD [], s.strata.getD [], s.invalidation.getD [], s.rescan.getD []⟩
  | .array items ending => do
    let (elements, items) ← item "struct IrDocument with 5 elements" 0 (list element) ending items
    let (edges, items) ← itemOrEmpty (list edge) ending items
    let (strata, items) ← itemOrEmpty (list stratum) ending items
    let (invalidation, items) ← itemOrEmpty (list lookup) ending items
    let (rescan, items) ← itemOrEmpty (list lookup) ending items
    noItems items ending
    return ⟨elements, edges, strata, invalidation, rescan⟩
  | r => .error (mismatch "struct IrDocument" r)

/-- Nothing but blanks follows. -/
def endOfText : Json.Rest → Decoded Unit
  | .ok rest =>
    if (Json.skipBlanks rest).isEmpty then .ok () else .error (.fault .trailingCharacters)
  | .error f => .error (.fault f)

end Decode

/-- Decode the text of a document. -/
def Document.decode (text : String) : Decoded Document := do
  let (reading, rest) := Json.read text
  let d ← Decode.document reading
  Decode.endOfText rest
  return d

end Dataflow
