import Mathlib.Data.List.Forall2
import Dataflow.Pipeline.Source

/-!
# The lines of a module

The text of a module is described line by line, without layouts: `Pipeline.lines` has its lines, and
`source_generated` says that they are what is generated.

Two things are said about layouts on the way:

* `Spells l s`: the layout `l` stays on its line and is written as the text `s` is;
* `Block ps ls`: the layouts `ps`, one after another from the start of a line, are written as the
  lines `ls`.

How parts are grouped does not matter to either (`writeAll_concat`), nor does where a text on one
line is cut (`writeAll_text_text`).
-/

namespace Dataflow

/-- Lines as one text, with a line break after each. -/
def unlines : List String → String
  | [] => ""
  | l :: ls => l ++ "\n" ++ unlines ls

theorem unlines_append (ks ls : List String) : unlines (ks ++ ls) = unlines ks ++ unlines ls := by
  induction ks with
  | nil => exact String.empty_append.symm
  | cons k ks ih => simp only [List.cons_append, unlines, ih, String.append_assoc]

namespace Layout

theorem indentation_zero : indentation 0 = "" := rfl

theorem indentation_succ (level : Nat) : indentation (level + 1) = indentation level ++ "  " := by
  have h : List.replicate (2 * (level + 1)) ' ' = List.replicate (2 * level) ' ' ++ [' ', ' '] := by
    rw [Nat.mul_succ, ← List.replicate_append_replicate]
    rfl
  rw [indentation, h, String.ofList_append]
  rfl

/-! ### Parts in a row -/

variable {l : Layout} {ps qs : List Layout} {s t : String} {ls ms : List String}

theorem writeAll_cons (level : Nat) (fresh : Bool) (p : Layout) (ps : List Layout) :
    writeAll level fresh (p :: ps) =
      ((p.write level fresh).1 ++ (writeAll level (p.write level fresh).2 ps).1,
        (writeAll level (p.write level fresh).2 ps).2) := rfl

theorem writeAll_append (level : Nat) (fresh : Bool) (ps qs : List Layout) :
    writeAll level fresh (ps ++ qs) =
      ((writeAll level fresh ps).1 ++ (writeAll level (writeAll level fresh ps).2 qs).1,
        (writeAll level (writeAll level fresh ps).2 qs).2) := by
  induction ps generalizing fresh with
  | nil => simp [writeAll]
  | cons p ps ih => simp only [List.cons_append, writeAll_cons, ih, String.append_assoc]

theorem writeAll_singleton (level : Nat) (fresh : Bool) (l : Layout) :
    writeAll level fresh [l] = l.write level fresh := by
  simp [writeAll]

theorem writeAll_concat (level : Nat) (fresh : Bool) (ps qs : List Layout) :
    writeAll level fresh (concat ps :: qs) = writeAll level fresh (ps ++ qs) := by
  rw [writeAll_append]
  rfl

theorem writeAll_text_text (level : Nat) (fresh : Bool) (s t : String) (ps : List Layout) :
    writeAll level fresh (text s :: text t :: ps) = writeAll level fresh (text (s ++ t) :: ps) := by
  by_cases hs : s = ""
  · simp [writeAll, write, hs]
  · cases fresh <;> by_cases ht : t = "" <;> simp [writeAll, write, hs, ht, String.append_assoc]

/-! ### Texts on one line -/

/-- A layout is written as a text is, at every level. -/
def Spells (l : Layout) (s : String) : Prop :=
  ∀ level fresh, l.write level fresh = (text s).write level fresh

theorem spells_text (s : String) : (text s).Spells s := fun _ _ => rfl

theorem Spells.writeAll_head (h : l.Spells s) (level : Nat) (fresh : Bool) (ps : List Layout) :
    writeAll level fresh (l :: ps) = writeAll level fresh (text s :: ps) := by
  rw [writeAll_cons, h level fresh, ← writeAll_cons]

/-- What is spelled goes on with the text before it. -/
theorem Spells.writeAll_text (h : l.Spells s) (level : Nat) (fresh : Bool) (t : String)
    (ps : List Layout) :
    writeAll level fresh (text t :: l :: ps) = writeAll level fresh (text (t ++ s) :: ps) := by
  rw [← writeAll_text_text, writeAll_cons, h.writeAll_head, ← writeAll_cons]

theorem spells_concat :
    (concat ps).Spells s ↔
      ∀ level fresh, writeAll level fresh ps = writeAll level fresh [text s] := by
  simp only [Spells, writeAll_singleton]
  rfl

theorem Spells.render (h : l.Spells s) : l.render = s := by
  rw [Layout.render, h 0 true]
  by_cases hs : s = ""
  · simp [write, hs]
  · simp [write, hs, indentation_zero]

/-! ### Whole lines -/

/-- From the start of a line, layouts are written as lines behind the indentation of the level. -/
def Block (ps : List Layout) (ls : List String) : Prop :=
  ∀ level, writeAll level true ps = (unlines (ls.map (indentation level ++ ·)), true)

theorem block_nil : Block [] [] := fun _ => rfl

theorem Block.append (hp : Block ps ls) (hq : Block qs ms) : Block (ps ++ qs) (ls ++ ms) := by
  intro level
  rw [writeAll_append, hp level, hq level, List.map_append, unlines_append]

theorem block_concat : Block (concat ps :: qs) ls ↔ Block (ps ++ qs) ls := by
  simp only [Block, writeAll_concat]

theorem block_cons_concat : Block (l :: concat ps :: qs) ls ↔ Block (l :: (ps ++ qs)) ls := by
  simp only [Block, writeAll_cons _ _ l, writeAll_concat]

theorem block_text_text : Block (text s :: text t :: ps) ls ↔ Block (text (s ++ t) :: ps) ls := by
  simp only [Block, writeAll_text_text]

theorem Spells.block_cons (h : l.Spells s) : Block (l :: ps) ls ↔ Block (text s :: ps) ls := by
  simp only [Block, h.writeAll_head]

theorem Spells.block_text_cons (h : l.Spells s) :
    Block (text t :: l :: ps) ls ↔ Block (text (t ++ s) :: ps) ls := by
  simp only [Block, h.writeAll_text]

theorem Block.line_cons (h : Block ps ls) (hs : s ≠ "") :
    Block (text s :: line :: ps) (s :: ls) := by
  intro level
  simp [writeAll, write, hs, h level, unlines, String.append_assoc]

theorem Block.nest_cons (hp : Block ps ls) (hq : Block qs ms) :
    Block (nest (concat ps) :: qs) (ls.map ("  " ++ ·) ++ ms) := by
  intro level
  have hdeeper := hp (level + 1)
  have hindent :
      ls.map (indentation (level + 1) ++ ·) =
        (ls.map ("  " ++ ·)).map (indentation level ++ ·) := by
    simp only [indentation_succ, List.map_map, Function.comp_def, String.append_assoc]
  rw [hindent] at hdeeper
  simp only [writeAll, write, hdeeper, hq level, List.map_append, unlines_append]

theorem block_flatMap {α : Type} {xs : List α} {f : α → List Layout} {k : α → List String}
    (h : ∀ x ∈ xs, Block (f x) (k x)) : Block (xs.flatMap f) (xs.flatMap k) := by
  induction xs with
  | nil => exact block_nil
  | cons x xs ih =>
    rw [List.forall_mem_cons] at h
    exact h.1.append (ih h.2)

theorem Block.render (h : Block [l] ls) : l.render = unlines ls := by
  have hl := h 0
  rw [writeAll_singleton] at hl
  rw [Layout.render, hl]
  simp [indentation_zero]

end Layout

/-! ### Fragments of the target language -/

namespace Script

open Layout

variable {l m : Layout} {s t : String} {ls : List Layout} {ts : List String}

theorem spells_member (object key : String) :
    (member object key).Spells (object ++ "[" ++ quote key ++ "]") := by
  simp only [member, string, spells_concat, writeAll_text_text, implies_true]

theorem spells_join (separator : String) (h : List.Forall₂ Spells ls ts) :
    (join separator ls).Spells (separator.intercalate ts) := by
  induction h with
  | nil =>
    rw [join, separated, spells_concat]
    simp [writeAll, write]
  | cons hl hls ih =>
    rw [join, spells_concat]
    intro level fresh
    cases hls with
    | nil => rw [separated, hl.writeAll_head, String.intercalate_singleton]
    | cons hm hms =>
      -- the layouts after the first separator are joined by the induction hypothesis
      have hrest (s : String) := ih.writeAll_text level fresh s []
      simp only [writeAll_cons _ _ _ [_], join, writeAll_concat, List.append_nil,
        ← writeAll_cons] at hrest
      rw [separated, hl.writeAll_head, writeAll_text_text, String.intercalate_cons_cons, hrest]
      simp

theorem spells_string (s : String) : (string s).Spells (quote s) := spells_text _

theorem spells_array (h : List.Forall₂ Spells ls ts) :
    (array ls).Spells ("[" ++ ", ".intercalate ts ++ "]") := by
  have hjoin := spells_join ", " h
  simp only [array, spells_concat, hjoin.writeAll_text, writeAll_text_text, implies_true]

theorem spells_call (hl : l.Spells s) (h : List.Forall₂ Spells ls ts) :
    (call l ls).Spells (s ++ "(" ++ ", ".intercalate ts ++ ")") := by
  have hjoin := spells_join ", " h
  simp only [call, spells_concat, hl.writeAll_head, hjoin.writeAll_text, writeAll_text_text,
    implies_true]

theorem spells_methodCall (hl : l.Spells s) (method : String) (h : List.Forall₂ Spells ls ts) :
    (methodCall l method ls).Spells (s ++ "." ++ method ++ "(" ++ ", ".intercalate ts ++ ")") := by
  refine spells_call ?_ h
  simp only [spells_concat, hl.writeAll_head, writeAll_text_text, implies_true]

theorem spells_construct (constructor : String) (h : List.Forall₂ Spells ls ts) :
    (construct constructor ls).Spells
      ("new " ++ constructor ++ "(" ++ ", ".intercalate ts ++ ")") := by
  have hcall := spells_call (spells_text constructor) h
  simp only [construct, spells_concat, hcall.writeAll_text, String.append_assoc, implies_true]

theorem spells_lambda (params : Params) (hl : l.Spells s) :
    (lambda params l).Spells (lambdaHead params ++ " => " ++ s) := by
  simp only [lambda, spells_concat, hl.writeAll_text, writeAll_text_text, implies_true]

theorem block_comment (s : String) : Block [comment s] ["// " ++ s] := by
  rw [comment, block_concat]
  exact block_nil.line_cons (by simp)

theorem block_statement (hl : l.Spells s) : Block [statement l] [s ++ ";"] := by
  rw [statement, block_concat, List.cons_append, hl.block_cons]
  exact block_text_text.2 (block_nil.line_cons (by simp))

/-- An entry of an object literal. -/
def entryText (e : String × String) : String := quote e.1 ++ ": " ++ e.2 ++ ","

theorem block_entry (key : String) (hl : l.Spells s) :
    Block [entry (string key, l)] [entryText (key, s)] := by
  rw [entry, block_concat]
  refine (spells_string key).block_cons.2
    (block_text_text.2 (hl.block_text_cons.2 (block_text_text.2 ?_)))
  exact block_nil.line_cons (by simp)

end Script

/-! ### References and entries -/

/-- The text of a registry. -/
def Section.text : Section → String
  | tables => "tables"
  | inputs => "inputs"
  | operators => "operators"

theorem Section.name_eq_text (s : Section) : s.name = s.text := by
  cases s <;> rfl

/-- The text of a reference. -/
def Reference.text : Reference → String
  | entry r n => r.text ++ "[" ++ Script.quote n ++ "]"
  | scanner r n => r.text ++ "[" ++ Script.quote n ++ "].scanner()"

/-- The text of a port. -/
def PortReference.text (p : PortReference) : String := p.owner.text ++ "." ++ p.member

/-- The text of a subscription. -/
def Subscription.text (s : Subscription) : String :=
  s.source.text ++ ".subscribe(" ++ s.target.text ++ ");"

/-- The text of an anonymous function. -/
def functionText (params : Params) (body : Expr) : String :=
  Script.lambdaHead params ++ " => " ++ body.render params.names

/-- The text of a table. -/
def tableText (lastKeyColumn : Nat) : String :=
  "new runtime.Table(" ++ toString lastKeyColumn ++ ")"

/-- The text of an input. -/
def inputText : String := "new runtime.Input()"

/-- The text of an operator. -/
def OperatorEntry.text : OperatorEntry → String
  | join b p left =>
    "new runtime.HashEquiJoin(" ++ functionText keyParams b ++ ", " ++ functionText keyParams p ++
      ", " ++ Script.quote (sideText left) ++ ")"
  | map f n => "new runtime.Map(" ++ functionText (mapParams n) f ++ ")"

/-- The text of a scanner. -/
def ScannerEntry.text (s : ScannerEntry) : String :=
  "\x7b scan: () => " ++ s.source.text ++ ", targets: [" ++
    ", ".intercalate (s.targets.map PortReference.text) ++ "] \x7d"

/-- The text of an entry point. -/
def entryPointText (relation : String) : String :=
  "(tuple) => inputs[" ++ Script.quote relation ++ "].push(tuple)"

/-- The text of the values of a lookup entry. -/
def valuesText (names : List String) : String :=
  "[" ++ ", ".intercalate (names.map Script.quote) ++ "]"

section Texts

open Layout Script

theorem spells_map {α : Type} {f : α → Layout} {t : α → String} (h : ∀ x, (f x).Spells (t x))
    (xs : List α) :
    List.Forall₂ Spells (xs.map f) (xs.map t) := by
  simp only [List.forall₂_map_left_iff, List.forall₂_map_right_iff, List.forall₂_same]
  exact fun x _ => h x

theorem spells_reference (r : Reference) : r.layout.Spells r.text := by
  cases r with
  | entry r n =>
    rw [Reference.layout, Reference.text, r.name_eq_text]
    exact spells_member r.text n
  | scanner r n =>
    have h := spells_methodCall (spells_member r.text n) "scanner" .nil
    have hcall : "].scanner()" = "]" ++ "." ++ "scanner" ++ "(" ++ ", ".intercalate [] ++ ")" := by
      decide
    simpa only [Reference.layout, Reference.text, r.name_eq_text, hcall, String.append_assoc]
      using h

theorem spells_portReference (p : PortReference) : p.layout.Spells p.text := by
  have howner := spells_reference p.owner
  simp only [PortReference.layout, PortReference.text, spells_concat, howner.writeAll_head,
    writeAll_text_text, implies_true]

theorem block_subscription (s : Subscription) : Block [s.layout] [s.text] := by
  have h := block_statement (spells_methodCall (spells_portReference s.source) "subscribe"
    (.cons (spells_portReference s.target) .nil))
  have hopen : ".subscribe(" = "." ++ "subscribe" ++ "(" := by decide
  have hclose : ");" = ")" ++ ";" := by decide
  simpa only [Subscription.layout, Subscription.text, hopen, hclose, String.intercalate_singleton,
    String.append_assoc] using h

theorem spells_function (params : Params) (body : Expr) :
    (functionLayout params body).Spells (functionText params body) :=
  spells_lambda params (spells_text _)

theorem spells_table (k : Nat) : (tableLayout k).Spells (tableText k) := by
  have h := spells_construct "runtime.Table" (.cons (spells_text (toString k)) .nil)
  rwa [String.intercalate_singleton] at h

theorem spells_input : inputLayout.Spells inputText := spells_construct "runtime.Input" .nil

theorem spells_operator (o : OperatorEntry) : o.layout.Spells o.text := by
  cases o with
  | join b p left =>
    have h := spells_construct "runtime.HashEquiJoin" (.cons (spells_function keyParams b)
      (.cons (spells_function keyParams p) (.cons (spells_string (sideText left)) .nil)))
    rw [String.intercalate_cons_cons, String.intercalate_cons_cons,
      String.intercalate_singleton] at h
    simp only [← String.append_assoc] at h
    exact h
  | map f n =>
    have h := spells_construct "runtime.Map" (.cons (spells_function (mapParams n) f) .nil)
    rwa [String.intercalate_singleton] at h

theorem spells_scanner (s : ScannerEntry) : s.layout.Spells s.text := by
  have hscan := spells_lambda (.named []) (spells_reference s.source)
  have htargets := spells_array (spells_map spells_portReference s.targets)
  have hopen : "\x7b scan: () => " = "\x7b scan: " ++ (lambdaHead (.named []) ++ " => ") := by
    decide
  have hmiddle : ", targets: [" = ", targets: " ++ "[" := by decide
  have hclose : "] \x7d" = "]" ++ " \x7d" := by decide
  unfold ScannerEntry.layout ScannerEntry.text
  rw [hopen, hmiddle, hclose, spells_concat]
  intro level fresh
  rw [hscan.writeAll_text, writeAll_text_text, htargets.writeAll_text, writeAll_text_text]
  simp only [String.append_assoc]

theorem spells_entryPoint (relation : String) :
    (Pipeline.entryPoint relation).Spells (entryPointText relation) := by
  have h := spells_lambda (.named ["tuple"])
    (spells_methodCall (spells_member "inputs" relation) "push" (.cons (spells_text "tuple") .nil))
  have hopen :
      "(tuple) => inputs[" = lambdaHead (.named ["tuple"]) ++ " => " ++ "inputs" ++ "[" := by decide
  have hclose : "].push(tuple)" = "]" ++ "." ++ "push" ++ "(" ++ "tuple" ++ ")" := by decide
  unfold Pipeline.entryPoint entryPointText
  simpa only [hopen, hclose, String.intercalate_singleton, String.append_assoc] using h

theorem spells_values (names : List String) :
    (array (names.map string)).Spells (valuesText names) :=
  spells_array (spells_map spells_string names)

end Texts

/-! ### The module -/

namespace Pipeline

/-- The declaration of an object literal with string keys, one entry to a line. -/
def literalLines (name : String) (entries : List (String × String)) : List String :=
  if entries.isEmpty then ["const " ++ name ++ " = \x7b\x7d;"]
  else ("const " ++ name ++ " = \x7b") :: entries.map (fun e => "  " ++ Script.entryText e) ++
    ["\x7d;"]

/-- The heading of a section, if headings are wanted. -/
def headingLines (o : Options) (title : String) : List String :=
  if o.comments then ["// " ++ title] else []

/-- The subscriptions of a stratum under its heading; nothing if there are none. -/
def stratumLines (o : Options) (w : StratumWiring) : List String :=
  if w.subscriptions.isEmpty then []
  else headingLines o ("stratum " ++ toString w.index) ++ w.subscriptions.map Subscription.text

/-- What the factory returns. -/
def returnLines : List String :=
  ["return \x7b", "  ...entryPoints,",
    "  $registries: \x7b tables, inputs, operators, scanners, invalidationLookupTable, rescanLookupTable \x7d,",
    "\x7d;"]

/-- The lines of the body of the factory. -/
def bodyLines (o : Options) (p : Pipeline) : List String :=
  headingLines o "Tables" ++
    literalLines "tables" (p.tables.map fun t => (t.1, tableText t.2)) ++
    headingLines o "Inputs" ++
    (literalLines "inputs" (p.inputs.map fun r => (r, inputText)) ++
      literalLines "entryPoints" (p.inputs.map fun r => (r, entryPointText r))) ++
    headingLines o "Operators" ++
    literalLines "operators" (p.operators.map fun e => (e.1, e.2.text)) ++
    headingLines o "Scanners" ++
    literalLines "scanners" (p.scanners.map fun s => (s.1, s.2.text)) ++
    headingLines o "Invalidation and rescan" ++
    (literalLines "invalidationLookupTable" (p.invalidation.map fun t => (t.1, valuesText t.2)) ++
      literalLines "rescanLookupTable" (p.rescan.map fun t => (t.1, valuesText t.2))) ++
    headingLines o "Subscriptions" ++
    p.wiring.flatMap (stratumLines o) ++
    returnLines

/-- What follows the factory. -/
def footerLines (o : Options) : List String :=
  match o.format with
  | .esm => []
  | .commonJs => ["module.exports = \x7b " ++ o.factory ++ " \x7d;"]

/-- The lines of the module. -/
def lines (o : Options) (p : Pipeline) : List String :=
  ("// " ++ header) :: (exportText o.format ++ "function " ++ o.factory ++ "(runtime) \x7b") ::
    (p.bodyLines o).map ("  " ++ ·) ++ "\x7d" :: footerLines o

section Lines

open Layout Script

theorem block_heading (o : Options) (title : String) :
    Block (heading o title) (headingLines o title) := by
  unfold heading headingLines
  split
  · exact block_comment title
  · exact block_nil

theorem block_declaration (name : String) {l : Layout} {s : String} (h : l.Spells s) :
    Block [declaration name l] ["const " ++ name ++ " = " ++ s ++ ";"] := by
  refine block_statement (spells_concat.2 fun level fresh => ?_)
  rw [h.writeAll_text]

theorem block_literal (name : String) {ps : List Layout} {ls : List String} (h : Block ps ls) :
    Block [declaration name (concat [text "\x7b", line, nest (concat ps), text "\x7d"])]
      (("const " ++ name ++ " = \x7b") :: ls.map ("  " ++ ·) ++ ["\x7d;"]) := by
  have hopen : " = \x7b" = " = " ++ "\x7b" := by decide
  have hclose : Block [text "\x7d", text ";", line] ["\x7d;"] :=
    block_text_text.2 (block_nil.line_cons (by decide))
  rw [hopen, ← String.append_assoc, declaration, statement, block_concat, List.cons_append,
    block_concat, List.cons_append, List.cons_append, block_cons_concat]
  refine block_text_text.2 ((h.nest_cons hclose).line_cons ?_)
  simp

theorem block_entries {α : Type} {value : α → Layout} {t : α → String}
    (h : ∀ a, (value a).Spells (t a)) (entries : List (String × α)) :
    Block (entries.map fun e => entry (string e.1, value e.2))
    (entries.map fun e => entryText (e.1, t e.2)) := by
  rw [List.map_eq_flatMap, List.map_eq_flatMap]
  exact block_flatMap fun e _ => block_entry e.1 (h e.2)

theorem block_registry {α : Type} (name : String) {value : α → Layout} {t : α → String}
    (h : ∀ a, (value a).Spells (t a)) (entries : List (String × α)) :
    Block [declaration name (registry value entries)]
    (literalLines name (entries.map fun e => (e.1, t e.2))) := by
  cases entries with
  | nil =>
    have hempty : " = \x7b\x7d;" = " = " ++ "\x7b\x7d" ++ ";" := by decide
    have hdeclaration := block_declaration name (spells_text "\x7b\x7d")
    simpa only [literalLines, registry, object, List.map_nil, List.isEmpty_nil, if_true, hempty,
      String.append_assoc] using hdeclaration
  | cons e es =>
    have hliteral := block_literal name (block_entries h (e :: es))
    simpa only [literalLines, registry, object, List.map_cons, List.map_map, List.isEmpty_cons,
      Bool.false_eq_true, if_false, Function.comp_def] using hliteral

theorem block_stratumSection (o : Options) (w : StratumWiring) :
    Block (stratumSection o w) (stratumLines o w) := by
  unfold stratumSection stratumLines
  split
  · exact block_nil
  · refine (block_heading o _).append ?_
    rw [List.map_eq_flatMap, List.map_eq_flatMap]
    exact block_flatMap fun s _ => block_subscription s

theorem block_returnLayout : Block [returnLayout] returnLines := by
  have hlines : returnLines =
      "return \x7b" ::
        (["...entryPoints,", "$registries: \x7b tables, inputs, operators, scanners, " ++
          "invalidationLookupTable, rescanLookupTable \x7d,"].map ("  " ++ ·) ++ ["\x7d;"]) := by
    decide
  rw [hlines, returnLayout, block_concat]
  refine Block.line_cons (Block.nest_cons (Block.line_cons (Block.line_cons block_nil ?_) ?_)
    (Block.line_cons block_nil ?_)) ?_
  all_goals decide

theorem block_inputs (p : Pipeline) :
    Block
      [declaration "inputs" (registry (fun _ => inputLayout) (p.inputs.map fun r => (r, ()))),
        declaration "entryPoints" (registry entryPoint (p.inputs.map fun r => (r, r)))]
      (literalLines "inputs" (p.inputs.map fun r => (r, inputText)) ++
        literalLines "entryPoints" (p.inputs.map fun r => (r, entryPointText r))) := by
  have hinputs := block_registry "inputs" (fun _ => spells_input) (p.inputs.map fun r => (r, ()))
  have hpoints := block_registry "entryPoints" spells_entryPoint (p.inputs.map fun r => (r, r))
  rw [List.map_map] at hinputs hpoints
  exact hinputs.append hpoints

theorem block_body (o : Options) (p : Pipeline) : Block (body o p) (p.bodyLines o) := by
  have hlookups := (block_registry "invalidationLookupTable" spells_values p.invalidation).append
    (block_registry "rescanLookupTable" spells_values p.rescan)
  have hwiring := block_flatMap fun w (_ : w ∈ p.wiring) => block_stratumSection o w
  exact ((((((((((((block_heading o _).append
    (block_registry "tables" spells_table p.tables)).append
    (block_heading o _)).append (block_inputs p)).append (block_heading o _)).append
    (block_registry "operators" spells_operator p.operators)).append (block_heading o _)).append
    (block_registry "scanners" spells_scanner p.scanners)).append
      (block_heading o _)).append hlookups).append
    (block_heading o _)).append hwiring).append block_returnLayout

theorem block_footer (o : Options) : Block (footer o) (footerLines o) := by
  unfold footer footerLines
  cases o.format with
  | esm => exact block_nil
  | commonJs =>
    have hclose : " \x7d;" = " \x7d" ++ ";" := by decide
    rw [hclose, ← String.append_assoc]
    exact block_statement (spells_text _)

theorem block_layout (o : Options) (p : Pipeline) : Block [p.layout o] (p.lines o) := by
  have hfooter : Block ([text "\x7d", line] ++ footer o) ("\x7d" :: footerLines o) :=
    (block_footer o).line_cons (by decide)
  have hfactory : exportText o.format ++ "function " ++ o.factory ++ "(runtime) \x7b" ≠ "" := by
    simp
  unfold layout lines
  rw [block_concat, List.append_nil]
  exact (block_comment header).append (((block_body o p).nest_cons hfooter).line_cons hfactory)

/-- The text of a module is made of its lines. -/
theorem source_generated (o : Options) (p : Pipeline) :
    (p.generated o).source = unlines (p.lines o) := by
  rw [generated, (block_layout o p).render]

end Lines

end Pipeline

end Dataflow
