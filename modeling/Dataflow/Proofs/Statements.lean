import Dataflow.Proofs.Drawing
import Dataflow.Proofs.Lexing

/-!
# The statements of a DOT text

A relation may have any name, so that the text of a picture may have line breaks, quotes and whole
statements inside its labels. A reader of DOT tells these from statements, since it knows where
quotes open and close: inside quotes, a backslash goes with the character behind it.

* `Dot.statements` reads a text like that: it is cut at the line breaks outside quotes, and each
  line declares a node, draws an edge or does something else.
* `Dot.Quotable` texts may stand inside quotes: a reader does not get outside in them. Labels are
  such texts.
* `Dot.Shows s ss` says that the text `s` is read as the statements `ss`, whatever follows. Texts in
  a row show their statements in a row, and so it goes from the parts of a picture to the whole
  (`Picture.shows_text`).

In the picture of a graph every element has one declaration, and every edge and every scanner has
one line (`Graph.dot_shows_once`).
-/

namespace Dataflow

namespace Dot

/-! ### Reading -/

/-- Where a reader is: outside quotes, inside, or inside and behind a backslash. -/
inductive Place
  | outside
  | inside
  | escaped
deriving DecidableEq

/-- Where a reader is behind one more character. -/
def Place.next : Place → Char → Place
  | outside, c => if c = '"' then inside else outside
  | inside, c => if c = '"' then outside else if c = '\\' then escaped else inside
  | escaped, _ => inside

/-- The lines of a text, which end at line breaks outside quotes only. -/
def linesFrom : Place → List Char → List (List Char)
  | _, [] => [[]]
  | p, c :: cs =>
    if p = .outside ∧ c = '\n' then [] :: linesFrom .outside cs
    else (linesFrom (p.next c) cs).modifyHead (c :: ·)

/-- What a line of a DOT text does: it declares the node of an element, draws an edge between the
nodes of two elements, or does something else. -/
inductive Statement
  | node (id : ElementId) (attributes : String)
  | edge (source target : ElementId) (attributes : String)
  | other (text : String)
deriving DecidableEq

/-- The number of the element whose node a statement declares. -/
def Statement.declared? : Statement → Option ElementId
  | node id _ => some id
  | _ => none

/-- A statement draws an edge. -/
def Statement.isEdge : Statement → Bool
  | edge .. => true
  | _ => false

/-- The number of the element whose node is named at the front of a text, and what follows its name.
-/
def name? : List Char → Option (ElementId × List Char)
  | 'e' :: cs =>
    if (cs.takeWhile Char.isDigit).isEmpty then none
    else some (digitsValue (cs.takeWhile Char.isDigit), cs.dropWhile Char.isDigit)
  | _ => none

/-- Read a line without the blanks in front of it. -/
def Statement.ofLine (line : List Char) : Statement :=
  let cs := line.dropWhile (· == ' ')
  match name? cs with
  | some (id, ' ' :: '[' :: r) => .node id (String.ofList ('[' :: r))
  | some (source, ' ' :: '-' :: '>' :: ' ' :: r) =>
    match name? r with
    | some (target, ' ' :: '[' :: r) => .edge source target (String.ofList ('[' :: r))
    | _ => .other (String.ofList cs)
  | _ => .other (String.ofList cs)

/-- Read a text from the start of a line; empty lines are passed over. -/
def readFrom (cs : List Char) : List Statement :=
  ((linesFrom .outside cs).filter fun l => !l.isEmpty).map Statement.ofLine

/-- The statements of a text. -/
def statements (text : String) : List Statement := readFrom text.toList

/-! ### Texts without line breaks outside quotes -/

/-- Where a reader is behind a text, unless a line ends in it. -/
def pass? : Place → List Char → Option Place
  | p, [] => some p
  | p, c :: cs => if p = .outside ∧ c = '\n' then none else pass? (p.next c) cs

/-- `Passes p s q`: a reader goes through the text `s` from `p` to `q`, and no line ends in it. -/
def Passes (p : Place) (s : String) (q : Place) : Prop := pass? p s.toList = some q

instance (p q : Place) (s : String) : Decidable (Passes p s q) :=
  inferInstanceAs (Decidable (_ = _))

variable {p q : Place} {s t line : String} {ss ts : List Statement}

theorem pass?_append (p : Place) (cs ds : List Char) :
    pass? p (cs ++ ds) = (pass? p cs).bind fun q => pass? q ds := by
  induction cs generalizing p with
  | nil => rfl
  | cons c cs ih =>
    rw [List.cons_append, pass?, pass?]
    split
    · rfl
    · exact ih (p.next c)

theorem Passes.append {r : Place} (h : Passes p s q) (h' : Passes q t r) : Passes p (s ++ t) r := by
  rw [Passes, String.toList_append, pass?_append, h, Option.bind_some]
  exact h'

/-- A text of ordinary characters does not change where a reader is. -/
theorem passes_of (h : ∀ c ∈ s.toList, p.next c = p ∧ c ≠ '\n') : Passes p s p := by
  rw [Passes]
  generalize s.toList = cs at h
  induction cs with
  | nil => rfl
  | cons c cs ih =>
    obtain ⟨⟨hnext, hline⟩, hcs⟩ := List.forall_mem_cons.1 h
    rw [pass?, if_neg fun hcut => hline hcut.2, hnext]
    exact ih hcs

theorem ne_of_mem_toString {n : Nat} {c d : Char} (hd : d ∈ (toString n).toList)
    (hc : c.isDigit = false) : d ≠ c := by
  obtain ⟨e, r, her, he, hr, -⟩ := exists_digits n
  have hdigits : ∀ d ∈ e :: r, d.isDigit = true := List.forall_mem_cons.2 ⟨he, hr⟩
  rw [← her] at hdigits
  rintro rfl
  exact Bool.false_ne_true (hc.symm.trans (hdigits d hd))

theorem passes_toString (hp : p ≠ .escaped) (n : Nat) : Passes p (toString n) p := by
  refine passes_of fun d hd => ?_
  have hquote : d ≠ '"' := ne_of_mem_toString hd (by decide)
  have hslash : d ≠ '\\' := ne_of_mem_toString hd (by decide)
  refine ⟨?_, ne_of_mem_toString hd (by decide)⟩
  cases p with
  | outside => simp [Place.next, hquote]
  | inside => simp [Place.next, hquote, hslash]
  | escaped => exact absurd rfl hp

/-! ### Texts inside quotes -/

/-- Where a reader is behind a text, unless it gets outside quotes. -/
def stay? : Place → List Char → Option Place
  | p, [] => some p
  | p, c :: cs => if p.next c = .outside then none else stay? (p.next c) cs

/-- A text may stand inside quotes: a reader does not get outside in it, and is not behind a
backslash at its end. -/
def Quotable (s : String) : Prop := stay? .inside s.toList = some .inside

instance (s : String) : Decidable (Quotable s) := inferInstanceAs (Decidable (_ = _))

theorem stay?_append (p : Place) (cs ds : List Char) :
    stay? p (cs ++ ds) = (stay? p cs).bind fun q => stay? q ds := by
  induction cs generalizing p with
  | nil => rfl
  | cons c cs ih =>
    rw [List.cons_append, stay?, stay?]
    split
    · rfl
    · exact ih (p.next c)

theorem Quotable.append (h : Quotable s) (h' : Quotable t) : Quotable (s ++ t) := by
  rw [Quotable, String.toList_append, stay?_append, h, Option.bind_some]
  exact h'

theorem stay?_cons {c : Char} (hquote : c ≠ '"') (hslash : c ≠ '\\') (cs : List Char) :
    stay? .inside (c :: cs) = stay? .inside cs := by
  have hnext : Place.next .inside c = .inside := by simp [Place.next, hquote, hslash]
  rw [stay?, hnext, if_neg (by decide)]

theorem quotable_toString (n : Nat) : Quotable (toString n) := by
  have hplain : ∀ d ∈ (toString n).toList, d ≠ '"' ∧ d ≠ '\\' := fun d hd =>
    ⟨ne_of_mem_toString hd (by decide), ne_of_mem_toString hd (by decide)⟩
  rw [Quotable]
  generalize (toString n).toList = cs at hplain
  induction cs with
  | nil => rfl
  | cons d cs ih =>
    obtain ⟨⟨hquote, hslash⟩, hcs⟩ := List.forall_mem_cons.1 hplain
    rw [stay?_cons hquote hslash]
    exact ih hcs

theorem quotable_escape (label : String) : Quotable (escape label) := by
  rw [Quotable, escape, String.toList_ofList]
  -- an escaped character is passed in two steps, which lead behind the backslash and back
  fun_induction escapeChars label.toList with
  | case1 => rfl
  | case2 cs ih => exact ih
  | case3 cs ih => exact ih
  | case4 c cs hslash hquote ih =>
    rw [stay?_cons (fun h => hquote h) (fun h => hslash h)]
    exact ih

theorem pass?_of_stay? {cs : List Char} (hp : p ≠ .outside) (h : stay? p cs = some q) :
    pass? p cs = some q := by
  induction cs generalizing p with
  | nil => exact h
  | cons c cs ih =>
    rw [stay?] at h
    split at h
    · cases h
    · next hnext =>
      rw [pass?, if_neg fun hcut => hp hcut.1]
      exact ih hnext h

/-- No line ends inside quotes. -/
theorem Quotable.passes (h : Quotable s) : Passes .inside s .inside := pass?_of_stay? (by decide) h

/-! ### Texts that show statements -/

/-- `Shows s ss`: from the start of a line, the text `s` is read as the statements `ss`, whatever
follows. -/
def Shows (s : String) (ss : List Statement) : Prop :=
  ∀ rest, readFrom (s.toList ++ rest) = ss ++ readFrom rest

theorem Shows.statements_eq (h : Shows s ss) : statements s = ss := by
  have hread := h []
  rwa [List.append_nil, show readFrom [] = [] from rfl, List.append_nil] at hread

theorem shows_empty : Shows "" [] := fun _ => rfl

theorem shows_break : Shows "\n" [] := fun _ => rfl

theorem Shows.append (h : Shows s ss) (h' : Shows t ts) : Shows (s ++ t) (ss ++ ts) := by
  intro rest
  rw [String.toList_append, List.append_assoc, h, h', List.append_assoc]

theorem shows_join {α : Type} {text : α → String} {shown : α → List Statement} {l : List α}
    (h : ∀ a ∈ l, Shows (text a) (shown a)) :
    Shows (String.join (l.map text)) (l.flatMap shown) := by
  induction l with
  | nil => exact shows_empty
  | cons a l ih =>
    obtain ⟨ha, hl⟩ := List.forall_mem_cons.1 h
    rw [List.map_cons, String.join_cons, List.flatMap_cons]
    exact ha.append (ih hl)

theorem linesFrom_append {cs : List Char} (h : pass? p cs = some .outside) (rest : List Char) :
    linesFrom p (cs ++ '\n' :: rest) = cs :: linesFrom .outside rest := by
  induction cs generalizing p with
  | nil =>
    obtain rfl : p = .outside := Option.some.inj h
    rfl
  | cons c cs ih =>
    rw [pass?] at h
    split at h
    · cases h
    · next hcut => rw [List.cons_append, linesFrom, if_neg hcut, ih h, List.modifyHead_cons]

/-- A line that ends outside quotes is read by itself. -/
theorem shows_line (h : Passes .outside line .outside) (hne : line ≠ "") :
    Shows (line ++ "\n") [.ofLine line.toList] := by
  intro rest
  have hchars : line.toList ≠ [] := fun hnil => hne (String.toList_inj.1 hnil)
  have htext : (line ++ "\n").toList ++ rest = line.toList ++ '\n' :: rest := by simp
  rw [htext, readFrom, linesFrom_append h, List.filter_cons, if_pos (by simpa using hchars)]
  rfl

/-! ### Nodes and edges -/

theorem passes_nodeName (id : ElementId) : Passes .outside (nodeName id) .outside :=
  Passes.append (q := .outside) (by decide) (passes_toString (by decide) id)

theorem name?_nodeName (id : ElementId) {rest : List Char}
    (h : ∀ c ∈ rest.head?, c.isDigit = false) :
    name? ((nodeName id).toList ++ rest) = some (id, rest) := by
  obtain ⟨c, r, hcr, hc, hr, hvalue⟩ := exists_digits id
  have hdigits : ∀ d ∈ c :: r, d.isDigit = true := List.forall_mem_cons.2 ⟨hc, hr⟩
  have htext : (nodeName id).toList ++ rest = 'e' :: ((c :: r) ++ rest) := by
    rw [nodeName, String.toList_append, hcr]
    rfl
  rw [htext, name?, takeWhile_append_of_head hdigits h, dropWhile_append_of_head hdigits h, hvalue]
  rfl

/-- A text of blanks, as in front of a line. -/
def Indents (indent : String) : Prop := ∀ c ∈ indent.toList, c = ' '

theorem indents_empty : Indents "" := by simp [Indents]

theorem indents_outer : Indents "    " := by simp [Indents]

theorem indents_inner : Indents "        " := by simp [Indents]

variable {indent attributes : String}

theorem Indents.passes (hi : Indents indent) : Passes .outside indent .outside := by
  refine passes_of fun c hc => ?_
  rw [hi c hc]
  decide

/-- The blanks in front of a line do not matter. -/
theorem Indents.dropWhile_append (hi : Indents indent) {cs : List Char}
    (h : ∀ c ∈ cs.head?, c ≠ ' ') :
    (indent.toList ++ cs).dropWhile (· == ' ') = cs := by
  refine dropWhile_append_of_head (fun c hc => ?_) fun c hc => ?_
  · rw [hi c hc]
    rfl
  · exact beq_eq_false_iff_ne.2 (h c hc)

theorem ne_blank_of_head?_nodeName (id : ElementId) (rest : List Char) :
    ∀ c ∈ ((nodeName id).toList ++ rest).head?, c ≠ ' ' := by
  have hhead : ((nodeName id).toList ++ rest).head? = some 'e' := by
    rw [nodeName, String.toList_append]
    rfl
  rw [hhead]
  simp

/-- A text starts with the character with which its first part starts. -/
theorem head?_append_of {c : Char} (h : s.toList.head? = some c) (t : String) :
    (s ++ t).toList.head? = some c := by
  rw [String.toList_append, List.head?_append, h]
  rfl

theorem ofLine_node (hi : Indents indent) (ha : attributes.toList.head? = some '[')
    (id : ElementId) :
    Statement.ofLine (indent ++ nodeName id ++ " " ++ attributes).toList = .node id attributes := by
  obtain ⟨r, ha⟩ := List.head?_eq_some_iff.1 ha
  have htext : (indent ++ nodeName id ++ " " ++ attributes).toList =
      indent.toList ++ ((nodeName id).toList ++ (' ' :: '[' :: r)) := by
    simp [ha]
  have hname : name? ((nodeName id).toList ++ (' ' :: '[' :: r)) = some (id, ' ' :: '[' :: r) :=
    name?_nodeName id (by simp)
  have hattributes : String.ofList ('[' :: r) = attributes := by rw [← ha, String.ofList_toList]
  rw [Statement.ofLine, htext, hi.dropWhile_append (ne_blank_of_head?_nodeName _ _), hname]
  exact congrArg _ hattributes

theorem ofLine_edge (hi : Indents indent) (ha : attributes.toList.head? = some '[')
    (source target : ElementId) :
    Statement.ofLine
      (indent ++ nodeName source ++ " -> " ++ nodeName target ++ " " ++ attributes).toList =
      .edge source target attributes := by
  obtain ⟨r, ha⟩ := List.head?_eq_some_iff.1 ha
  have htext :
      (indent ++ nodeName source ++ " -> " ++ nodeName target ++ " " ++ attributes).toList =
      indent.toList ++ ((nodeName source).toList ++
        (' ' :: '-' :: '>' :: ' ' :: ((nodeName target).toList ++ (' ' :: '[' :: r)))) := by
    simp [ha]
  have hsource : name? ((nodeName source).toList ++
      (' ' :: '-' :: '>' :: ' ' :: ((nodeName target).toList ++ (' ' :: '[' :: r)))) =
      some (source, ' ' :: '-' :: '>' :: ' ' :: ((nodeName target).toList ++ (' ' :: '[' :: r))) :=
    name?_nodeName source (by simp)
  have htarget :
      name? ((nodeName target).toList ++ (' ' :: '[' :: r)) = some (target, ' ' :: '[' :: r) :=
    name?_nodeName target (by simp)
  have hattributes : String.ofList ('[' :: r) = attributes := by rw [← ha, String.ofList_toList]
  rw [Statement.ofLine, htext, hi.dropWhile_append (ne_blank_of_head?_nodeName _ _), hsource]
  simp only [htarget, hattributes]

/-- The attributes of an element's node. -/
def nodeAttributes (e : Element) : String :=
  "[shape=" ++ (nodeStyle e.variant).1 ++ ", style=filled, fillcolor=" ++ (nodeStyle e.variant).2 ++
    ", label=\"" ++ nodeLabel e ++ "\"];"

/-- The attributes of an edge. -/
def edgeAttributes (port : InputPort) (style : EdgeStyle) : String :=
  "[label=\"" ++ port.name ++ "\"" ++ styleText style ++ "];"

/-- The attributes of the line from what is read to its scanner. -/
def scanAttributes : String := "[style=dotted, arrowhead=none, label=\"scans\"];"

theorem quotable_nodeLabel (e : Element) : Quotable (nodeLabel e) := by
  unfold nodeLabel
  split
  · next relation key _ =>
    have hhead : Quotable "table " := by decide
    have htail : Quotable "\\nkey .." := by decide
    exact ((hhead.append (quotable_escape relation)).append htail).append (quotable_toString key)
  · next relation _ =>
    have hhead : Quotable "input " := by decide
    exact hhead.append (quotable_escape relation)
  · next left _ =>
    have hhead : Quotable "join #" := by decide
    have htail : Quotable "\\nbuild " := by decide
    have hside : Quotable (sideText left) := by cases left <;> decide
    exact ((hhead.append (quotable_toString e.id)).append htail).append hside
  · next arity _ =>
    have hhead : Quotable "map #" := by decide
    have htail : Quotable "\\narity " := by decide
    exact ((hhead.append (quotable_toString e.id)).append htail).append (quotable_toString arity)
  · have hhead : Quotable "scan #" := by decide
    exact hhead.append (quotable_toString e.id)

theorem passes_nodeAttributes (e : Element) : Passes .outside (nodeAttributes e) .outside := by
  have hhead (v : Variant) : Passes .outside
      ("[shape=" ++ (nodeStyle v).1 ++ ", style=filled, fillcolor=" ++ (nodeStyle v).2 ++
        ", label=\"") .inside := by
    cases v <;> decide +kernel
  have htail : Passes .inside "\"];" .outside := by decide
  exact ((hhead e.variant).append (quotable_nodeLabel e).passes).append htail

theorem head?_nodeAttributes (e : Element) : (nodeAttributes e).toList.head? = some '[' := by
  unfold nodeAttributes
  simp only [String.append_assoc]
  exact head?_append_of rfl _

theorem passes_edgeAttributes (port : InputPort) (style : EdgeStyle) :
    Passes .outside (edgeAttributes port style) .outside := by
  have hhead : Passes .outside "[label=\"" .inside := by decide
  have hport : Passes .inside port.name .inside := by cases port <;> decide
  have hquote : Passes .inside "\"" .outside := by decide
  have hstyle : Passes .outside (styleText style) .outside := by cases style <;> decide +kernel
  have htail : Passes .outside "];" .outside := by decide
  exact (((hhead.append hport).append hquote).append hstyle).append htail

theorem head?_edgeAttributes (port : InputPort) (style : EdgeStyle) :
    (edgeAttributes port style).toList.head? = some '[' := by
  unfold edgeAttributes
  simp only [String.append_assoc]
  exact head?_append_of rfl _

theorem passes_scanAttributes : Passes .outside scanAttributes .outside := by
  unfold scanAttributes
  decide +kernel

/-- The declaration of an element's node. -/
def declaration (e : Element) : Statement := .node e.id (nodeAttributes e)

/-- An edge with its style. -/
def edgeStatement (e : Edge × EdgeStyle) : Statement :=
  .edge e.1.source e.1.target (edgeAttributes e.1.port e.2)

/-- The line from what is read to its scanner. -/
def scanStatement (s : ElementId × ElementId) : Statement := .edge s.2 s.1 scanAttributes

theorem nodeLine_eq (indent : String) (e : Element) :
    nodeLine indent e = indent ++ nodeName e.id ++ " " ++ nodeAttributes e ++ "\n" := by
  have hopen : " [shape=" = " " ++ "[shape=" := by decide
  have hclose : "\"];\n" = "\"];" ++ "\n" := by decide
  unfold nodeLine nodeAttributes
  rw [hopen, hclose]
  simp only [String.append_assoc]

theorem shows_nodeLine (hi : Indents indent) (e : Element) :
    Shows (nodeLine indent e) [declaration e] := by
  have hblank : Passes .outside " " .outside := by decide
  have hpasses :=
    ((hi.passes.append (passes_nodeName e.id)).append hblank).append (passes_nodeAttributes e)
  have hline := shows_line hpasses (by simp)
  rw [ofLine_node hi (head?_nodeAttributes e)] at hline
  rw [nodeLine_eq]
  exact hline

theorem shows_edge (ha : attributes.toList.head? = some '[')
    (hp : Passes .outside attributes .outside) (source target : ElementId) :
    Shows ("    " ++ nodeName source ++ " -> " ++ nodeName target ++ " " ++ attributes ++ "\n")
      [.edge source target attributes] := by
  have harrow : Passes .outside " -> " .outside := by decide
  have hblank : Passes .outside " " .outside := by decide
  have hsource := (indents_outer.passes.append (passes_nodeName source)).append harrow
  have hline :=
    shows_line (((hsource.append (passes_nodeName target)).append hblank).append hp) (by simp)
  rw [ofLine_edge indents_outer ha] at hline
  exact hline

theorem shows_edgeLine (e : Edge × EdgeStyle) : Shows (edgeLine e) [edgeStatement e] := by
  have htext : edgeLine e = "    " ++ nodeName e.1.source ++ " -> " ++ nodeName e.1.target ++ " " ++
      edgeAttributes e.1.port e.2 ++ "\n" := by
    have hopen : " [label=\"" = " " ++ "[label=\"" := by decide
    have hclose : "];\n" = "];" ++ "\n" := by decide
    unfold edgeLine edgeAttributes
    rw [hopen, hclose]
    simp only [String.append_assoc]
  rw [htext]
  exact shows_edge (head?_edgeAttributes _ _) (passes_edgeAttributes _ _) e.1.source e.1.target

theorem shows_scanLine (s : ElementId × ElementId) : Shows (scanLine s) [scanStatement s] := by
  have htext :
      scanLine s =
        "    " ++ nodeName s.2 ++ " -> " ++ nodeName s.1 ++ " " ++ scanAttributes ++ "\n" := by
    have hopen : " [style=dotted, arrowhead=none, label=\"scans\"];\n" =
        " " ++ "[style=dotted, arrowhead=none, label=\"scans\"];" ++ "\n" := by
      decide +kernel
    unfold scanLine scanAttributes
    rw [hopen]
    simp only [String.append_assoc]
  rw [htext]
  exact shows_edge rfl passes_scanAttributes s.2 s.1

/-! ### Whole pictures -/

/-- A line that does not start like the name of a node. -/
theorem shows_other {text : String} {c : Char} (hi : Indents indent)
    (ht : text.toList.head? = some c) (hc : c ≠ ' ' ∧ c ≠ 'e')
    (hp : Passes .outside text .outside) : Shows (indent ++ text ++ "\n") [.other text] := by
  obtain ⟨r, ht⟩ := List.head?_eq_some_iff.1 ht
  have hne : indent ++ text ≠ "" := by
    intro hempty
    simpa [ht] using congrArg String.toList hempty
  have hdrop : (indent ++ text).toList.dropWhile (· == ' ') = text.toList := by
    rw [String.toList_append]
    exact hi.dropWhile_append (by simp [ht, hc.1])
  have hname : name? text.toList = none := by
    rw [ht, name?]
    exact fun cs hcs => hc.2 (List.cons.inj hcs).1
  have hline := shows_line (hi.passes.append hp) hne
  rw [Statement.ofLine, hdrop, hname] at hline
  simpa using hline

/-- What stands in front of the clusters. -/
def opening : List Statement :=
  [.other "digraph dataflow \x7b", .other "rankdir=LR;",
    .other "node [fontname=\"Helvetica\", fontsize=10];",
    .other "edge [fontname=\"Helvetica\", fontsize=9];"]

/-- A cluster with the elements that are drawn in it. -/
def clusterStatements (index : Nat) (nodes : List Element) : List Statement :=
  [.other ("subgraph cluster_s" ++ toString index ++ " \x7b"),
    .other ("label=\"stratum " ++ toString index ++ "\";"), .other "style=rounded;",
    .other "color=gray50;"] ++ nodes.map declaration ++ [.other "\x7d"]

theorem shows_opening :
    Shows
      ("digraph dataflow \x7b\n" ++ "    rankdir=LR;\n" ++
        "    node [fontname=\"Helvetica\", fontsize=10];\n" ++
        "    edge [fontname=\"Helvetica\", fontsize=9];\n") opening := by
  have hgraph : Shows ("" ++ "digraph dataflow \x7b" ++ "\n") [.other "digraph dataflow \x7b"] :=
    shows_other indents_empty rfl (by decide) (by decide +kernel)
  have hrank : Shows ("    " ++ "rankdir=LR;" ++ "\n") [.other "rankdir=LR;"] :=
    shows_other indents_outer rfl (by decide) (by decide +kernel)
  have hnode : Shows ("    " ++ "node [fontname=\"Helvetica\", fontsize=10];" ++ "\n")
      [.other "node [fontname=\"Helvetica\", fontsize=10];"] :=
    shows_other indents_outer rfl (by decide) (by decide +kernel)
  -- the last one starts with the letter of the nodes, but no number follows
  have hedge : Shows ("    edge [fontname=\"Helvetica\", fontsize=9];" ++ "\n")
      [.ofLine "    edge [fontname=\"Helvetica\", fontsize=9];".toList] :=
    shows_line (by decide +kernel) (by decide)
  exact ((hgraph.append hrank).append hnode).append hedge

theorem shows_nodeLines (hi : Indents indent) (es : List Element) :
    Shows (String.join (es.map (nodeLine indent))) (es.map declaration) := by
  rw [List.map_eq_flatMap (f := declaration)]
  exact shows_join fun e _ => shows_nodeLine hi e

/-- The lines of a cluster, one by one. -/
theorem clusterLines_eq (c : Cluster) : clusterLines c =
    "\n" ++ ("    " ++ ("subgraph cluster_s" ++ toString c.index ++ " \x7b") ++ "\n") ++
      ("        " ++ ("label=\"stratum " ++ toString c.index ++ "\";") ++ "\n") ++
      ("        " ++ "style=rounded;" ++ "\n") ++ ("        " ++ "color=gray50;" ++ "\n") ++
      String.join (c.nodes.map (nodeLine "        ")) ++ ("    " ++ "\x7d" ++ "\n") := by
  have hopen : "\n    subgraph cluster_s" = "\n" ++ ("    " ++ "subgraph cluster_s") := by
    decide +kernel
  have hbrace : " \x7b\n" = " \x7b" ++ "\n" := by decide +kernel
  have hlabel : "        label=\"stratum " = "        " ++ "label=\"stratum " := by decide +kernel
  have hquote : "\";\n" = "\";" ++ "\n" := by decide +kernel
  have hstyle : "        style=rounded;\n" = "        " ++ "style=rounded;" ++ "\n" := by
    decide +kernel
  have hcolor : "        color=gray50;\n" = "        " ++ "color=gray50;" ++ "\n" := by
    decide +kernel
  have hclose : "    \x7d\n" = "    " ++ "\x7d" ++ "\n" := by decide +kernel
  unfold clusterLines
  rw [hopen, hbrace, hlabel, hquote, hstyle, hcolor, hclose]
  simp only [String.append_assoc]

theorem shows_clusterLines (c : Cluster) :
    Shows (clusterLines c) (clusterStatements c.index c.nodes) := by
  have hopen : Shows ("    " ++ ("subgraph cluster_s" ++ toString c.index ++ " \x7b") ++ "\n")
      [.other ("subgraph cluster_s" ++ toString c.index ++ " \x7b")] := by
    have hhead : Passes .outside "subgraph cluster_s" .outside := by decide +kernel
    have hbrace : Passes .outside " \x7b" .outside := by decide
    refine shows_other indents_outer (head?_append_of (head?_append_of rfl _) _) (by decide) ?_
    exact (hhead.append (passes_toString (by decide) c.index)).append hbrace
  have hlabel : Shows ("        " ++ ("label=\"stratum " ++ toString c.index ++ "\";") ++ "\n")
      [.other ("label=\"stratum " ++ toString c.index ++ "\";")] := by
    have hhead : Passes .outside "label=\"stratum " .inside := by decide +kernel
    have hquote : Passes .inside "\";" .outside := by decide
    refine shows_other indents_inner (head?_append_of (head?_append_of rfl _) _) (by decide) ?_
    exact (hhead.append (passes_toString (by decide) c.index)).append hquote
  have hstyle : Shows ("        " ++ "style=rounded;" ++ "\n") [.other "style=rounded;"] :=
    shows_other indents_inner rfl (by decide) (by decide +kernel)
  have hcolor : Shows ("        " ++ "color=gray50;" ++ "\n") [.other "color=gray50;"] :=
    shows_other indents_inner rfl (by decide) (by decide +kernel)
  have hclose : Shows ("    " ++ "\x7d" ++ "\n") [.other "\x7d"] :=
    shows_other indents_outer rfl (by decide) (by decide)
  rw [clusterLines_eq]
  have hsettings := (((shows_break.append hopen).append hlabel).append hstyle).append hcolor
  exact (hsettings.append (shows_nodeLines indents_inner c.nodes)).append hclose

end Dot

/-- The statements of a picture. -/
def Picture.statements (p : Picture) : List Dot.Statement :=
  Dot.opening ++ p.clusters.flatMap (fun c => Dot.clusterStatements c.index c.nodes) ++
    p.loose.map Dot.declaration ++
    p.edges.map Dot.edgeStatement ++ p.scans.map Dot.scanStatement ++ [.other "\x7d"]

/-- The text of a picture has the statements of the picture, whatever is written in its labels. -/
theorem Picture.shows_text (p : Picture) : Dot.Shows p.text p.statements := by
  have hbreak (b : Bool) : Dot.Shows (if b then "" else "\n") [] := by
    cases b with
    | false => exact Dot.shows_break
    | true => exact Dot.shows_empty
  have hclusters := Dot.shows_join fun c (_ : c ∈ p.clusters) => Dot.shows_clusterLines c
  have hedges := Dot.shows_join fun e (_ : e ∈ p.edges) => Dot.shows_edgeLine e
  have hscans := Dot.shows_join fun s (_ : s ∈ p.scans) => Dot.shows_scanLine s
  have hclose : Dot.Shows ("" ++ "\x7d" ++ "\n") [.other "\x7d"] :=
    Dot.shows_other Dot.indents_empty rfl (by decide) (by decide)
  have hnodes := (Dot.shows_opening.append hclusters).append (hbreak p.loose.isEmpty)
  have hloose := hnodes.append (Dot.shows_nodeLines Dot.indents_outer p.loose)
  have hlines := hloose.append (hbreak (p.edges.isEmpty && p.scans.isEmpty))
  have hall := ((hlines.append hedges).append hscans).append hclose
  rw [← List.map_eq_flatMap, ← List.map_eq_flatMap, List.append_nil, List.append_nil] at hall
  exact hall

/-! ### Nodes and edges among the statements -/

namespace Dot

/-- The statements of some clusters, with the elements that are drawn in them. -/
def rowStatements (rows : List (Stratum × List Element)) : List Statement :=
  rows.flatMap fun r => clusterStatements r.1.index r.2

/-- The line for an element that is a scanner, from what it reads to it; none for another element.
-/
def scannerStatements (e : Element) : List Statement :=
  match e.kind with
  | .scanner t => [.edge t e.id scanAttributes]
  | _ => []

theorem map_scanStatement (es : List Element) :
    (es.filterMap Graph.scan?).map scanStatement = es.flatMap scannerStatements := by
  induction es with
  | nil => rfl
  | cons e es ih =>
    rw [List.flatMap_cons, ← ih]
    cases hk : e.kind with
    | scanner t => simp [Graph.scan?, scannerStatements, hk, scanStatement]
    | table | input | join | map => simp [Graph.scan?, scannerStatements, hk]

theorem isEdge_scannerStatements {e : Element} {s : Statement} (h : s ∈ scannerStatements e) :
    s.isEdge = true := by
  unfold scannerStatements at h
  split at h
  · rw [List.mem_singleton.1 h]
    rfl
  · cases h

theorem declared?_declarations (es : List Element) :
    (es.map declaration).filterMap Statement.declared? = es.map Element.id := by
  rw [List.filterMap_map]
  exact congrFun List.filterMap_eq_map es

theorem isEdge_declarations (es : List Element) :
    (es.map declaration).filter Statement.isEdge = [] := by
  simp [declaration, Statement.isEdge]

theorem declared?_edges {ss : List Statement} (h : ∀ s ∈ ss, s.isEdge = true) :
    ss.filterMap Statement.declared? = [] := by
  refine List.filterMap_eq_nil_iff.2 fun s hs => ?_
  have hedge := h s hs
  cases s with
  | node => cases hedge
  | edge | other => rfl

theorem declared?_rowStatements (rows : List (Stratum × List Element)) :
    (rowStatements rows).filterMap Statement.declared? =
      (rows.flatMap Prod.snd).map Element.id := by
  rw [rowStatements, List.filterMap_flatMap, List.map_flatMap]
  refine congrArg (rows.flatMap ·) (funext fun r => ?_)
  rw [clusterStatements, List.filterMap_append, List.filterMap_append, declared?_declarations]
  exact List.append_nil _

theorem isEdge_rowStatements (rows : List (Stratum × List Element)) :
    (rowStatements rows).filter Statement.isEdge = [] := by
  rw [rowStatements, List.filter_flatMap]
  refine List.flatMap_eq_nil_iff.2 fun r _ => ?_
  rw [clusterStatements, List.filter_append, List.filter_append, isEdge_declarations]
  rfl

end Dot

namespace Graph

/-- **A picture shows every element and every edge once.** Whatever steps made a graph, reading its
DOT text finds the following statements, whatever is written in the labels. Behind the opening there
is a cluster for each stratum in order, then the elements outside all clusters, then the edges in
order, then a line for each scanner in order. Every element has one declaration, in the cluster of
the first stratum that lists it, or outside if none does. -/
theorem dot_shows_once (steps : List BuildStep) :
    let g := ofSteps steps
    let edges := g.edges.map fun e => Dot.edgeStatement (e, g.edgeStyle e)
    let scans := g.elements.flatMap Dot.scannerStatements
    (∃ rows loose, g.Placed rows loose ∧
      Dot.statements g.dot =
        Dot.opening ++ Dot.rowStatements rows ++ loose.map Dot.declaration ++ edges ++ scans ++
          [.other "\x7d"]) ∧
    ((Dot.statements g.dot).filterMap Dot.Statement.declared?).Perm (List.range g.elements.length) ∧
    (Dot.statements g.dot).filter Dot.Statement.isEdge = edges ++ scans := by
  intro g edges scans
  have hg : g.Built := built_ofSteps steps
  obtain ⟨rows, hplaced, hclusters⟩ := exists_placed hg
  have hstatements : Dot.statements g.dot =
      Dot.opening ++ Dot.rowStatements rows ++ g.picture.loose.map Dot.declaration ++ edges ++
        scans ++ [.other "\x7d"] := by
    have hedges : g.picture.edges.map Dot.edgeStatement = edges := List.map_map
    have hscans : g.picture.scans.map Dot.scanStatement = scans := Dot.map_scanStatement g.elements
    rw [dot, g.picture.shows_text.statements_eq, Picture.statements, hclusters, List.flatMap_map,
      hedges, hscans]
    rfl
  have hedges : ∀ s ∈ edges, s.isEdge = true := by
    intro s hs
    obtain ⟨e, -, rfl⟩ := List.mem_map.1 hs
    rfl
  have hscans : ∀ s ∈ scans, s.isEdge = true := by
    intro s hs
    obtain ⟨e, -, hs⟩ := List.mem_flatMap.1 hs
    exact Dot.isEdge_scannerStatements hs
  refine ⟨⟨rows, g.picture.loose, hplaced, hstatements⟩, ?_, ?_⟩
  · have hdeclared : (Dot.statements g.dot).filterMap Dot.Statement.declared? =
        (rows.flatMap Prod.snd ++ g.picture.loose).map Element.id := by
      simp only [hstatements, List.filterMap_append, Dot.declared?_rowStatements,
        Dot.declared?_declarations, Dot.declared?_edges hedges, Dot.declared?_edges hscans,
        List.map_append, List.append_nil]
      exact List.append_nil _
    rw [hdeclared, ← hg.ids]
    exact hplaced.once.map Element.id
  · simp only [hstatements, List.filter_append, Dot.isEdge_rowStatements, Dot.isEdge_declarations,
      List.filter_eq_self.2 hedges, List.filter_eq_self.2 hscans]
    exact List.append_nil _

end Graph

end Dataflow
