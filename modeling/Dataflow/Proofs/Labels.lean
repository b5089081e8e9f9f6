import Dataflow.Proofs.Statements

/-!
# Labels stay inside their quotes

Labels are escaped, as relations may have any name. Two things are asked of this: that the quotes
around a label end where they should, and that the label can be read back.

* `Dot.closing?` finds the quote that ends a quoted text. In front of it may stand every `Quotable`
  text (`Quotable.closing?_eq`), and so every label of a node.
* `Dot.unescape` reads a label back (`unescape_escape`), so that different labels are escaped
  differently.

Escaping goes through a label once. This is the same as to replace all backslashes first and then
all quotes (`escape_eq_replaceAll`); the other way round, the backslashes in front of the quotes
would be replaced too.
-/

namespace Dataflow

namespace Dot

/-! ### The end of a quoted text -/

/-- Where a reader gets outside quotes. -/
def closingFrom? : Place → List Char → Option Nat
  | _, [] => none
  | p, c :: cs => if p.next c = .outside then some 0 else (closingFrom? (p.next c) cs).map (· + 1)

/-- Where the first quote is that goes with no backslash, in a text that starts inside quotes. -/
def closing? (text : String) : Option Nat := closingFrom? .inside text.toList

theorem closingFrom?_append {p : Place} {cs : List Char} (h : stay? p cs = some .inside)
    (rest : List Char) :
    closingFrom? p (cs ++ '"' :: rest) = some cs.length := by
  induction cs generalizing p with
  | nil =>
    obtain rfl : p = .inside := Option.some.inj h
    rfl
  | cons c cs ih =>
    rw [stay?] at h
    split at h
    · cases h
    · next hnext =>
        rw [List.cons_append, closingFrom?, if_neg hnext, ih h, Option.map_some, List.length_cons]

/-- A text that may stand inside quotes is ended by the quote behind it. -/
theorem Quotable.closing?_eq {s : String} (h : Quotable s) (rest : String) :
    closing? (s ++ "\"" ++ rest) = some s.length := by
  have htext : (s ++ "\"" ++ rest).toList = s.toList ++ '"' :: rest.toList := by simp
  rw [closing?, htext, closingFrom?_append h, String.length_toList]

/-! ### Reading back -/

/-- Undo escapes: a backslash goes away in front of a backslash or a quote. -/
def unescapeChars : List Char → List Char
  | [] => []
  | '\\' :: '\\' :: cs => '\\' :: unescapeChars cs
  | '\\' :: '"' :: cs => '"' :: unescapeChars cs
  | c :: cs => c :: unescapeChars cs

/-- A label without its escapes. -/
def unescape (text : String) : String := String.ofList (unescapeChars text.toList)

theorem unescapeChars_escapeChars (cs : List Char) : unescapeChars (escapeChars cs) = cs := by
  fun_induction escapeChars cs with
  | case1 => rfl
  | case2 cs ih => rw [unescapeChars, ih]
  | case3 cs ih => rw [unescapeChars, ih]
  | case4 c cs hslash hquote ih =>
    rw [unescapeChars, ih]
    · exact fun ds hc _ => hslash hc
    · exact fun ds hc _ => hslash hc

theorem unescape_escape (label : String) : unescape (escape label) = label := by
  rw [unescape, escape, String.toList_ofList, unescapeChars_escapeChars, String.ofList_toList]

theorem escape_injective : Function.Injective escape := by
  intro label label' h
  rw [← unescape_escape label, h, unescape_escape]

/-! ### Replacing -/

/-- Every occurrence of a character, replaced by a text. -/
def replaceAll (c : Char) (replacement text : String) : String :=
  String.ofList (text.toList.flatMap fun d => if d = c then replacement.toList else [d])

theorem escape_eq_replaceAll (label : String) :
    escape label = replaceAll '"' "\\\"" (replaceAll '\\' "\\\\" label) := by
  simp only [escape, replaceAll, String.toList_ofList]
  refine congrArg String.ofList ?_
  fun_induction escapeChars label.toList with
  | case1 => rfl
  | case2 cs ih =>
    rw [List.flatMap_cons, List.flatMap_append, ← ih]
    rfl
  | case3 cs ih =>
    rw [List.flatMap_cons, List.flatMap_append, ← ih]
    rfl
  | case4 c cs hslash hquote ih =>
    rw [List.flatMap_cons, List.flatMap_append, ← ih, if_neg (fun h => hslash h),
      List.flatMap_singleton, if_neg (fun h => hquote h), List.singleton_append]

-- In the other order a quote would get two backslashes, which go together, and so would end the
-- label.
example :
    closing? (replaceAll '\\' "\\\\" (replaceAll '"' "\\\"" "a\"b") ++ "\"") = some 3 := by decide

/-- **Labels stay inside their quotes.** Escaping a label replaces its backslashes and then its
quotes. Inside quotes, where a backslash goes with the character behind it, the first quote that
goes with none is the one that was put behind the label; and reading the label back undoes the
escapes. So different labels are escaped differently. The label of every node stays inside its
quotes, whatever its relation is called. -/
theorem labels_stay_quoted :
    (∀ label, escape label = replaceAll '"' "\\\"" (replaceAll '\\' "\\\\" label)) ∧
    (∀ label rest, closing? (escape label ++ "\"" ++ rest) = some (escape label).length) ∧
    (∀ label, unescape (escape label) = label) ∧
    Function.Injective escape ∧
    ∀ e rest, closing? (nodeLabel e ++ "\"" ++ rest) = some (nodeLabel e).length :=
  ⟨escape_eq_replaceAll, fun label => (quotable_escape label).closing?_eq, unescape_escape,
    escape_injective, fun e => (quotable_nodeLabel e).closing?_eq⟩

end Dot

end Dataflow
