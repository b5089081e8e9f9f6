import Dataflow.Expr.Basic

/-!
# What an expression refers to

The parameters and the free names of an expression, with their places, in the order of the source.
-/

namespace Dataflow.Expr

mutual

/-- The uses of positional parameters. -/
def paramRefs : Expr → List (UInt32 × Span)
  | literal _ _ | ident _ _ => []
  | param s i => [(i, s)]
  | tuple _ items => paramRefsAll items
  | index _ b i => b.paramRefs ++ i.paramRefs
  | field _ b _ => b.paramRefs
  | call _ f args => f.paramRefs ++ paramRefsAll args
  | unary _ _ e => e.paramRefs
  | binary _ _ l r => l.paramRefs ++ r.paramRefs

/-- The uses of positional parameters in a list of expressions. -/
def paramRefsAll : List Expr → List (UInt32 × Span)
  | [] => []
  | e :: es => e.paramRefs ++ paramRefsAll es

end

mutual

/-- The uses of free names; a field's name is none. -/
def freeNames : Expr → List (String × Span)
  | literal _ _ | param _ _ => []
  | ident s n => [(n, s)]
  | tuple _ items => freeNamesAll items
  | index _ b i => b.freeNames ++ i.freeNames
  | field _ b _ => b.freeNames
  | call _ f args => f.freeNames ++ freeNamesAll args
  | unary _ _ e => e.freeNames
  | binary _ _ l r => l.freeNames ++ r.freeNames

/-- The uses of free names in a list of expressions. -/
def freeNamesAll : List Expr → List (String × Span)
  | [] => []
  | e :: es => e.freeNames ++ freeNamesAll es

end

end Dataflow.Expr
