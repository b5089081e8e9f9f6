import Dataflow.Diagnostic
import Dataflow.Graph.Basic
import Dataflow.Text.Quoted

/-!
# Why no pipeline can be generated
-/

namespace Dataflow

/-- Why no pipeline can be generated from a graph. -/
inductive GenerateError
  | nameCollision (name : String) (first second : ElementId)
  | portVocabulary (element : ElementId) (variant : Variant) (port : String)
  | unknownElement (id : ElementId)
  | scannerTarget (scanner target : ElementId)
  | factoryName (name : String)
  | misfiledRelation (relation : String) (element : ElementId) (expected : Variant)
deriving DecidableEq, Inhabited

namespace GenerateError

/-- What is reported. -/
def message : GenerateError → String
  | nameCollision n a b =>
    "elements " ++ toString a ++ " and " ++ toString b ++ " both resolve to the name \"" ++ n ++
      "\""
  | portVocabulary e v p => v.text ++ " element " ++ toString e ++ " has no port '" ++ p ++ "'"
  | unknownElement id => "reference to unknown element #" ++ toString id
  | scannerTarget s t =>
    "scanner " ++ toString s ++ " wraps element " ++ toString t ++ ", which is not a table or input"
  | factoryName n => "factory name " ++ Text.quoted n ++ " is not an identifier"
  | misfiledRelation r e v =>
    "relation '" ++ r ++ "' is registered to element " ++ toString e ++ ", which is not a " ++
      v.text

/-- The code of an error. -/
def code : GenerateError → Code
  | nameCollision .. => .nameCollision
  | portVocabulary .. => .portVocabulary
  | unknownElement _ => .danglingReference
  | scannerTarget .. => .scannerSource
  | factoryName _ => .factoryName
  | misfiledRelation .. => .misfiledRelation

/-- The element that an error is about. -/
def subject? : GenerateError → Option String
  | nameCollision n _ _ => some n
  | portVocabulary e _ _ => some (toString e)
  | scannerTarget s _ => some (toString s)
  | misfiledRelation r _ _ => some r
  | unknownElement _ | factoryName _ => none

/-- What may be done about an error. -/
def hint? : GenerateError → Option String
  | nameCollision .. => some "relation names must not repeat or look like element ids"
  | _ => none

/-- The diagnostic of an error. -/
def diagnostic (e : GenerateError) : Diagnostic :=
  { level := .error
    message := e.message
    code := some e.code
    subject := e.subject?
    hint := e.hint? }

end GenerateError

end Dataflow
