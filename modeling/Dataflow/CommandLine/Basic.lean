import Dataflow.Compilation.Basic
import Dataflow.CommandLine.Arguments
import Dataflow.Graph.Dot
import Dataflow.Graph.Summary

/-!
# The command

What the command does with a document: which exit code it ends with, what it says, and what it
writes where. Reading and writing files is left to the caller, who reports how it went.

The exit code is 0 for success, 1 for a document with errors, and 2 for wrong arguments and for
files that cannot be read or written.
-/

namespace Dataflow

/-- Why a file cannot be read or written: its name holds a NUL character, it is not UTF-8 text, or
there is another reason, in words. -/
inductive FileFault
  | notFound | accessDenied | notDirectory | isDirectory | noSpace | nameTooLong
  | nulInName
  | notText
  | other (reason : String)
deriving DecidableEq, Inhabited

/-- A fault in words. -/
def FileFault.message : FileFault → String
  | notFound => "No such file or directory (os error 2)"
  | accessDenied => "Permission denied (os error 13)"
  | notDirectory => "Not a directory (os error 20)"
  | isDirectory => "Is a directory (os error 21)"
  | noSpace => "No space left on device (os error 28)"
  | nameTooLong => "File name too long (os error 36)"
  | nulInName => "file name contained an unexpected NUL byte"
  | notText => "stream did not contain valid UTF-8"
  | other reason => reason

/-- How the command ends: its exit code, what it writes to the standard output and to the standard
error output, and a file to write, by its path. -/
structure Outcome where
  exit : Nat
  output : String := ""
  messages : List String := []
  file : Option (String × String) := none
deriving DecidableEq, Inhabited

namespace Outcome

/-- The text for the standard error output. -/
def errorText (o : Outcome) : String := String.join (o.messages.map fun m => m ++ "\n")

/-- The outcome if its file cannot be written. -/
def unwritten (o : Outcome) (fault : FileFault) : Outcome :=
  { o with
    exit := 2
    messages := o.messages ++ ["flowgen: error: writing output: " ++ fault.message]
    file := none }

end Outcome

/-! ### Paths -/

/-- The name of a file with an extension in place of its own, if it has one. A name that starts with
its only point has no extension. Where only `..` is left before the extension, it is the folder
above, which takes none. -/
def nameWithExtension (name ext : List Char) : List Char :=
  match name.reverse.dropWhile (· ≠ '.') with
  | ['.', '.'] => ['.', '.']
  | _ :: c :: stem => (c :: stem).reverse ++ '.' :: ext
  | _ => name ++ '.' :: ext

/-- A path with an extension in place of that of its last part. -/
def withExtension (path ext : String) : String :=
  let name := (path.toList.reverse.takeWhile (· ≠ '/')).reverse
  let folder := path.toList.take (path.toList.length - name.length)
  String.ofList (folder ++ nameWithExtension name ext.toList)

/-- A path stands for the standard output: it is `-`, perhaps with parts after it that lead nowhere
else. -/
def isStandardOutput (path : String) : Bool :=
  match path.splitOn "/" with
  | "-" :: parts => parts.all fun p => p == "" || p == "."
  | _ => false

/-! ### Compiling -/

/-- The last pass that is needed. -/
def Emit.terminal : Emit → Pass
  | script => .codegen
  | summary | dot | record => .load

/-- What is written of a compilation. -/
def Emit.product (c : Compilation) : Emit → Option String
  | script => c.generated.map Generated.source
  | summary => c.graph.map Graph.summary
  | dot => c.graph.map Graph.dot
  | record => c.provenance.map Provenance.record

namespace Invocation

/-- The path to write to, unless it is the standard output. A module goes beside its document by
default. -/
def target? (i : Invocation) : Option String :=
  match i.output, i.emit with
  | some path, _ => if isStandardOutput path then none else some path
  | none, .script => some (withExtension i.source "js")
  | none, _ => none

/-- What is said only if asked for. -/
def announce (i : Invocation) (s : String) : List String :=
  if i.verbose then ["debug: " ++ s] else []

/-- What is said about a pass. -/
def passMessages (i : Invocation) (r : PassReport) : List String :=
  r.diagnostics.map (fun d => "flowgen: " ++ d.text) ++ i.announce (r.pass.name ++ " pass complete")

/-- What is said about a run. -/
def runMessages (i : Invocation) (r : Run) : List String :=
  i.announce ("compiling " ++ i.source) ++ r.reports.flatMap i.passMessages

/-- The outcome once the text of the document is known. -/
def compile (i : Invocation) (text : String) : Outcome :=
  let r := ({ source := text } : Compilation).run i.options i.emit.terminal
  let messages := i.runMessages r
  match r.failure, i.emit.product r.compilation with
  | some p, _ => { exit := 1, messages := messages ++ ["flowgen: " ++ p.failureMessage] }
  | none, none => { exit := 1, messages := messages ++ ["flowgen: no output produced"] }
  | none, some product =>
    match i.target? with
    | some path => { exit := 0, messages := messages, file := some (path, product) }
    | none => { exit := 0, messages := messages, output := product }

/-- The outcome if the document cannot be read. -/
def unread (i : Invocation) (fault : FileFault) : Outcome :=
  { exit := 2
    messages := i.announce ("compiling " ++ i.source) ++
      ["flowgen: error: " ++ (LoadError.unreadable i.source fault.message).message] }

/-- The outcome, by how reading the document went. -/
def outcome (i : Invocation) : Except FileFault String → Outcome
  | .ok text => i.compile text
  | .error fault => i.unread fault

end Invocation

/-! ### Other requests -/

/-- How the command is called. -/
def usage : String := "Usage: flowgen [OPTIONS] <SOURCE>"

/-- The help text. -/
def helpText : String :=
  "Generate push-based reactive pipelines from dataflow documents\n\n" ++ usage ++ "\n\n" ++
    "Arguments:\n" ++
    "  <SOURCE>  The document\n\n" ++
    "Options:\n" ++
    "  -o, --output <OUTPUT>    The file to write, `-` for the standard output\n" ++
    "      --emit <EMIT>        What to write: js, ir, dot or build-info [default: js]\n" ++
    "      --factory <FACTORY>  The name of the factory function [default: createPipeline]\n" ++
    "      --module <MODULE>    The module format: esm or commonjs [default: esm]\n" ++
    "      --no-comments        Leave out comments\n" ++
    "      --verbose            Announce the passes\n" ++
    "  -h, --help               Print help\n" ++
    "  -V, --version            Print version\n"

/-- The outcome for a wrong set of arguments. -/
def misuseOutcome : Outcome :=
  { exit := 2,
    messages := ["error: wrong arguments", "", usage, "", "For more information, try '--help'."] }

/-- The outcome of a request, given a way to read files. -/
def Request.outcomeM {m : Type → Type} [Monad m] (readFile : String → m (Except FileFault String)) :
    Request → m Outcome
  | compile i => do return i.outcome (← readFile i.source)
  | version => return { exit := 0, output := "flowgen " ++ Dataflow.version ++ "\n" }
  | help => return { exit := 0, output := helpText }
  | misuse => return misuseOutcome

end Dataflow
