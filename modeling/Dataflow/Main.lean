import Dataflow.CommandLine.Basic

/-!
# The program

Reads the document, writes the result, and ends with the exit code that the command calls for.
-/

namespace Dataflow

/-- A system error code, which may come with the opposite sign. -/
def isErrorCode (code : Nat) (reported : UInt32) : Bool :=
  reported == UInt32.ofNat code || 0 - reported == UInt32.ofNat code

/-- The fault that a failed file operation stands for. -/
def FileFault.ofError (e : IO.Error) : FileFault :=
  match e with
  | .noFileOrDirectory .. => .notFound
  | .inappropriateType _ code _ => if isErrorCode 21 code then .isDirectory else .notDirectory
  | .permissionDenied .. => .accessDenied
  | .resourceExhausted _ code _ => if isErrorCode 28 code then .noSpace else .other (toString e)
  | .invalidArgument _ code _ => if isErrorCode 36 code then .nameTooLong else .other (toString e)
  | e => .other (toString e)

/-- Read a text file. -/
def readTextFile (path : String) : IO (Except FileFault String) := do
  if path.contains '\x00' then return .error .nulInName
  try
    let bytes ← IO.FS.readBinFile path
    match String.fromUTF8? bytes with
    | some s => return .ok s
    | none => return .error .notText
  catch e => return .error (FileFault.ofError e)

/-- Write the file of an outcome, if it has one. -/
def Outcome.writeFile (o : Outcome) : IO Outcome := do
  match o.file with
  | none => return o
  | some (path, text) =>
    try
      IO.FS.writeFile path text
      return o
    catch e => return o.unwritten (FileFault.ofError e)

end Dataflow

/-- The command. -/
def main (args : List String) : IO UInt32 := do
  let outcome ← (Dataflow.Request.ofArguments args).outcomeM Dataflow.readTextFile
  let outcome ← outcome.writeFile
  (← IO.getStdout).putStr outcome.output
  (← IO.getStderr).putStr outcome.errorText
  return UInt32.ofNat outcome.exit
