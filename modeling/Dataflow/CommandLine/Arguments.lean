import Dataflow.Provenance

/-!
# Arguments

The arguments of the command: one source, four options with a value and some flags, in any order.
Arguments are read from left to right, and the first one that is wrong, or that asks for the version
or for help, decides.

* `--name value` and `--name=value` give a value to an option; `-o` is short for `--output`, and its
  value may follow it directly or after `=`.
* The value of an option is not another option; a lone `-` is a value.
* After `--` nothing is an option.
* No option or flag is given twice, and neither the source nor the output is empty.
-/

namespace Dataflow

/-- What is to be written: the module, the graph as text or as a picture, or the build record. -/
inductive Emit
  | script
  | summary
  | dot
  | record
deriving DecidableEq, Inhabited

/-- What one run of the command is to do: which document it reads, where it writes to, what it
writes with which options, and whether it announces the passes. -/
structure Invocation where
  source : String
  output : Option String := none
  emit : Emit := .script
  options : Options := {}
  verbose : Bool := false
deriving DecidableEq, Inhabited

/-- What the arguments ask for; `misuse` if they are wrong. -/
inductive Request
  | compile (i : Invocation)
  | version
  | help
  | misuse
deriving DecidableEq, Inhabited

namespace Arguments

/-- The options that take a value. -/
inductive Setting
  | output | emit | factory | format
deriving DecidableEq, Inhabited

/-- The flags. -/
inductive Flag
  | noComments | verbose | version | help
deriving DecidableEq, Inhabited

/-- The long name of an option or flag. -/
def longName? : String → Option (Setting ⊕ Flag)
  | "output" => some (.inl .output)
  | "emit" => some (.inl .emit)
  | "factory" => some (.inl .factory)
  | "module" => some (.inl .format)
  | "no-comments" => some (.inr .noComments)
  | "verbose" => some (.inr .verbose)
  | "version" => some (.inr .version)
  | "help" => some (.inr .help)
  | _ => none

/-- The short name of an option or flag. -/
def shortName? : Char → Option (Setting ⊕ Flag)
  | 'o' => some (.inl .output)
  | 'V' => some (.inr .version)
  | 'h' => some (.inr .help)
  | _ => none

/-- What is to be written, by name. -/
def emit? : String → Option Emit
  | "js" => some .script
  | "ir" => some .summary
  | "dot" => some .dot
  | "build-info" => some .record
  | _ => none

/-- A module format, by name. -/
def format? (s : String) : Option ModuleFormat :=
  [ModuleFormat.esm, .commonJs].find? fun f => f.name == s

/-- What one argument is: a source or the value of an option, the end of the options, an option
whose value is attached or follows, a flag, or an option that does not exist. -/
inductive Shape
  | value (s : String)
  | escape
  | setting (s : Setting) (attached : Option String)
  | flag (f : Flag)
  | unknown
deriving DecidableEq, Inhabited

/-- The argument `--name` or `--name=value`, without the dashes. -/
def longShape (cs : List Char) : Shape :=
  let name := String.ofList (cs.takeWhile (· ≠ '='))
  match longName? name, cs.dropWhile (· ≠ '=') with
  | some (.inl s), [] => .setting s none
  | some (.inl s), _ :: v => .setting s (some (String.ofList v))
  | some (.inr f), [] => .flag f
  | some (.inr _), _ :: _ => .unknown
  | none, _ => .unknown

/-- The argument `-x` with what follows `x`. -/
def shortShape (c : Char) (rest : List Char) : Shape :=
  match shortName? c, rest with
  | some (.inl s), [] => .setting s none
  | some (.inl s), '=' :: v => .setting s (some (String.ofList v))
  | some (.inl s), v => .setting s (some (String.ofList v))
  | some (.inr f), _ => .flag f
  | none, _ => .unknown

/-- What an argument is. -/
def shape (s : String) : Shape :=
  match s.toList with
  | ['-', '-'] => .escape
  | '-' :: '-' :: cs => longShape cs
  | '-' :: c :: cs => shortShape c cs
  | _ => .value s

/-- What has been given so far. -/
structure Given where
  source : Option String := none
  output : Option String := none
  emit : Option Emit := none
  factory : Option String := none
  format : Option ModuleFormat := none
  noComments : Bool := false
  verbose : Bool := false
deriving DecidableEq, Inhabited

/-- A path, which is not empty. -/
def path? (s : String) : Option String := if s.isEmpty then none else some s

/-- Give a value to what has none yet. -/
def fresh {α : Type} (old new : Option α) : Except Request (Option α) :=
  match old, new with
  | none, some a => .ok (some a)
  | _, _ => .error .misuse

namespace Given

/-- Take note of a source. -/
def addSource (g : Given) (s : String) : Except Request Given := do
  return { g with source := ← fresh g.source (path? s) }

/-- Take note of an option. -/
def set (g : Given) (s : Setting) (v : String) : Except Request Given :=
  match s with
  | .output => do return { g with output := ← fresh g.output (path? v) }
  | .emit => do return { g with emit := ← fresh g.emit (emit? v) }
  | .factory => do return { g with factory := ← fresh g.factory (some v) }
  | .format => do return { g with format := ← fresh g.format (format? v) }

/-- Take note of a flag. -/
def raise (g : Given) : Flag → Except Request Given
  | .noComments => if g.noComments then .error .misuse else .ok { g with noComments := true }
  | .verbose => if g.verbose then .error .misuse else .ok { g with verbose := true }
  | .version => .error .version
  | .help => .error .help

/-- What has been given, read as a whole. -/
def request (g : Given) : Request :=
  let defaults : Options := {}
  match g.source with
  | none => .misuse
  | some source =>
    .compile {
      source := source
      output := g.output
      emit := g.emit.getD .script
      options :=
        { factory := g.factory.getD defaults.factory
          format := g.format.getD defaults.format
          comments := !g.noComments }
      verbose := g.verbose }

end Given

/-- Read arguments from left to right. -/
def read (g : Given) : List String → Except Request Given
  | [] => .ok g
  | arg :: args =>
    match shape arg with
    | .value s => do read (← g.addSource s) args
    | .escape => args.foldlM Given.addSource g
    | .setting s (some v) => do read (← g.set s v) args
    | .setting s none =>
      match args with
      | [] => .error .misuse
      | next :: args =>
        match shape next with
        | .value v => do read (← g.set s v) args
        | _ => .error .misuse
    | .flag f => do read (← g.raise f) args
    | .unknown => .error .misuse

end Arguments

/-- What the arguments ask for. -/
def Request.ofArguments (args : List String) : Request :=
  match Arguments.read {} args with
  | .ok g => g.request
  | .error r => r

end Dataflow
