import Dataflow.Hash.Sha256
import Dataflow.Json.Basic
import Dataflow.Pipeline.Source

/-!
# Provenance

Where a module came from: the digest of the document's text, the digest of the options, and the
version of the generator. It serves as a build record and as a cache key.
-/

namespace Dataflow

/-- The version of the generator. -/
def version : String := "0.3.1"

/-- The name of a module format. -/
def ModuleFormat.name : ModuleFormat → String
  | esm => "esm"
  | commonJs => "commonjs"

/-- The options on one line, in a fixed order. -/
def Options.canonical (o : Options) : String :=
  "factory=" ++ o.factory ++ ";module=" ++ o.format.name ++ ";comments=" ++
    (if o.comments then "true" else "false")

/-- Where a module came from: the digests of the document's text and of the options, and the version
of the generator. -/
structure Provenance where
  source : Digest
  options : Digest
  version : String
deriving DecidableEq, Inhabited

/-- The digest of a text. -/
def textDigest (s : String) : Digest := Sha256.digest s.toUTF8.toList

namespace Provenance

/-- The provenance of a document's text under some options. -/
def of (source : String) (o : Options) : Provenance :=
  ⟨textDigest source, textDigest o.canonical, Dataflow.version⟩

/-- The build record, in which the form of the record itself has the version 1. -/
def toJson (p : Provenance) : Json :=
  .object [("source_hash", .string p.source.hex), ("options_fingerprint", .string p.options.hex),
    ("manifest_schema_version", .nat 1), ("compiler_version", .string p.version)]

/-- The text of the build record. -/
def record (p : Provenance) : String := p.toJson.pretty ++ "\n"

end Provenance

end Dataflow
