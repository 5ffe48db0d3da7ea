import Schemata.Normalize.Relations
/-!
# Configurations

What a project says about itself: where its snapshot is, where generated documents go, and what
becomes of relations without columns.
-/

namespace Schemata

/-- The program: its name, its version, and the files that it looks for in a project. -/
structure Program where
  name : String
  version : String
  command : String
  configFile : String
  graphFile : String

namespace Program

def current : Program where
  name := "tessera"
  version := "0.1.0"
  command := "tessera"
  configFile := ".tessera.yaml"
  graphFile := "schema/graph.yaml"

end Program

/-- The paths that generated documents are written to. -/
structure Outputs where
  prisma : String
  types : String
deriving DecidableEq

namespace Outputs

def standard : Outputs := ⟨"generated/schema.prisma", "generated/schema.types.ts"⟩

end Outputs

structure Config where
  version : String
  input : String
  basePrelude : Option String
  outputs : Outputs
  unresolvedRelations : UnresolvedPolicy
deriving DecidableEq

namespace Config

/-- The configuration of a project that has none. -/
def standard : Config where
  version := "1.0"
  input := Program.current.graphFile
  basePrelude := none
  outputs := .standard
  unresolvedRelations := .warn

/-- What a configuration must say and may leave empty. -/
inductive Gap where
  | version
  | input
deriving DecidableEq

def Gap.message : Gap → String
  | .version => "Config file version is not specified"
  | .input => "Input snapshot path is not specified"

/-- Nothing that a configuration must say is empty. -/
def validate (c : Config) : Except Gap Unit :=
  if c.version.isEmpty then .error .version
  else if c.input.isEmpty then .error .input
  else .ok ()

end Config
end Schemata
