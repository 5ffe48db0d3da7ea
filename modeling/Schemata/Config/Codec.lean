import Schemata.Config.Basic
import Schemata.Graph.Codec
/-!
# Configurations as data

How a configuration is written as JSON and read from data. Only its version may not be missing.
-/

namespace Schemata

namespace UnresolvedPolicy

def toJson (p : UnresolvedPolicy) : Json := .text p.name

def read : Datum.Reader UnresolvedPolicy := Datum.readNamed named

end UnresolvedPolicy

namespace Outputs

def toJson (o : Outputs) : Json :=
  .object [("prisma", .text o.prisma), ("types", .text o.types)]

def fields : Fields [String, String] :=
  .cons (.defaulted "prisma" Datum.readPath standard.prisma) <|
  .cons (.defaulted "types" Datum.readPath standard.types) .nil

def read : Datum.Reader Outputs := fun d =>
  (fields.read "OutputConfig" d).map fun (prisma, types, _) => ⟨prisma, types⟩

end Outputs

namespace Config

def toJson (c : Config) : Json :=
  .object [
    ("version", .text c.version),
    ("input", .text c.input),
    ("base_prelude", .ofOption .text c.basePrelude),
    ("outputs", c.outputs.toJson),
    ("unresolved_relations", c.unresolvedRelations.toJson)]

def fields : Fields [String, String, Option String, Outputs, UnresolvedPolicy] :=
  .cons (.required "version" Datum.readText) <|
  .cons (.defaulted "input" Datum.readPath standard.input) <|
  .cons (.optional "base_prelude" Datum.readPath) <|
  .cons (.defaulted "outputs" Outputs.read .standard) <|
  .cons (.defaulted "unresolved_relations" UnresolvedPolicy.read .warn) .nil

def read : Datum.Reader Config := fun d =>
  (fields.read "Config" d).map
    fun (version, input, basePrelude, outputs, unresolvedRelations, _) =>
      { version, input, basePrelude, outputs, unresolvedRelations }

end Config
end Schemata
