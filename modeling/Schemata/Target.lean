import Schemata.Prisma.Document
import Schemata.TypeScript.Document
/-!
# Targets

The kinds of documents that a schema can be written as.
-/

namespace Schemata

inductive Target where
  | prisma
  | types
deriving DecidableEq

namespace Target

def name : Target → String
  | .prisma => "prisma"
  | .types => "types"

def all : List Target := [.prisma, .types]

/-- The target of a name; types go by several. -/
def ofName (name : String) : Except UnknownName Target :=
  if name = "prisma" then .ok .prisma
  else if name = "types" ∨ name = "typescript" ∨ name = "ts" then .ok .types
  else .error ⟨"generator target", name, all.map Target.name⟩

def fileExtension : Target → String
  | .prisma => "prisma"
  | .types => "ts"

/-- The document of a schema. Only Prisma schemas have a prelude. -/
def generate (target : Target) (base : Option String) (s : Schema) : String :=
  match target with
  | .prisma => (Prisma.document (base.getD Prisma.defaultPrelude) s).render
  | .types => (TypeScript.document s).render

end Target
end Schemata
