import Schemata.Command.Project
/-!
# Initialization

A new project gets a configuration with the usual values and, unless it has one, an example of a
snapshot.
-/

namespace Schemata.Init

/-- An enum, three tables and the relations between them. -/
def exampleLines : List String :=
  ["version: \"1\"",
    "entries:",
    "  - kind: enum",
    "    binding: roleEnum",
    "    name: Role",
    "    values: [ADMIN, USER]",
    "",
    "  - kind: table",
    "    binding: users",
    "    name: User",
    "    columns:",
    "      - \x7b alias: id, name: id, storage: text, sql_type: text, primary: true, " ++
      "not_null: true \x7d",
    "      - \x7b alias: email, name: email, storage: varchar, sql_type: varchar(255), " ++
      "not_null: true, unique: true \x7d",
    "      - \x7b alias: role, name: role, storage: enum, sql_type: role, enum_name: Role, " ++
      "not_null: true, has_default: true, default_value: USER \x7d",
    "      - \x7b alias: settingsId, name: settings_id, storage: text, sql_type: text \x7d",
    "      - \x7b alias: createdAt, name: created_at, storage: timestamp, " ++
      "sql_type: timestamp with time zone, not_null: true, has_default: true \x7d",
    "    indexes:",
    "      - \x7b name: users_email_idx, columns: [email], unique: true \x7d",
    "",
    "  - kind: table",
    "    binding: userSettings",
    "    name: UserSettings",
    "    columns:",
    "      - \x7b alias: id, name: id, storage: text, sql_type: text, primary: true, " ++
      "not_null: true \x7d",
    "      - \x7b alias: theme, name: theme, storage: text, sql_type: text, not_null: true, " ++
      "has_default: true, default_value: light \x7d",
    "",
    "  - kind: table",
    "    binding: posts",
    "    name: Post",
    "    columns:",
    "      - \x7b alias: id, name: id, storage: text, sql_type: text, primary: true, " ++
      "not_null: true \x7d",
    "      - \x7b alias: authorId, name: author_id, storage: text, sql_type: text, " ++
      "not_null: true \x7d",
    "      - \x7b alias: tags, name: tags, storage: array, sql_type: \"text[]\" \x7d",
    "    foreign_keys:",
    "      - \x7b columns: [author_id], foreign_table: User, foreign_columns: [id] \x7d",
    "",
    "  - kind: relations",
    "    binding: userRelations",
    "    table: User",
    "    relations:",
    "      - name: settings",
    "        cardinality: one",
    "        referenced_table: UserSettings",
    "        config: \x7b fields: [settings_id], references: [id] \x7d",
    "      - name: posts",
    "        cardinality: many",
    "        referenced_table: Post",
    "",
    "  - kind: relations",
    "    binding: postRelations",
    "    table: Post",
    "    relations:",
    "      - name: author",
    "        cardinality: one",
    "        referenced_table: User"]

/-- The snapshot of a new project. -/
def exampleGraph : String := String.join (exampleLines.map (· ++ "\n"))

variable {m : Type → Type} [Monad m] [Files m]

/-- Makes the directory that a path lies in. -/
def createParent (path : String) : Action m Unit := do
  match Path.parent? path with
  | none => return ()
  | some parent =>
    match ← Files.createDirectories parent with
    | .ok () => return ()
    | .error cause => throw (.directory parent cause)

/-- Writes the example unless there is a snapshot, and tells what was done. -/
def provideGraph (directory : String) : Action m String := do
  let path := Path.join directory Program.current.graphFile
  if ← Files.pathExists path then
    return s!"Kept existing {Program.current.graphFile}\n"
  else
    createParent path
    (Project.writeFile path exampleGraph).adapt .file
    return s!"Created {path}\n"

/-- Makes a directory a project. One that has a configuration is left alone, unless that is to be
replaced. -/
def run (directory : String) (force : Bool) : Action m String := do
  let path := Path.join directory Program.current.configFile
  if (← Files.pathExists path) && !force then throw .alreadyInitialized
  (Project.writeFile path Config.standard.toYaml).adapt .file
  let told ← provideGraph directory
  return s!"Created {path}\n{told}Project initialized. " ++
    s!"Run `{Program.current.command} summary` to inspect the schema graph."

end Schemata.Init
