import Schemata.Command.Run
import Schemata.Proofs.Command.Effects
/-!
# Documents in files and on the output

A document that goes to a file and one that goes to the output are made in the same way, and making
it only reads. What remains is to write one file, in a directory that may have to be made
(`file_holds_output`).
-/

namespace Schemata

namespace Generation

variable {t : FileTree} {text : String}

theorem writtenOrNot_writeDocument (t : FileTree) (path text : String) :
    t.WrittenOrNot path text (Failure.IsUnwritable path)
      (t.perform (writeDocument path text : Action (StateM FileTree) Unit)) := by
  unfold writeDocument
  cases Path.parent? path with
  | none => exact FileTree.writtenOrNot_writeFile (.refl t) path text
  | some parent =>
    have hmore := t.moreDirectories_createDirectories parent
    dsimp only
    rw [FileTree.perform_bind, FileTree.perform_createDirectories]
    cases (t.createDirectories parent).1 with
    | error cause => exact ⟨⟨cause, rfl⟩, hmore⟩
    | ok _ => exact FileTree.writtenOrNot_writeFile hmore path text

theorem readsOnly_readBase (p : Project) (g : Generation) :
    ReadsOnly (g.readBase p : Action (StateM FileTree) (Option String)) := by
  unfold readBase
  split
  · apply ReadsOnly.bind
    · exact (Project.readsOnly_readFile _).adapt _
    · intro text
      exact .pure _
  · exact .pure _

theorem readsOnly_document (p : Project) (g : Generation) :
    ReadsOnly (g.document p : Action (StateM FileTree) (Schema × String)) := by
  unfold document
  apply ReadsOnly.bind
  · exact Project.readsOnly_readSchema p g.input
  · intro s
    apply ReadsOnly.bind
    · exact readsOnly_readBase p g
    · intro base
      exact .pure _

/-- On the output there is the document, and nothing happens. -/
theorem perform_run_stdout (t : FileTree) (colored : Bool) (p : Project) (g : Generation) :
    t.perform (run colored p { g with stdout := true } : Action (StateM FileTree) String) =
      ((t.perform (g.document p)).1.map Prod.snd, t) := by
  show t.perform (g.document p >>= _) = _
  rw [FileTree.perform_bind, (readsOnly_document p g).perform_eq]
  cases (t.perform (g.document p)).1 <;> rfl

/-- A document that cannot be made fails in the same way if it is to be written to a file. -/
theorem perform_run_file_of_error {colored : Bool} {p : Project} {g : Generation} {e : Failure}
    (h : (t.perform (g.document p)).1 = .error e) :
    t.perform (run colored p { g with stdout := false } : Action (StateM FileTree) String) =
      (.error e, t) := by
  show t.perform (g.document p >>= _) = _
  rw [FileTree.perform_bind, (readsOnly_document p g).perform_eq, h]

theorem writtenOrNot_run_file {colored : Bool} {p : Project} {g : Generation} {s : Schema}
    (h : (t.perform (g.document p)).1 = .ok (s, text)) :
    t.WrittenOrNot (g.outputPath p) text (Failure.IsUnwritable (g.outputPath p))
      (t.perform (run colored p { g with stdout := false } : Action (StateM FileTree) String)) := by
  show t.WrittenOrNot _ _ _ (t.perform (g.document p >>= _))
  rw [FileTree.perform_bind, (readsOnly_document p g).perform_eq, h]
  exact (writtenOrNot_writeDocument t (g.outputPath p) text).bind_pure _

end Generation

/-- In a file system without links, a document that is to go to a file is the one that would go to
the output, which changes nothing: where there would be an error there is the same one, and else the
file at the path of the document holds it, or it is told that the file could not be written. No
other file changes. -/
theorem Command.file_holds_output (s : Setting) (g : Generation) (t : FileTree) :
    ∃ r, t.perform (Command.run s (.generate { g with stdout := true })) = (r, t) ∧
      match r with
      | .error e => t.perform (Command.run s (.generate { g with stdout := false })) = (.error e, t)
      | .ok text =>
        ∃ p path, t.perform (Project.load s) = (.ok p, t) ∧
          path = Path.join s.directory
            (g.output.getD <|
              match g.target with
              | .prisma => p.config.outputs.prisma
              | .types => p.config.outputs.types) ∧
          t.WrittenOrNot path text (Failure.IsUnwritable path)
            (t.perform (Command.run s (.generate { g with stdout := false }))) := by
  -- Both runs go on from the same project and the same tree.
  have hload := (Project.readsOnly_load s).perform_eq t
  simp only [Command.run, FileTree.perform_bind]
  rw [hload]
  cases hp : (t.perform (Project.load s)).1 with
  | error e => exact ⟨.error e, rfl, rfl⟩
  | ok p =>
    refine ⟨_, Generation.perform_run_stdout t s.colored p g, ?_⟩
    cases hdocument : (t.perform (g.document p)).1 with
    | error e => exact Generation.perform_run_file_of_error hdocument
    | ok made =>
      refine ⟨p, g.outputPath p, rfl, ?_, Generation.writtenOrNot_run_file hdocument⟩
      rw [← Project.directory_of_load hp]
      rfl

/-- A snapshot of an empty graph. -/
def emptySnapshot : FileTree where
  entries := [(["graph.json".toList], .file (.text "\x7b\"entries\":[]\x7d"))]

def emptyTypes (stdout : Bool) : Command :=
  .generate ⟨.types, some "graph.json", none, some "documents/types.ts", stdout⟩

example :
    let shown := emptySnapshot.perform (Command.run ⟨"/", none, false⟩ (emptyTypes true))
    let written := emptySnapshot.perform (Command.run ⟨"/", none, false⟩ (emptyTypes false))
    shown.1.isOk = true ∧ written.1.isOk = true ∧
      written.2.pathExists "/documents/types.ts" = true := by
  decide +kernel

end Schemata
