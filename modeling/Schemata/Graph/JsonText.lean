import Schemata.Graph.Codec
import Schemata.Json.Reader
/-!
# Graphs in JSON texts

A graph is read while its text is read, so that whatever is wrong first in the text decides: an
entry is read to its end and then looked at, before the text goes on.
-/

namespace Schemata.Graph

open Json (Step skipSpace readKey readColon readString readWord readValue readItemsTail
  mismatchAt maxDepth)

/-- Lifts a fault of the data into an error of the text. -/
def ofFault {α : Type} (r : Except Fault α) : Except Json.Error α :=
  r.mapError .mismatch

/-- A text where `expected` is wanted. -/
def readTextAt (expected : String) (cs : List Char) : Except Json.Error (String × List Char) :=
  match skipSpace cs with
  | '"' :: rest => readString .kept rest
  | cs => .error (mismatchAt expected cs)

def readVersion (cs : List Char) : Except Json.Error (Option String × List Char) :=
  match skipSpace cs with
  | 'n' :: rest => (readWord ['u', 'l', 'l'] rest).map (none, ·)
  | cs => (readTextAt "a string" cs).map fun (s, rest) => (some s, rest)

def readKind (cs : List Char) : Except Json.Error (Entry.Kind × List Char) :=
  (readTextAt "variant identifier" cs).map fun (s, rest) => (Entry.Kind.ofName s, rest)

/-- One member of an entry: its kind, which stands once, or another member. -/
def readEntryMember (depth : Nat) (kind : Option Entry.Kind) (cs : List Char) :
    Except Json.Error ((Option Entry.Kind × List (Datum × Datum)) × List Char) := do
  let (name, rest) ← readKey .kept cs
  if name = Datum.tagName then
    if kind.isSome then .error (.mismatch (.duplicateField name))
    else do
      let (kind, rest) ← readKind (← readColon rest)
      return ((some kind, []), rest)
  else
    let (value, rest) ← readValue .kept depth (← readColon rest)
    return ((kind, [(.text name, value.toDatum)]), rest)

/-- The members of an entry from the name of one of them on: its kind and the other members. -/
def readEntryMembers (depth : Nat) : (fuel : Nat) → Option Entry.Kind →
    Step (Option Entry.Kind × List (Datum × Datum))
  | 0, _, _ => .error .malformed
  | fuel + 1, kind, cs => do
    let ((kind, member), rest) ← readEntryMember depth kind cs
    match skipSpace rest with
    | [] => .error .truncated
    | '\x7d' :: rest => return ((kind, member), rest)
    | ',' :: rest =>
      let ((kind, members), rest) ← readEntryMembers depth fuel kind rest
      return ((kind, member ++ members), rest)
    | _ => .error .malformed

/-- The kind of an entry and the rest of its data, with room for `depth` levels of nesting. -/
def readEntryParts (depth : Nat) (cs : List Char) :
    Except Json.Error ((Entry.Kind × Datum) × List Char) :=
  match skipSpace cs with
  | '\x7b' :: rest => do
    let ((kind, members), rest) ←
      match skipSpace rest with
      | '\x7d' :: rest => .ok ((none, []), rest)
      | _ => readEntryMembers (depth - 1) (rest.length + 1) none rest
    match kind with
    | some kind => return ((kind, .record members), rest)
    | none => .error (.mismatch (.missingField Datum.tagName))
  | '[' :: rest =>
    match skipSpace rest with
    | [] => .error .truncated
    | ']' :: _ => .error (.mismatch (.missingField Datum.tagName))
    | _ => do
      let (kind, rest) ← readKind rest
      let (items, rest) ← readItemsTail .kept (rest.length + 1) (depth - 1) rest
      return ((kind, .list (Json.itemsToData items)), rest)
  | cs => .error (mismatchAt "internally tagged enum GraphEntry" cs)

def readEntry (depth : Nat) (cs : List Char) : Except Json.Error (Entry × List Char) := do
  let ((kind, d), rest) ← readEntryParts depth cs
  return (← ofFault (Datum.readRest (Entry.ofKind kind) d), rest)

/-- The entries behind the first one, up to the end of the list. -/
def readEntriesTail : (fuel depth : Nat) → Step (List Entry)
  | 0, _, _ => .error .malformed
  | fuel + 1, depth, cs =>
    match skipSpace cs with
    | [] => .error .truncated
    | ']' :: rest => .ok ([], rest)
    | ',' :: rest => do
      let (entry, rest) ← readEntry depth rest
      let (entries, rest) ← readEntriesTail fuel depth rest
      return (entry :: entries, rest)
    | _ => .error .malformed

def readEntries (depth : Nat) (cs : List Char) : Except Json.Error (List Entry × List Char) :=
  match skipSpace cs with
  | '[' :: rest =>
    match skipSpace rest with
    | [] => .error .truncated
    | ']' :: rest => .ok ([], rest)
    | _ => do
      let (entry, rest) ← readEntry (depth - 1) rest
      let (entries, rest) ← readEntriesTail (rest.length + 1) (depth - 1) rest
      return (entry :: entries, rest)
  | cs => .error (mismatchAt "a sequence" cs)

/-- What the members of a graph have said so far. -/
structure Draft where
  version : Option (Option String)
  entries : Option (List Entry)

/-- One member of a graph. The value of a member of another name is passed over. -/
def readMember (draft : Draft) (cs : List Char) : Except Json.Error (Draft × List Char) := do
  let (name, rest) ← readKey .kept cs
  if name = "version" then
    if draft.version.isSome then .error (.mismatch (.duplicateField name))
    else do
      let (version, rest) ← readVersion (← readColon rest)
      return ({ draft with version := some version }, rest)
  else if name = "entries" then
    if draft.entries.isSome then .error (.mismatch (.duplicateField name))
    else do
      let (entries, rest) ← readEntries (maxDepth - 1) (← readColon rest)
      return ({ draft with entries := some entries }, rest)
  else
    let (_, rest) ← readValue .skipped 0 (← readColon rest)
    return (draft, rest)

/-- The members of a graph from the name of one of them on. -/
def readMembers : (fuel : Nat) → Draft → Step Graph
  | 0, _, _ => .error .malformed
  | fuel + 1, draft, cs => do
    let (draft, rest) ← readMember draft cs
    match skipSpace rest with
    | [] => .error .truncated
    | '\x7d' :: rest => return (⟨draft.version.getD none, draft.entries.getD []⟩, rest)
    | ',' :: rest => readMembers fuel draft rest
    | _ => .error .malformed

/-- The end of a graph that is written as a list. -/
def readListEnd (g : Graph) (cs : List Char) : Except Json.Error (Graph × List Char) :=
  match skipSpace cs with
  | [] => .error .truncated
  | ']' :: rest => .ok (g, rest)
  | _ => .error .malformed

/-- A graph that is written as a list, behind its bracket: the version, and then the entries. -/
def readList (cs : List Char) : Except Json.Error (Graph × List Char) :=
  match skipSpace cs with
  | [] => .error .truncated
  | ']' :: rest => .ok (empty, rest)
  | cs => do
    let (version, rest) ← readVersion cs
    match skipSpace rest with
    | ',' :: rest =>
      match skipSpace rest with
      | ']' :: _ => .error .malformed
      | _ => do
        let (entries, rest) ← readEntries (maxDepth - 1) rest
        readListEnd ⟨version, entries⟩ rest
    | rest => readListEnd ⟨version, []⟩ rest

def readGraph (cs : List Char) : Except Json.Error (Graph × List Char) :=
  match skipSpace cs with
  | '\x7b' :: rest =>
    match skipSpace rest with
    | '\x7d' :: rest => .ok (empty, rest)
    | _ => readMembers (rest.length + 1) ⟨none, none⟩ rest
  | '[' :: rest => readList rest
  | cs => .error (mismatchAt "struct SchemaGraph" cs)

/-- The graph of a JSON text. -/
def ofJsonText (s : String) : Except Json.Error Graph := do
  let (g, rest) ← readGraph s.toList
  Json.readEnd rest
  return g

end Schemata.Graph
