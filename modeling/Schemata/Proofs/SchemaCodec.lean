import Schemata.Proofs.GraphCodec
import Schemata.Schema.Checksum
/-!
# Schemas as JSON values

Each part of a schema is read back from its JSON as it was, and its JSON nests only so deep.
-/

namespace Schemata

open Json (readable_ofOption readable_ofList readable_ofTexts forall_readable_nil
  forall_readable_cons)

variable {depth : Nat}

namespace Location

theorem read_toJson (l : Location) : read l.toJson.toDatum = .ok l :=
  Fields.Read.map_read_eq
    (.cons (readOption_text l.table) <| .cons (readOption_text l.column) <|
      .cons (readOption_text l.member) .nil)
    (by decide) rfl

theorem readable_toJson (l : Location) : l.toJson.Readable (depth + 1) :=
  .object <|
    forall_readable_cons (readable_ofOption fun s _ => .text s) <|
    forall_readable_cons (readable_ofOption fun s _ => .text s) <|
    forall_readable_cons (readable_ofOption fun s _ => .text s) forall_readable_nil

end Location

namespace Warning

theorem read_toJson (w : Warning) : read w.toJson.toDatum = .ok w :=
  have hkind : Datum.readNamed WarningKind.named w.kind.toJson.toDatum = .ok w.kind := by
    cases w.kind
    rfl
  Fields.Read.map_read_eq
    (.cons rfl <| .cons (readOption_ofOption (by rintro l - ⟨⟩) fun l _ => l.read_toJson) <|
      .cons hkind .nil)
    (by decide) rfl

theorem readable_toJson (w : Warning) : w.toJson.Readable (depth + 2) :=
  have hkind : w.kind.toJson.Readable (depth + 1) := by
    cases w.kind
    exact .text _
  .object <|
    forall_readable_cons (.text _) <|
    forall_readable_cons (readable_ofOption fun l _ => l.readable_toJson) <|
    forall_readable_cons hkind forall_readable_nil

end Warning

namespace EnumType

theorem read_toJson (e : EnumType) : read e.toJson.toDatum = .ok e :=
  Fields.Read.map_read_eq (.cons rfl <| .cons rfl <| .cons (readList_ofTexts e.values) .nil)
    (by decide) rfl

theorem readable_toJson (e : EnumType) : e.toJson.Readable (depth + 2) :=
  .object <|
    forall_readable_cons (.text _) <| forall_readable_cons (.text _) <|
    forall_readable_cons (readable_ofTexts _) forall_readable_nil

end EnumType

namespace ColumnType

theorem read_toJson (t : ColumnType) : read t.toJson.toDatum = .ok t := by
  cases t <;> rfl

end ColumnType

namespace Column

theorem read_toJson (c : Column) : read c.toJson.toDatum = .ok c :=
  Fields.Read.map_read_eq
    (.cons rfl <| .cons rfl <| .cons c.type.read_toJson <| .cons rfl <| .cons rfl <|
      .cons (DefaultValue.readOption_toJson c.defaultValue) <| .cons rfl <| .cons rfl <|
      .cons rfl <| .cons rfl <| .cons rfl <| .cons (readOption_text c.enumName) <|
      .cons (readOption_uint32 c.lengthHint) .nil)
    (by decide) rfl

theorem readable_toJson {c : Column} (h : ∀ v ∈ c.defaultValue, v.ReadsBack) :
    c.toJson.Readable (depth + 1) :=
  .object <|
    forall_readable_cons (.text _) <| forall_readable_cons (.text _) <|
    forall_readable_cons (.text _) <| forall_readable_cons (.bool _) <|
    forall_readable_cons (.bool _) <|
    forall_readable_cons (readable_ofOption fun v hv => DefaultValue.readable_toJson (h v hv)) <|
    forall_readable_cons (.bool _) <| forall_readable_cons (.bool _) <|
    forall_readable_cons (.bool _) <| forall_readable_cons (.bool _) <|
    forall_readable_cons (.bool _) <|
    forall_readable_cons (readable_ofOption fun s _ => .text s) <|
    forall_readable_cons (readable_ofOption fun n _ => readable_uint32 n) forall_readable_nil

end Column

namespace Direction

theorem read_toJson (d : Direction) : read d.toJson.toDatum = .ok d := by
  cases d <;> rfl

end Direction

namespace OneRelation

theorem read_toMembers (r : OneRelation) : read (Json.object r.toMembers).toDatum = .ok r :=
  Fields.Read.map_read_eq
    (.cons rfl <| .cons rfl <| .cons (readOption_text r.relationName) <| .cons rfl <|
      .cons rfl <| .cons (readList_ofTexts r.sourceFields) <|
      .cons (readList_ofTexts r.referenceFields) <| .cons rfl <|
      .cons r.direction.read_toJson .nil)
    (by decide) rfl

theorem readable_toMembers (r : OneRelation) : ∀ m ∈ r.toMembers, m.2.Readable (depth + 1) :=
  forall_readable_cons (.text _) <| forall_readable_cons (.text _) <|
  forall_readable_cons (readable_ofOption fun s _ => .text s) <|
  forall_readable_cons (.text _) <| forall_readable_cons (.text _) <|
  forall_readable_cons (readable_ofTexts _) <| forall_readable_cons (readable_ofTexts _) <|
  forall_readable_cons (.bool _) <| forall_readable_cons (.text _) forall_readable_nil

end OneRelation

namespace ManyRelation

theorem read_toMembers (r : ManyRelation) : read (Json.object r.toMembers).toDatum = .ok r :=
  Fields.Read.map_read_eq
    (.cons rfl <| .cons rfl <| .cons rfl <| .cons r.direction.read_toJson .nil) (by decide) rfl

theorem readable_toMembers (r : ManyRelation) : ∀ m ∈ r.toMembers, m.2.Readable depth :=
  forall_readable_cons (.text _) <| forall_readable_cons (.text _) <|
  forall_readable_cons (.text _) <| forall_readable_cons (.text _) forall_readable_nil

end ManyRelation

namespace Relation

/-- The tag is in front, and the rest is read as the kind that it says. -/
theorem read_tagged {name : String} {reader : Datum.Reader Relation}
    {members : List (String × Json)} {r : Relation}
    (hreader : Datum.ofName readers name = .ok reader)
    (hname : Datum.tagName ∉ members.map (·.1))
    (hread : reader (Json.object members).toDatum = .ok r) :
    read (Json.object ((Datum.tagName, .text name) :: members)).toDatum = .ok r := by
  rw [read, untag_object hreader hname]
  exact readRest_eq_ok_iff.mpr hread

theorem read_toJson (r : Relation) : read r.toJson.toDatum = .ok r := by
  cases r with
  | one r =>
    refine read_tagged rfl (by simp [OneRelation.toMembers, Datum.tagName]) ?_
    rw [r.read_toMembers]
    rfl
  | many r =>
    refine read_tagged rfl (by simp [ManyRelation.toMembers, Datum.tagName]) ?_
    rw [r.read_toMembers]
    rfl

theorem readable_toJson (r : Relation) : r.toJson.Readable (depth + 2) := by
  cases r with
  | one r => exact .object (forall_readable_cons (.text _) r.readable_toMembers)
  | many r => exact .object (forall_readable_cons (.text _) r.readable_toMembers)

end Relation

namespace Index

theorem read_toJson (i : Index) : read i.toJson.toDatum = .ok i :=
  have hkind : IndexKind.read i.kind.toJson.toDatum = .ok i.kind := by
    cases i.kind <;> rfl
  Fields.Read.map_read_eq (.cons hkind <| .cons rfl <| .cons (readList_ofTexts i.fields) .nil)
    (by decide) rfl

theorem readable_toJson (i : Index) : i.toJson.Readable (depth + 2) :=
  .object <|
    forall_readable_cons (.text _) <| forall_readable_cons (.text _) <|
    forall_readable_cons (readable_ofTexts _) forall_readable_nil

end Index

namespace Model

theorem read_toJson (m : Model) : read m.toJson.toDatum = .ok m :=
  Fields.Read.map_read_eq
    (.cons rfl <| .cons rfl <| .cons (readList_ofList fun c _ => c.read_toJson) <|
      .cons (readList_ofList fun r _ => r.read_toJson) <|
      .cons (readList_ofList fun i _ => i.read_toJson) .nil)
    (by decide) rfl

theorem readable_toJson {m : Model} (h : ∀ c ∈ m.columns, ∀ v ∈ c.defaultValue, v.ReadsBack) :
    m.toJson.Readable (depth + 4) :=
  .object <|
    forall_readable_cons (.text _) <| forall_readable_cons (.text _) <|
    forall_readable_cons (readable_ofList fun c hc => Column.readable_toJson (h c hc)) <|
    forall_readable_cons (readable_ofList fun r _ => r.readable_toJson) <|
    forall_readable_cons (readable_ofList fun i _ => i.readable_toJson) forall_readable_nil

end Model

namespace Schema

/-- The floating-point numbers that the schema has for defaults read back. -/
def DefaultsReadBack (s : Schema) : Prop :=
  ∀ m ∈ s.models, ∀ c ∈ m.columns, ∀ v ∈ c.defaultValue, v.ReadsBack

instance (s : Schema) : Decidable s.DefaultsReadBack :=
  inferInstanceAs (Decidable (∀ m ∈ s.models, ∀ c ∈ m.columns, ∀ v ∈ c.defaultValue, v.ReadsBack))

theorem read_toJson (s : Schema) : read s.toJson.toDatum = .ok s :=
  Fields.Read.map_read_eq
    (.cons (readList_ofList fun m _ => m.read_toJson) <|
      .cons (readList_ofList fun e _ => e.read_toJson) <|
      .cons (readList_ofList fun r _ => r.read_toJson) <|
      .cons (readList_ofList fun w _ => w.read_toJson) <| .cons rfl .nil)
    (by decide) rfl

theorem readable_toJson {s : Schema} (h : s.DefaultsReadBack) : s.toJson.Readable (depth + 6) :=
  .object <|
    forall_readable_cons (readable_ofList fun m hm => Model.readable_toJson (h m hm)) <|
    forall_readable_cons (readable_ofList fun e _ => e.readable_toJson) <|
    forall_readable_cons (readable_ofList fun r _ => r.readable_toJson) <|
    forall_readable_cons (readable_ofList fun w _ => w.readable_toJson) <|
    forall_readable_cons (.text _) forall_readable_nil

end Schema

end Schemata
