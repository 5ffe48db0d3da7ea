import Schemata.Proofs.GraphCodec
import Schemata.Snapshot
/-!
# Graphs inside JSON texts

The reader of graphs, which takes a text from the front, gives back the graph whose compact text it
is. Whatever text it reads, the graph that it gives has no kind of storage and no cardinality under
the name of another one.
-/

namespace Schemata.Graph

open Json (EndsNumber membersTail itemsTail stringText membersToData readKey_stringText)

variable {depth fuel : Nat} {rest : List Char}

namespace Entry

def Kind.name : Kind → String
  | .enum => "enum"
  | .table => "table"
  | .relations => "relations"
  | .other => "other"

theorem Kind.ofName_name (kind : Kind) : ofName kind.name = kind := by
  cases kind <;> rfl

def kind : Entry → Kind
  | .enum _ => .enum
  | .table _ => .table
  | .relations _ => .relations
  | .other => .other

/-- The members of the JSON of an entry that stand behind its kind. -/
def toMembers : Entry → List (String × Json)
  | .enum d => d.toMembers
  | .table t => t.toMembers
  | .relations s => s.toMembers
  | .other => []

theorem toJson_eq (e : Entry) :
    e.toJson = .object ((Datum.tagName, .text e.kind.name) :: e.toMembers) := by
  cases e <;> rfl

/-- The kinds of storage and the cardinalities that are not known by their names do not have the
names of known ones. -/
def Unreserved : Entry → Prop
  | .table t => ∀ c ∈ t.columns, c.storage.Unreserved
  | .relations s => ∀ r ∈ s.relations, r.cardinality.Unreserved
  | _ => True

/-- The floating-point numbers among the defaults read back. -/
def DefaultsReadBack : Entry → Prop
  | .table t => ∀ c ∈ t.columns, ∀ v ∈ c.defaultValue, v.ReadsBack
  | _ => True

instance : (e : Entry) → Decidable e.Unreserved
  | .table t => inferInstanceAs (Decidable (∀ c ∈ t.columns, c.storage.Unreserved))
  | .relations s => inferInstanceAs (Decidable (∀ r ∈ s.relations, r.cardinality.Unreserved))
  | .enum _ | .other => .isTrue trivial

instance : (e : Entry) → Decidable e.DefaultsReadBack
  | .table t => inferInstanceAs (Decidable (∀ c ∈ t.columns, ∀ v ∈ c.defaultValue, v.ReadsBack))
  | .enum _ | .relations _ | .other => .isTrue trivial

variable {e : Entry}

theorem tagName_not_mem_toMembers (e : Entry) : Datum.tagName ∉ e.toMembers.map (·.1) := by
  cases e <;>
    simp [toMembers, Datum.tagName, EnumDeclaration.toMembers, TableDeclaration.toMembers,
      RelationSet.toMembers]

theorem readable_toMembers (h : e.DefaultsReadBack) :
    ∀ m ∈ e.toMembers, m.2.Readable (depth + 4) := by
  cases e with
  | enum d => exact d.readable_toMembers
  | table t => exact TableDeclaration.readable_toMembers h
  | relations s => exact s.readable_toMembers
  | other => exact Json.forall_readable_nil

theorem ofKind_toMembers (h : e.Unreserved) :
    ofKind e.kind (.record (membersToData e.toMembers)) = .ok e := by
  cases e with
  | enum d => exact congrArg (Except.map Entry.enum) d.read_toMembers
  | table t => exact congrArg (Except.map Entry.table) (TableDeclaration.read_toMembers h)
  | relations s => exact congrArg (Except.map Entry.relations) (RelationSet.read_toMembers h)
  | other => rfl

theorem unreserved_of_ofKind {kind : Kind} {d : Datum} (h : ofKind kind d = .ok e) :
    e.Unreserved := by
  cases kind <;> obtain ⟨a, hread, rfl⟩ := map_eq_ok h
  case enum => trivial
  case table => exact TableDeclaration.unreserved_of_read hread
  case relations => exact RelationSet.unreserved_of_read hread
  case other => trivial

end Entry

section Readers

theorem readVersion_compactChars (version : Option String) (rest : List Char) :
    readVersion ((Json.ofOption .text version).compactChars ++ rest) = .ok (version, rest) := by
  cases version with
  | none => rfl
  | some s =>
    show (Json.readString .kept (Json.stringBody s.toList ++ rest)).map _ = _
    rw [Json.readString_stringBody]
    rfl

theorem readKind_stringText (kind : Entry.Kind) (rest : List Char) :
    readKind (stringText kind.name ++ rest) = .ok (kind, rest) := by
  show (Json.readString .kept (Json.stringBody kind.name.toList ++ rest)).map _ = _
  rw [Json.readString_stringBody]
  show Except.ok (Entry.Kind.ofName kind.name, rest) = _
  rw [Entry.Kind.ofName_name]

theorem readEntryMember_kind (depth : Nat) (kind : Entry.Kind) (rest : List Char) :
    readEntryMember depth none
        (stringText Datum.tagName ++ ':' :: (stringText kind.name ++ rest)) =
      .ok ((some kind, []), rest) := by
  rw [readEntryMember, readKey_stringText]
  show (readKind (stringText kind.name ++ rest) >>= _) = _
  rw [readKind_stringText]
  rfl

theorem readEntryMember_of_ne {name : String} {value : Json} (hname : name ≠ Datum.tagName)
    (hvalue : value.Readable depth) (kind : Option Entry.Kind) (hrest : EndsNumber rest) :
    readEntryMember depth kind (stringText name ++ ':' :: (value.compactChars ++ rest)) =
      .ok ((kind, [(.text name, value.toDatum)]), rest) := by
  rw [readEntryMember, readKey_stringText]
  show (if name = Datum.tagName then _ else
    Json.readValue .kept depth (value.compactChars ++ rest) >>= _) = _
  rw [if_neg hname, Json.readValue_compactChars hvalue hrest]
  rfl

/-- Once the kind is known, the members behind are taken as they stand. -/
theorem readEntryMembers_of_readEntryMember {members : List (String × Json)}
    {seen : Option Entry.Kind} {kind : Entry.Kind} {member : List (Datum × Datum)} {cs : List Char}
    (hmember : readEntryMember depth seen cs =
      .ok ((some kind, member), membersTail members ++ rest))
    (hnames : Datum.tagName ∉ members.map (·.1)) (hvalues : ∀ m ∈ members, m.2.Readable depth)
    (hfuel : members.length < fuel) :
    readEntryMembers depth fuel seen cs =
      .ok ((some kind, member ++ membersToData members), rest) := by
  obtain ⟨fuel, rfl⟩ := Nat.exists_eq_add_one.mpr (Nat.zero_lt_of_lt hfuel)
  induction members generalizing seen member cs fuel with
  | nil =>
    show (readEntryMember depth seen cs >>= _) = _
    rw [hmember]
    show Except.ok ((some kind, member), rest) = .ok ((some kind, member ++ []), rest)
    rw [List.append_nil]
  | cons m members ih =>
    obtain ⟨name, value⟩ := m
    rw [List.map_cons, List.mem_cons, not_or] at hnames
    obtain ⟨hvalue, hvalues⟩ := List.forall_mem_cons.mp hvalues
    obtain ⟨fuel, rfl⟩ :=
      Nat.exists_eq_add_one.mpr (Nat.zero_lt_of_lt (Nat.lt_of_succ_lt_succ hfuel))
    rw [Json.membersTail_cons_append] at hmember
    have hnext := readEntryMember_of_ne (Ne.symm hnames.1) hvalue (some kind)
      (Json.endsNumber_membersTail members rest)
    show (readEntryMember depth seen cs >>= _) = _
    rw [hmember]
    show (readEntryMembers depth (fuel + 1) (some kind) _ >>= _) = _
    rw [ih hnext hnames.2 hvalues fuel (Nat.lt_of_succ_lt_succ hfuel)]
    rfl

theorem length_le_length_membersTail (members : List (String × Json)) :
    members.length ≤ (membersTail members).length := by
  induction members with
  | nil => exact Nat.zero_le _
  | cons m members ih =>
    simp only [membersTail, List.length_cons, List.length_append]
    omega

theorem length_le_length_itemsTail (items : List Json) :
    items.length ≤ (itemsTail items).length := by
  induction items with
  | nil => exact Nat.zero_le _
  | cons j items ih =>
    simp only [itemsTail, List.length_cons, List.length_append]
    omega

/-- The text of an entry: its kind is the first member. -/
theorem compactChars_toJson_append (e : Entry) (rest : List Char) :
    e.toJson.compactChars ++ rest =
      '\x7b' :: (stringText Datum.tagName ++ ':' ::
        (stringText e.kind.name ++ (membersTail e.toMembers ++ rest))) := by
  rw [Entry.toJson_eq, Json.compactChars, List.cons_append, List.append_assoc, List.cons_append,
    List.append_assoc]
  rfl

theorem readEntryParts_compactChars {e : Entry} (hdefaults : e.DefaultsReadBack)
    (hdepth : 5 ≤ depth) (rest : List Char) :
    readEntryParts depth (e.toJson.compactChars ++ rest) =
      .ok ((e.kind, .record (membersToData e.toMembers)), rest) := by
  obtain ⟨depth, rfl⟩ : ∃ d, depth = d + 4 + 1 := ⟨depth - 5, by omega⟩
  have hfuel : e.toMembers.length <
      (stringText Datum.tagName ++ ':' ::
        (stringText e.kind.name ++ (membersTail e.toMembers ++ rest))).length + 1 := by
    have hlength := length_le_length_membersTail e.toMembers
    simp only [List.length_append, List.length_cons]
    omega
  have hmembers := readEntryMembers_of_readEntryMember
    (readEntryMember_kind (depth + 4) e.kind (membersTail e.toMembers ++ rest))
    e.tagName_not_mem_toMembers (Entry.readable_toMembers hdefaults) hfuel
  rw [compactChars_toJson_append]
  show (readEntryMembers (depth + 4) _ none _ >>= _) = _
  rw [hmembers]
  rfl

theorem readEntry_compactChars {e : Entry} (hunreserved : e.Unreserved)
    (hdefaults : e.DefaultsReadBack) (hdepth : 5 ≤ depth) (rest : List Char) :
    readEntry depth (e.toJson.compactChars ++ rest) = .ok (e, rest) := by
  rw [readEntry, readEntryParts_compactChars hdefaults hdepth]
  show (ofFault (Datum.readRest (Entry.ofKind e.kind) _) >>= _) = _
  rw [readRest_eq_ok_iff.mpr (Entry.ofKind_toMembers hunreserved)]
  rfl

theorem readEntriesTail_itemsTail {entries : List Entry} (hunreserved : ∀ e ∈ entries, e.Unreserved)
    (hdefaults : ∀ e ∈ entries, e.DefaultsReadBack) (hdepth : 5 ≤ depth)
    (hfuel : entries.length < fuel) (rest : List Char) :
    readEntriesTail fuel depth (itemsTail (entries.map Entry.toJson) ++ rest) =
      .ok (entries, rest) := by
  induction entries generalizing fuel with
  | nil =>
    obtain ⟨fuel, rfl⟩ := Nat.exists_eq_add_one.mpr hfuel
    rfl
  | cons e entries ih =>
    obtain ⟨fuel, rfl⟩ := Nat.exists_eq_add_one.mpr (Nat.zero_lt_of_lt hfuel)
    obtain ⟨he, hunreserved⟩ := List.forall_mem_cons.mp hunreserved
    obtain ⟨hfloats, hdefaults⟩ := List.forall_mem_cons.mp hdefaults
    rw [List.map_cons, Json.itemsTail_cons_append]
    show (readEntry depth (e.toJson.compactChars ++ _) >>= _) = _
    rw [readEntry_compactChars he hfloats hdepth]
    show (readEntriesTail fuel depth _ >>= _) = _
    rw [ih hunreserved hdefaults (Nat.lt_of_succ_lt_succ hfuel)]
    rfl

theorem readEntries_compactChars {entries : List Entry} (hunreserved : ∀ e ∈ entries, e.Unreserved)
    (hdefaults : ∀ e ∈ entries, e.DefaultsReadBack) (hdepth : 6 ≤ depth) (rest : List Char) :
    readEntries depth ((Json.ofList Entry.toJson entries).compactChars ++ rest) =
      .ok (entries, rest) := by
  cases entries with
  | nil => rfl
  | cons e entries =>
    obtain ⟨depth, rfl⟩ : ∃ d, depth = d + 1 := ⟨depth - 1, by omega⟩
    obtain ⟨he, hunreserved⟩ := List.forall_mem_cons.mp hunreserved
    obtain ⟨hfloats, hdefaults⟩ := List.forall_mem_cons.mp hdefaults
    have hentry := readEntry_compactChars he hfloats (Nat.le_of_succ_le_succ hdepth)
      (itemsTail (entries.map Entry.toJson) ++ rest)
    have hfuel : entries.length < (itemsTail (entries.map Entry.toJson) ++ rest).length + 1 := by
      have hlength := length_le_length_itemsTail (entries.map Entry.toJson)
      rw [List.length_map] at hlength
      rw [List.length_append]
      omega
    have htail := readEntriesTail_itemsTail hunreserved hdefaults
      (Nat.le_of_succ_le_succ hdepth) hfuel rest
    rw [Json.ofList, List.map_cons, Json.compactChars, List.cons_append, List.append_assoc]
    rw [compactChars_toJson_append] at hentry ⊢
    show (readEntry depth _ >>= _) = _
    rw [hentry]
    show (readEntriesTail _ depth _ >>= _) = _
    rw [htail]
    rfl

/-- No kind of storage and no cardinality that is not known by its name has the name of a known
one. -/
def Unreserved (g : Graph) : Prop := ∀ e ∈ g.entries, e.Unreserved

/-- The floating-point numbers that the graph has for defaults read back. -/
def DefaultsReadBack (g : Graph) : Prop := ∀ e ∈ g.entries, e.DefaultsReadBack

instance (g : Graph) : Decidable g.Unreserved :=
  inferInstanceAs (Decidable (∀ e ∈ g.entries, e.Unreserved))

instance (g : Graph) : Decidable g.DefaultsReadBack :=
  inferInstanceAs (Decidable (∀ e ∈ g.entries, e.DefaultsReadBack))

/-- The text of a graph has two members. -/
theorem compactChars_toJson (g : Graph) :
    g.toJson.compactChars =
      '\x7b' :: (stringText "version" ++ ':' :: ((Json.ofOption .text g.version).compactChars ++
        ',' :: (stringText "entries" ++ ':' ::
          ((Json.ofList Entry.toJson g.entries).compactChars ++ ['\x7d'])))) := by
  rw [toJson, Json.compactChars, Json.membersTail, Json.membersTail]

theorem readMember_version (version : Option String) (rest : List Char) :
    readMember ⟨none, none⟩
        (stringText "version" ++ ':' :: ((Json.ofOption .text version).compactChars ++ rest)) =
      .ok (⟨some version, none⟩, rest) := by
  rw [readMember, readKey_stringText]
  show (readVersion _ >>= _) = _
  rw [readVersion_compactChars]
  rfl

theorem readMember_entries {entries : List Entry} (hunreserved : ∀ e ∈ entries, e.Unreserved)
    (hdefaults : ∀ e ∈ entries, e.DefaultsReadBack) (version : Option (Option String))
    (rest : List Char) :
    readMember ⟨version, none⟩
        (stringText "entries" ++ ':' ::
          ((Json.ofList Entry.toJson entries).compactChars ++ rest)) =
      .ok (⟨version, some entries⟩, rest) := by
  rw [readMember, readKey_stringText]
  show (readEntries (Json.maxDepth - 1) _ >>= _) = _
  rw [readEntries_compactChars hunreserved hdefaults (by decide)]
  rfl

variable {draft draft' : Draft} {cs : List Char}

theorem readMembers_of_comma (h : readMember draft cs = .ok (draft', ',' :: rest)) :
    readMembers (fuel + 1) draft cs = readMembers fuel draft' rest := by
  rw [readMembers, h]
  rfl

theorem readMembers_of_brace (h : readMember draft cs = .ok (draft', '\x7d' :: rest)) :
    readMembers (fuel + 1) draft cs =
      .ok (⟨draft'.version.getD none, draft'.entries.getD []⟩, rest) := by
  rw [readMembers, h]
  rfl

theorem readGraph_of_members (name : String) (cs : List Char) :
    readGraph ('\x7b' :: (stringText name ++ cs)) =
      readMembers ((Json.stringBody name.toList ++ cs).length + 1 + 1) ⟨none, none⟩
        (stringText name ++ cs) :=
  rfl

theorem readGraph_compactChars {g : Graph} (hunreserved : g.Unreserved)
    (hdefaults : g.DefaultsReadBack) : readGraph g.toJson.compactChars = .ok (g, []) := by
  rw [compactChars_toJson, readGraph_of_members, readMembers_of_comma (readMember_version _ _),
    readMembers_of_brace (readMember_entries hunreserved hdefaults _ _)]
  rfl

end Readers

theorem ofJsonText_compact {g : Graph} (hunreserved : g.Unreserved)
    (hdefaults : g.DefaultsReadBack) : ofJsonText g.toJson.compact = .ok g := by
  rw [ofJsonText, Json.compact, String.toList_ofList, readGraph_compactChars hunreserved hdefaults]
  rfl

section Results

variable {cs : List Char} {entries : List Entry} {g : Graph}

theorem unreserved_of_readEntry {e : Entry} (h : readEntry depth cs = .ok (e, rest)) :
    e.Unreserved := by
  obtain ⟨⟨⟨kind, d⟩, rest'⟩, -, h⟩ := bind_eq_ok h
  obtain ⟨e', hentry, hok⟩ := bind_eq_ok h
  cases hok
  unfold ofFault at hentry
  cases hread : Datum.readRest (Entry.ofKind kind) d with
  | error fault =>
    rw [hread] at hentry
    cases hentry
  | ok e' =>
    rw [hread] at hentry
    cases hentry
    exact Entry.unreserved_of_ofKind (readRest_eq_ok_iff.mp hread)

theorem unreserved_of_readEntriesTail (h : readEntriesTail fuel depth cs = .ok (entries, rest)) :
    ∀ e ∈ entries, e.Unreserved := by
  induction fuel generalizing cs entries with
  | zero => cases h
  | succ fuel ih =>
    rw [readEntriesTail] at h
    split at h
    · cases h
    · cases h
      rintro e ⟨⟩
    · obtain ⟨⟨e, cs'⟩, hentry, h⟩ := bind_eq_ok h
      obtain ⟨⟨es, cs''⟩, htail, hok⟩ := bind_eq_ok h
      cases hok
      exact List.forall_mem_cons.mpr ⟨unreserved_of_readEntry hentry, ih htail⟩
    · cases h

theorem unreserved_of_readEntries (h : readEntries depth cs = .ok (entries, rest)) :
    ∀ e ∈ entries, e.Unreserved := by
  unfold readEntries at h
  split at h
  · split at h
    · cases h
    · cases h
      rintro e ⟨⟩
    · obtain ⟨⟨e, cs'⟩, hentry, h⟩ := bind_eq_ok h
      obtain ⟨⟨es, cs''⟩, htail, hok⟩ := bind_eq_ok h
      cases hok
      exact List.forall_mem_cons.mpr
        ⟨unreserved_of_readEntry hentry, unreserved_of_readEntriesTail htail⟩
  · cases h

/-- The entries that were read so far. -/
def Draft.Unreserved (draft : Draft) : Prop :=
  ∀ entries ∈ draft.entries, ∀ e ∈ entries, e.Unreserved

theorem Draft.Unreserved.readMember {draft draft' : Draft} (hdraft : draft.Unreserved)
    (h : readMember draft cs = .ok (draft', rest)) : draft'.Unreserved := by
  obtain ⟨⟨name, cs'⟩, -, h⟩ := bind_eq_ok h
  change (if name = "version" then _ else if name = "entries" then _ else _) = _ at h
  -- A member that stands twice is an error at once.
  split_ifs at h
  · obtain ⟨cs'', -, h⟩ := bind_eq_ok h
    obtain ⟨⟨version, cs₃⟩, -, hok⟩ := bind_eq_ok h
    cases hok
    exact hdraft
  · obtain ⟨cs'', -, h⟩ := bind_eq_ok h
    obtain ⟨⟨entries, cs₃⟩, hentries, hok⟩ := bind_eq_ok h
    cases hok
    rintro _ ⟨⟩
    exact unreserved_of_readEntries hentries
  · obtain ⟨cs'', -, h⟩ := bind_eq_ok h
    obtain ⟨⟨value, cs₃⟩, -, hok⟩ := bind_eq_ok h
    cases hok
    exact hdraft

theorem unreserved_of_draft {draft : Draft} (hdraft : draft.Unreserved)
    (version : Option String) : Graph.Unreserved ⟨version, draft.entries.getD []⟩ := by
  cases hentries : draft.entries with
  | none => rintro e ⟨⟩
  | some entries => exact hdraft entries hentries

theorem Draft.Unreserved.readMembers {draft : Draft} (hdraft : draft.Unreserved)
    (h : readMembers fuel draft cs = .ok (g, rest)) : g.Unreserved := by
  induction fuel generalizing draft cs with
  | zero => cases h
  | succ fuel ih =>
    -- Each member keeps the invariant of the draft, and the brace hands its entries over.
    obtain ⟨⟨draft', cs'⟩, hmember, h⟩ := bind_eq_ok h
    have hdraft' := hdraft.readMember hmember
    dsimp only at h
    split at h
    · cases h
    · cases h
      exact unreserved_of_draft hdraft' _
    · exact ih hdraft' h
    · cases h

theorem unreserved_of_readListEnd {g' : Graph} (hg : g'.Unreserved)
    (h : readListEnd g' cs = .ok (g, rest)) : g.Unreserved := by
  unfold readListEnd at h
  split at h
  · cases h
  · cases h
    exact hg
  · cases h

theorem unreserved_empty (version : Option String) : Graph.Unreserved ⟨version, []⟩ := by
  rintro e ⟨⟩

theorem unreserved_of_readList (h : readList cs = .ok (g, rest)) : g.Unreserved := by
  unfold readList at h
  split at h
  · cases h
  · cases h
    exact unreserved_empty none
  · obtain ⟨⟨version, cs'⟩, -, h⟩ := bind_eq_ok h
    dsimp only at h
    split at h
    · split at h
      · cases h
      · obtain ⟨⟨entries, cs₂⟩, hentries, h⟩ := bind_eq_ok h
        exact unreserved_of_readListEnd (unreserved_of_readEntries hentries) h
    · exact unreserved_of_readListEnd (unreserved_empty version) h

theorem unreserved_of_readGraph (h : readGraph cs = .ok (g, rest)) : g.Unreserved := by
  unfold readGraph at h
  split at h
  · split at h
    · cases h
      exact unreserved_empty none
    · exact Draft.Unreserved.readMembers (by rintro _ ⟨⟩) h
  · exact unreserved_of_readList h
  · cases h

theorem unreserved_of_ofJsonText {text : String} (h : ofJsonText text = .ok g) :
    g.Unreserved := by
  obtain ⟨⟨g', rest⟩, hread, h⟩ := bind_eq_ok h
  obtain ⟨-, -, hok⟩ := bind_eq_ok h
  cases hok
  exact unreserved_of_readGraph hread

end Results

end Schemata.Graph

namespace Schemata.Snapshot

variable {text : String} {g : Graph}

theorem read_json_eq_ok_iff : read .json text = .ok g ↔ Graph.ofJsonText text = .ok g :=
  mapError_eq_ok_iff

/-- A graph without a kind of storage or a cardinality under the name of another one is read back
from its JSON text. Every graph that is read from a text is of this kind, so that reading it,
writing it and reading it again gives it again. The floating-point numbers are assumed to read
back as they are written. -/
theorem read_json_compact :
    (∀ g : Graph, g.Unreserved → g.DefaultsReadBack → read .json g.toJson.compact = .ok g) ∧
      (∀ (text : String) (g : Graph), read .json text = .ok g → g.Unreserved) ∧
      ∀ (text : String) (g : Graph), read .json text = .ok g → g.DefaultsReadBack →
        read .json g.toJson.compact = read .json text := by
  have hwritten (g : Graph) (hunreserved : g.Unreserved) (hdefaults : g.DefaultsReadBack) :
      read .json g.toJson.compact = .ok g :=
    read_json_eq_ok_iff.mpr (Graph.ofJsonText_compact hunreserved hdefaults)
  have hread (text : String) (g : Graph) (h : read .json text = .ok g) : g.Unreserved :=
    Graph.unreserved_of_ofJsonText (read_json_eq_ok_iff.mp h)
  refine ⟨hwritten, hread, fun text g h hdefaults => ?_⟩
  rw [h]
  exact hwritten g (hread text g h) hdefaults

/-- Weather stations: a default of each kind, a kind of storage and a cardinality of their own,
indexes that are empty and indexes that are not stated, and an export that says nothing. -/
def stations : Graph where
  version := some "1"
  entries := [
    .other,
    .enum ⟨"sky", "sky_kind", ["clear", "overcast"]⟩,
    .table {
      TableDeclaration.ofName "station" with
      columns := [
        ColumnDeclaration.ofName "id" (.other "uuid") "uuid",
        { ColumnDeclaration.ofName "height" .numeric "numeric" with
          hasDefault := true, defaultValue := some (.float ⟨false, 3 * 2 ^ 51, 1022, by decide⟩) },
        { ColumnDeclaration.ofName "floor" .integer "integer" with
          hasDefault := true, defaultValue := some (.int 1) },
        { ColumnDeclaration.ofName "label" .varchar "varchar(40)" with
          hasDefault := true, defaultValue := some (.text "1.5\n"), length := some 40 }],
      indexes := some [] },
    .table (TableDeclaration.ofName "reading"),
    .relations ⟨"readingRelations", "reading",
      [⟨"station", .one, "", "station", some ⟨["station"], ["id"], none, none⟩⟩,
        ⟨"copies", .other "several", "", "reading", none⟩]⟩]

theorem read_json_compact_stations :
    stations.Unreserved ∧ stations.DefaultsReadBack ∧
      read .json stations.toJson.compact = .ok stations := by
  have hunreserved : stations.Unreserved := by decide +kernel
  have hdefaults : stations.DefaultsReadBack := by decide +kernel
  have hread := read_json_compact.1 stations hunreserved hdefaults
  exact ⟨read_json_compact.2.1 _ stations hread, hdefaults,
    (read_json_compact.2.2 _ stations hread hdefaults).trans hread⟩

end Schemata.Snapshot
