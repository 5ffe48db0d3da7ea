import Schemata.Graph.Codec
import Schemata.Proofs.FirstFault
/-!
# Records that are written and read

A record that is written with all its fields, in any order and under names that differ, is read
back field by field. And whatever a record is read from, each of its fields was given by the
reader of that field, or it is the value of the field when it is not there.
-/

namespace Schemata

open Json (membersToData)

/-- The value of a field is what its reader gave, or the value of the field when it is not there. -/
def Field.Given {α : Type} (field : Field α) (a : α) : Prop :=
  (∃ d, field.read d = .ok a) ∨ field.presence = .inMap a ∨ field.presence = .defaulted a

namespace Fields

/-- The members hold, in the order of declaration, what the fields read as the values. -/
inductive Read : {αs : List Type} → Fields αs → List (String × Json) → Tuple αs → Prop where
  | nil : Read .nil [] ()
  | cons {α : Type} {αs : List Type} {field : Field α} {fields : Fields αs} {value : Json} {a : α}
      {members : List (String × Json)} {as : Tuple αs} (head : field.read value.toDatum = .ok a)
      (tail : Read fields members as) :
      Read (.cons field fields) ((field.name, value) :: members) (a, as)

/-- Every slot filled. -/
def filled : {αs : List Type} → Tuple αs → Slots αs
  | [], () => ()
  | _ :: _, (a, as) => (some a, filled as)

variable {α : Type} {αs : List Type} {field : Field α} {fields : Fields αs}
  {members : List (String × Json)} {as : Tuple αs}

theorem complete_filled (fields : Fields αs) (as : Tuple αs) :
    fields.complete (filled as) = .ok as := by
  induction fields with
  | nil => rfl
  | cons field rest ih =>
    obtain ⟨a, as⟩ := as
    rw [filled, complete, ih]
    rfl

theorem Read.names_eq (h : Read fields members as) : members.map (·.1) = fields.names := by
  induction h with
  | nil => rfl
  | cons _ _ ih => rw [List.map_cons, ih, names]

theorem store_of_ne {name : String} (hname : name ≠ field.name) (d : Datum) (slot : Option α)
    (slots : Slots αs) :
    (Fields.cons field fields).store name d (slot, slots) =
      (fields.store name d slots).map fun slots => (slot, slots) :=
  if_neg hname

theorem store_name {d : Datum} {a : α} (hread : field.read d = .ok a) (slots : Slots αs) :
    (Fields.cons field fields).store field.name d (none, slots) = .ok (some a, slots) := by
  refine (if_pos rfl).trans ?_
  rw [hread]
  rfl

/-- Members of other names leave the slot of a field as it is. -/
theorem storeAll_of_not_mem (hname : field.name ∉ members.map (·.1)) (slot : Option α)
    (slots : Slots αs) :
    (Fields.cons field fields).storeAll (membersToData members) (slot, slots) =
      (fields.storeAll (membersToData members) slots).map fun slots => (slot, slots) := by
  induction members generalizing slots with
  | nil => rfl
  | cons m members ih =>
    obtain ⟨name, value⟩ := m
    rw [List.map_cons, List.mem_cons, not_or] at hname
    show ((Fields.cons field fields).store name value.toDatum (slot, slots) >>= _) =
      ((fields.store name value.toDatum slots) >>= _).map _
    rw [store_of_ne (Ne.symm hname.1)]
    cases fields.store name value.toDatum slots with
    | error e => rfl
    | ok slots => exact ih hname.2 slots

theorem Read.storeAll_eq (h : Read fields members as) (hnames : fields.names.Nodup) :
    fields.storeAll (membersToData members) fields.noSlots = .ok (filled as) := by
  induction h with
  | nil => rfl
  | @cons α αs field fields value a members as head tail ih =>
    -- The first member fills the first slot, and the others have other names.
    rw [names, List.nodup_cons, ← tail.names_eq] at hnames
    show ((Fields.cons field fields).store field.name value.toDatum (none, fields.noSlots) >>= _) =
      _
    rw [store_name head]
    show (Fields.cons field fields).storeAll (membersToData members) (some a, fields.noSlots) = _
    rw [storeAll_of_not_mem hnames.1, ih (tail.names_eq ▸ hnames.2)]
    rfl

/-- A record that is written with all its fields is read back. -/
theorem Read.read_eq (h : Read fields members as) (hnames : fields.names.Nodup) (type : String) :
    fields.read type (Json.object members).toDatum = .ok as := by
  rw [Json.toDatum, read, h.storeAll_eq hnames]
  exact complete_filled fields as

/-- The same for what is made of the values. -/
theorem Read.map_read_eq {β : Type} {make : Tuple αs → β} {b : β} {type : String}
    (h : Read fields members as) (hnames : fields.names.Nodup) (hmake : make as = b) :
    (fields.read type (Json.object members).toDatum).map make = .ok b := by
  rw [h.read_eq hnames, ← hmake]
  rfl

/-- Each value was given by the reader of its field, or it is the value of the field when it is not
there. -/
inductive Given : {αs : List Type} → Fields αs → Tuple αs → Prop where
  | nil : Given .nil ()
  | cons {α : Type} {αs : List Type} {field : Field α} {fields : Fields αs} {a : α}
      {as : Tuple αs} (head : field.Given a) (tail : Given fields as) :
      Given (.cons field fields) (a, as)

/-- What the slots of fields may hold. -/
inductive Slotted : {αs : List Type} → Fields αs → Slots αs → Prop where
  | nil : Slotted .nil ()
  | cons {α : Type} {αs : List Type} {field : Field α} {fields : Fields αs} {slot : Option α}
      {slots : Slots αs} (head : ∀ a ∈ slot, ∃ d, field.read d = .ok a)
      (tail : Slotted fields slots) : Slotted (.cons field fields) (slot, slots)

theorem slotted_noSlots (fields : Fields αs) : Slotted fields fields.noSlots := by
  induction fields with
  | nil => exact .nil
  | cons field rest ih => exact .cons (by rintro a ⟨⟩) ih

theorem Slotted.store {slots slots' : Slots αs} {name : String} {d : Datum}
    (h : Slotted fields slots) (hstore : fields.store name d slots = .ok slots') :
    Slotted fields slots' := by
  induction h with
  | nil =>
    cases hstore
    exact .nil
  | @cons α αs field fields slot slots head tail ih =>
    by_cases hname : name = field.name
    · subst hname
      cases slot with
      | some b =>
        -- A slot is filled once; a second member of its name is an error.
        have hfull : (Fields.cons field fields).store field.name d (some b, slots) =
            .error (.duplicateField field.name) := if_pos rfl
        rw [hfull] at hstore
        cases hstore
      | none =>
        have hfree : (Fields.cons field fields).store field.name d (none, slots) =
            (field.read d).map fun a => (some a, slots) := if_pos rfl
        rw [hfree] at hstore
        obtain ⟨a, hread, rfl⟩ := map_eq_ok hstore
        refine .cons ?_ tail
        rintro b ⟨⟩
        exact ⟨d, hread⟩
    · rw [store_of_ne hname] at hstore
      obtain ⟨slots'', hrest, rfl⟩ := map_eq_ok hstore
      exact .cons head (ih hrest)

theorem Slotted.storeAll {entries : List (Datum × Datum)} {slots slots' : Slots αs}
    (h : Slotted fields slots) (hstore : fields.storeAll entries slots = .ok slots') :
    Slotted fields slots' := by
  induction entries generalizing slots with
  | nil =>
    cases hstore
    exact h
  | cons entry entries ih =>
    obtain ⟨key, d⟩ := entry
    obtain ⟨name, -, hstore⟩ := bind_eq_ok hstore
    cases name with
    | none => exact ih h hstore
    | some name =>
      obtain ⟨slots'', hfirst, hrest⟩ := bind_eq_ok hstore
      exact ih (h.store hfirst) hrest

theorem complete_cons_eq_ok {slot : Option α} {slots : Slots αs} {a : α}
    (h : (Fields.cons field fields).complete (slot, slots) = .ok (a, as)) :
    (slot = some a ∨ field.presence = .inMap a ∨ field.presence = .defaulted a) ∧
      fields.complete slots = .ok as := by
  simp only [complete] at h
  split at h
  all_goals
    obtain ⟨b, hfirst, hrest⟩ := bind_eq_ok h
    obtain ⟨bs, htail, hok⟩ := bind_eq_ok hrest
    cases hok
    cases hfirst
  · exact ⟨.inl rfl, htail⟩
  · exact ⟨.inr (.inl ‹_›), htail⟩
  · exact ⟨.inr (.inr ‹_›), htail⟩

theorem Slotted.complete {slots : Slots αs} (h : Slotted fields slots)
    (hcomplete : fields.complete slots = .ok as) : Given fields as := by
  induction h with
  | nil => exact .nil
  | cons head tail ih =>
    obtain ⟨a, as⟩ := as
    obtain ⟨hslot | habsent, htail⟩ := complete_cons_eq_ok hcomplete
    · exact .cons (.inl (head a hslot)) (ih htail)
    · exact .cons (.inr habsent) (ih htail)

theorem ofItems_nil_eq_ok {type : String} {total taken : Nat} {a : α}
    (h : (Fields.cons field fields).ofItems type total taken [] = .ok (a, as)) :
    field.presence = .defaulted a ∧ fields.ofItems type total (taken + 1) [] = .ok as := by
  simp only [ofItems] at h
  split at h
  all_goals
    obtain ⟨b, hfirst, hrest⟩ := bind_eq_ok h
    obtain ⟨bs, htail, hok⟩ := bind_eq_ok hrest
    cases hok
    cases hfirst
  exact ⟨‹_›, htail⟩

theorem given_of_ofItems {type : String} {total taken : Nat} {items : List Datum}
    (h : fields.ofItems type total taken items = .ok as) : Given fields as := by
  induction fields generalizing taken items with
  | nil => exact .nil
  | cons field fields ih =>
    obtain ⟨a, as⟩ := as
    cases items with
    | nil =>
      obtain ⟨habsent, htail⟩ := ofItems_nil_eq_ok h
      exact .cons (.inr (.inr habsent)) (ih htail)
    | cons d ds =>
      obtain ⟨b, hfirst, hrest⟩ := bind_eq_ok h
      obtain ⟨bs, htail, hok⟩ := bind_eq_ok hrest
      cases hok
      exact .cons (.inl ⟨d, hfirst⟩) (ih htail)

/-- Whatever a record is read from, its values were given by the readers of the fields. -/
theorem given_of_read {type : String} {d : Datum} (h : fields.read type d = .ok as) :
    Given fields as := by
  unfold read at h
  split at h
  · obtain ⟨slots, hslots, hcomplete⟩ := bind_eq_ok h
    exact ((slotted_noSlots fields).storeAll hslots).complete hcomplete
  · exact given_of_ofItems h
  · cases h

theorem Given.head {a : α} (h : Given (.cons field fields) (a, as)) : field.Given a := by
  cases h with
  | cons head _ => exact head

theorem Given.tail {a : α} (h : Given (.cons field fields) (a, as)) : Given fields as := by
  cases h with
  | cons _ tail => exact tail

end Fields

section Values

variable {α κ : Type} {encode : α → Json} {read : Datum.Reader α} {members : List (String × Json)}

theorem readList_ofList {items : List α} (h : ∀ a ∈ items, read (encode a).toDatum = .ok a) :
    Datum.readList read (Json.ofList encode items).toDatum = .ok items := by
  show Datum.readEach read (Json.itemsToData (items.map encode)) = _
  induction items with
  | nil => rfl
  | cons a items ih =>
    obtain ⟨ha, htail⟩ := List.forall_mem_cons.mp h
    show (read (encode a).toDatum >>= _) = _
    rw [ha]
    show (Datum.readEach read (Json.itemsToData (items.map encode)) >>= _) = _
    rw [ih htail]
    rfl

@[simp]
theorem readList_ofTexts (texts : List String) :
    Datum.readList Datum.readText (Json.ofTexts texts).toDatum = .ok texts :=
  readList_ofList fun _ _ => rfl

/-- A value that is not written as `null` is not taken for none. -/
theorem readOption_ofOption {o : Option α} (hnull : ∀ a ∈ o, (encode a).toDatum ≠ .null)
    (h : ∀ a ∈ o, read (encode a).toDatum = .ok a) :
    Datum.readOption read (Json.ofOption encode o).toDatum = .ok o := by
  cases o with
  | none => rfl
  | some a =>
    show Datum.readOption read (encode a).toDatum = _
    unfold Datum.readOption
    split
    · next heq => exact absurd heq (hnull a rfl)
    · rw [h a rfl]
      rfl

/-- Each item of a list that was read was given by the reader of items. -/
theorem exists_read_of_mem_readList {d : Datum} {items : List α}
    (h : Datum.readList read d = .ok items) : ∀ a ∈ items, ∃ d, read d = .ok a := by
  unfold Datum.readList at h
  split at h
  · next data =>
    induction data generalizing items with
    | nil =>
      cases h
      rintro a ⟨⟩
    | cons d data ih =>
      obtain ⟨a, ha, h⟩ := bind_eq_ok h
      obtain ⟨as, htail, hok⟩ := bind_eq_ok h
      cases hok
      exact List.forall_mem_cons.mpr ⟨⟨d, ha⟩, ih htail⟩
  · cases h

theorem exists_read_of_given_required {name : String} {a : α}
    (h : (Field.required name read).Given a) : ∃ d, read d = .ok a := by
  obtain hread | ⟨⟨⟩⟩ | ⟨⟨⟩⟩ := h
  exact hread

theorem exists_read_of_mem_given_list {name : String} {items : List α}
    (h : (Field.defaulted name (Datum.readList read) []).Given items) :
    ∀ a ∈ items, ∃ d, read d = .ok a := by
  obtain ⟨d, hread⟩ | ⟨⟨⟩⟩ | ⟨⟨⟩⟩ := h
  · exact exists_read_of_mem_readList hread
  · rintro a ⟨⟩

theorem splitTag_membersToData {tag : String → Except Fault κ}
    (hname : Datum.tagName ∉ members.map (·.1)) (seen : Option κ) :
    Datum.splitTag tag seen (membersToData members) = .ok (seen, membersToData members) := by
  induction members with
  | nil => rfl
  | cons m members ih =>
    obtain ⟨name, value⟩ := m
    rw [List.map_cons, List.mem_cons, not_or] at hname
    show (if name = Datum.tagName then _ else
      (Datum.splitTag tag seen (membersToData members)).map _) = _
    rw [if_neg (Ne.symm hname.1), ih hname.2]
    rfl

/-- A tag in front of members that have another name is taken out. -/
theorem untag_object {tag : String → Except Fault κ} {name : String} {kind : κ}
    (htag : tag name = .ok kind) (hname : Datum.tagName ∉ members.map (·.1)) (type : String) :
    (Json.object ((Datum.tagName, .text name) :: members)).toDatum.untag type tag =
      .ok (kind, (Json.object members).toDatum) := by
  show (Datum.splitTag tag none
    ((.text Datum.tagName, .text name) :: membersToData members) >>= _) = _
  rw [Datum.splitTag, if_pos rfl]
  show ((tag name >>= fun kind => Datum.splitTag tag (some kind) (membersToData members)) >>= _) = _
  rw [htag]
  show (Datum.splitTag tag (some kind) (membersToData members) >>= _) = _
  rw [splitTag_membersToData hname]
  rfl

theorem readRest_eq_ok_iff {d : Datum} {a : α} :
    Datum.readRest read d = .ok a ↔ read d = .ok a :=
  mapError_eq_ok_iff

end Values

end Schemata
