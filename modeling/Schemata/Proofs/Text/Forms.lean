import Mathlib.Data.List.Infix
import Schemata.Proofs.Text.Lines
/-!
# Lines of a form

Many lines of a document are written around a name, with something fixed before it and something
fixed behind it. From such a line the name can be read back, and a line of one form is not taken
for one of another if the forms stand `Apart`.
-/

namespace Schemata.Text

/-- What lines have before a name, and what behind it. -/
structure LineForm where
  head : String
  tail : String
deriving DecidableEq

namespace LineForm

/-- The line of this form around a name. -/
def line (f : LineForm) (name : String) : String := f.head ++ name ++ f.tail

/-- The name that a line is written around, if it has this form. -/
def name? (f : LineForm) (line : String) : Option String := do
  let rest ← line.toList.dropPrefix? f.head.toList
  let name ← rest.dropSuffix? f.tail.toList
  return .ofList name

/-- The names in those of some lines that have this form. -/
def names (f : LineForm) (lines : List String) : List String := lines.filterMap f.name?

/-- No line has both forms: what is before the names tells them apart, or what is behind them. -/
def Apart (f g : LineForm) : Prop :=
  ¬f.head.toList <+: g.head.toList ∧ ¬g.head.toList <+: f.head.toList ∨
    ¬f.tail.toList <:+ g.tail.toList ∧ ¬g.tail.toList <:+ f.tail.toList

instance (f g : LineForm) : Decidable (f.Apart g) := inferInstanceAs (Decidable (_ ∨ _))

variable {f g : LineForm}

theorem toList_line (f : LineForm) (name : String) :
    (f.line name).toList = f.head.toList ++ name.toList ++ f.tail.toList := by
  rw [line, String.toList_append, String.toList_append]

theorem name?_eq_some_iff {line name : String} : f.name? line = some name ↔ line = f.line name := by
  simp only [name?, Option.bind_eq_bind, Option.bind_eq_some_iff, List.dropPrefix?_eq_some_iff,
    List.dropSuffix?_eq_some_iff, beq_iff_eq, exists_eq_right]
  constructor
  · rintro ⟨rest, hline, chars, hrest, hname⟩
    cases hname
    apply String.toList_injective
    rw [toList_line, String.toList_ofList, hline, hrest, List.append_assoc]
  · rintro rfl
    exact ⟨name.toList ++ f.tail.toList, by rw [toList_line, List.append_assoc], name.toList, rfl,
      congrArg some String.ofList_toList⟩

@[simp]
theorem name?_line (f : LineForm) (name : String) : f.name? (f.line name) = some name :=
  name?_eq_some_iff.mpr rfl

theorem name?_line_of_apart (h : f.Apart g) (name : String) : f.name? (g.line name) = none := by
  cases hname : f.name? (g.line name) with
  | none => rfl
  | some other =>
    have hline := congrArg String.toList (name?_eq_some_iff.mp hname)
    rw [toList_line, toList_line] at hline
    obtain ⟨hf, hg⟩ | ⟨hf, hg⟩ := h
    · -- Of two beginnings of one line the shorter begins the longer.
      rw [List.append_assoc, List.append_assoc] at hline
      have hheads := List.prefix_or_prefix_of_prefix (List.prefix_append g.head.toList _)
        (hline ▸ List.prefix_append f.head.toList _)
      exact absurd hheads (not_or.mpr ⟨hg, hf⟩)
    · have htails := List.suffix_or_suffix_of_suffix (List.suffix_append _ g.tail.toList)
        (hline ▸ List.suffix_append _ f.tail.toList)
      exact absurd htails (not_or.mpr ⟨hg, hf⟩)

theorem breaks_line (f : LineForm) (name : String) :
    breaks (f.line name) = breaks f.head + breaks name + breaks f.tail := by
  rw [line, breaks_append, breaks_append]

theorem line_ne_empty (h : f.head ≠ "") (name : String) : f.line name ≠ "" := by
  intro hempty
  have hchars := congrArg String.toList hempty
  rw [toList_line, List.append_assoc] at hchars
  exact h (String.toList_eq_nil_iff.mp (List.append_eq_nil_iff.mp hchars).1)

section Names

@[simp]
theorem names_append (f : LineForm) (lines others : List String) :
    f.names (lines ++ others) = f.names lines ++ f.names others :=
  List.filterMap_append

theorem names_flatMap {α : Type} (f : LineForm) (as : List α) (lines : α → List String) :
    f.names (as.flatMap lines) = as.flatMap fun a => f.names (lines a) :=
  List.filterMap_flatMap

theorem names_cons_of_none {line : String} (h : f.name? line = none) (lines : List String) :
    f.names (line :: lines) = f.names lines :=
  List.filterMap_cons_none h

theorem names_cons_line (f : LineForm) (name : String) (lines : List String) :
    f.names (f.line name :: lines) = name :: f.names lines :=
  List.filterMap_cons_some (name?_line f name)

/-- Lines of several forms around their names. -/
def written (parts : List (LineForm × String)) : List String :=
  parts.map fun (f, name) => f.line name

@[simp]
theorem written_cons (f : LineForm) (name : String) (parts : List (LineForm × String)) :
    written ((f, name) :: parts) = f.line name :: written parts :=
  List.map_cons

@[simp]
theorem written_append (parts others : List (LineForm × String)) :
    written (parts ++ others) = written parts ++ written others :=
  List.map_append

theorem written_flatMap {α : Type} (as : List α) (parts : α → List (LineForm × String)) :
    written (as.flatMap parts) = as.flatMap fun a => written (parts a) :=
  List.map_flatMap

/-- A break in a written line is one of the text that it is written around. -/
theorem breaks_written {parts : List (LineForm × String)}
    (h : ∀ part ∈ parts, breaks part.1.head = 0 ∧ breaks part.2 = 0 ∧ breaks part.1.tail = 0) :
    ∀ line ∈ written parts, breaks line = 0 := by
  refine List.forall_mem_map.mpr fun part hpart => ?_
  obtain ⟨hhead, hname, htail⟩ := h part hpart
  show breaks (part.1.line part.2) = 0
  rw [breaks_line, hhead, hname, htail]

theorem empty_not_mem_written {parts : List (LineForm × String)}
    (h : ∀ part ∈ parts, part.1.head ≠ "") : "" ∉ written parts := by
  intro hempty
  obtain ⟨part, hpart, hline⟩ := List.mem_map.mp hempty
  exact line_ne_empty (h part hpart) part.2 hline

/-- The names that lines of one form are written around. -/
def pick (f : LineForm) (parts : List (LineForm × String)) : List String :=
  parts.filterMap fun (g, name) => if g = f then some name else none

/-- Where the forms of lines are told apart, those of one form give their names. -/
theorem names_written {parts : List (LineForm × String)}
    (h : ∀ part ∈ parts, part.1 = f ∨ f.Apart part.1) : f.names (written parts) = f.pick parts := by
  rw [names, written, List.filterMap_map]
  refine List.filterMap_congr fun part hpart => ?_
  show f.name? (part.1.line part.2) = if part.1 = f then some part.2 else none
  obtain heq | hapart := h part hpart
  · rw [if_pos heq, heq, name?_line]
  · -- No line has two forms that stand apart, so the form is another one.
    have hne : part.1 ≠ f := by
      intro heq
      have hnone := name?_line_of_apart hapart part.2
      rw [heq, name?_line] at hnone
      cases hnone
    rw [if_neg hne, name?_line_of_apart hapart]

theorem pick_cons_of_ne {g : LineForm} (h : g ≠ f) (name : String)
    (parts : List (LineForm × String)) : f.pick ((g, name) :: parts) = f.pick parts :=
  List.filterMap_cons_none (if_neg h)

theorem pick_append (f : LineForm) (parts others : List (LineForm × String)) :
    f.pick (parts ++ others) = f.pick parts ++ f.pick others :=
  List.filterMap_append

theorem pick_flatMap {α : Type} (f : LineForm) (as : List α)
    (parts : α → List (LineForm × String)) :
    f.pick (as.flatMap parts) = as.flatMap fun a => f.pick (parts a) :=
  List.filterMap_flatMap

end Names

end LineForm

/-- The runs of lines between empty ones. -/
def paragraphs (text : String) : List (List String) := (lines text).splitOn ""

/-- Blocks with an empty line in front of each are paragraphs. -/
theorem splitOn_flatMap_cons {blocks : List (List String)} (h : ∀ block ∈ blocks, "" ∉ block)
    (first : List String) :
    (first ++ blocks.flatMap ("" :: ·)).splitOn "" = first.splitOn "" ++ blocks := by
  -- On the blocks, with any lines in front: each empty line ends what stands before it.
  induction blocks generalizing first with
  | nil => rw [List.flatMap_nil, List.append_nil, List.append_nil]
  | cons block blocks ih =>
    obtain ⟨hblock, hblocks⟩ := List.forall_mem_cons.mp h
    rw [List.flatMap_cons, List.cons_append, List.splitOn_append_cons_self, ih hblocks,
      List.splitOn_eq_singleton hblock, List.singleton_append]

/-- Among such blocks each one without empty lines is a paragraph, whatever the others are. -/
theorem mem_splitOn_flatMap_cons {blocks : List (List String)} {block : List String}
    (hblock : block ∈ blocks) (hempty : "" ∉ block) (first : List String) :
    block ∈ (first ++ blocks.flatMap ("" :: ·)).splitOn "" := by
  induction blocks generalizing first with
  | nil => cases hblock
  | cons other blocks ih =>
    rw [List.flatMap_cons, List.cons_append, List.splitOn_append_cons_self, List.mem_append]
    right
    cases hblock with
    | tail _ hblock => exact ih hblock other
    | head =>
      -- The block ends at the next empty line, or with the text.
      cases blocks with
      | nil => simp [List.splitOn_eq_singleton hempty]
      | cons next blocks =>
        rw [List.flatMap_cons, List.cons_append, List.splitOn_append_cons_self,
          List.splitOn_eq_singleton hempty]
        exact List.mem_cons_self

end Schemata.Text
