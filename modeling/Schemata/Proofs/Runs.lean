import Mathlib.Data.List.TakeDrop
/-!
# Runs of elements of one kind

A reader that takes elements as long as they are of one kind stops in front of the first that is
not, and nothing that comes later matters to it. Runs that are joined, or that a list falls into at
some separator, keep their elements.
-/

namespace Schemata

variable {α : Type} {f : α → Bool} {as rest : List α}

theorem takeWhile_append_of_head (has : ∀ a ∈ as, f a = true)
    (hrest : ∀ a ∈ rest.head?, f a = false) : (as ++ rest).takeWhile f = as := by
  rw [List.takeWhile_append_of_pos has]
  cases rest with
  | nil => rw [List.takeWhile_nil, List.append_nil]
  | cons a rest =>
    rw [List.takeWhile_cons_of_neg (Bool.eq_false_iff.mp (hrest a rfl)), List.append_nil]

theorem dropWhile_append_of_head (has : ∀ a ∈ as, f a = true)
    (hrest : ∀ a ∈ rest.head?, f a = false) : (as ++ rest).dropWhile f = rest := by
  rw [List.dropWhile_append_of_pos has]
  cases rest with
  | nil => rfl
  | cons a rest => rw [List.dropWhile_cons_of_neg (Bool.eq_false_iff.mp (hrest a rfl))]

theorem span_append_of_head (has : ∀ a ∈ as, f a = true)
    (hrest : ∀ a ∈ rest.head?, f a = false) : (as ++ rest).span f = (as, rest) := by
  rw [List.span_eq_takeWhile_dropWhile, takeWhile_append_of_head has hrest,
    dropWhile_append_of_head has hrest]

theorem mem_intercalate (separator : List α) {run : List α} {runs : List (List α)} {a : α}
    (hrun : run ∈ runs) (ha : a ∈ run) : a ∈ separator.intercalate runs := by
  induction runs with
  | nil => cases hrun
  | cons first runs ih =>
    cases runs with
    | nil =>
      rw [List.mem_singleton] at hrun
      rwa [List.intercalate_singleton, ← hrun]
    | cons second runs =>
      rw [List.intercalate_cons_cons, List.mem_append, List.mem_append]
      cases hrun with
      | head => exact .inl (.inl ha)
      | tail _ hrun => exact .inr (ih hrun)

theorem mem_of_mem_splitOn [BEq α] [LawfulBEq α] {separator a : α} {run : List α}
    (hrun : run ∈ as.splitOn separator) (ha : a ∈ run) : a ∈ as := by
  have hjoined : [separator].intercalate (as.splitOn separator) = as :=
    List.intercalate_splitOn separator
  rw [← hjoined]
  exact mem_intercalate [separator] hrun ha

end Schemata
