import Mathlib.Data.List.Basic
import Schemata.Proofs.Runs
import Schemata.Yaml.Cursor
/-!
# Where a reader gets to

A reader that takes some characters of a text leaves the cursor behind them, at the place that
these characters lead to. What is read next depends on little of that place: on its column, and on
whether it is behind the margin of a line.
-/

namespace Schemata.Yaml

namespace Place

/-- The place behind some characters. -/
def past (p : Place) (cs : List Char) : Place := cs.foldl after p

@[simp] theorem past_nil (p : Place) : p.past [] = p := rfl

@[simp] theorem past_cons (p : Place) (c : Char) (cs : List Char) :
    p.past (c :: cs) = (p.after c).past cs := rfl

@[simp] theorem past_append (p : Place) (cs ds : List Char) :
    p.past (cs ++ ds) = (p.past cs).past ds := List.foldl_append

theorem after_of_ne {c : Char} (h : c ≠ '\n') (p : Place) :
    p.after c = ⟨p.offset + c.utf8Size, p.line, p.column + 1, p.fresh && isBlank c⟩ := if_neg h

theorem line_past {cs : List Char} (h : '\n' ∉ cs) (p : Place) : (p.past cs).line = p.line := by
  induction cs generalizing p with
  | nil => rfl
  | cons c cs ih =>
    rw [List.mem_cons, not_or] at h
    rw [past_cons, ih h.2, after_of_ne (Ne.symm h.1)]

theorem column_past {cs : List Char} (h : '\n' ∉ cs) (p : Place) :
    (p.past cs).column = p.column + cs.length := by
  induction cs generalizing p with
  | nil => rfl
  | cons c cs ih =>
    rw [List.mem_cons, not_or] at h
    rw [past_cons, ih h.2, after_of_ne (Ne.symm h.1), List.length_cons, Nat.add_right_comm,
      Nat.add_assoc]

theorem fresh_past {cs : List Char} (h : '\n' ∉ cs) (p : Place) :
    (p.past cs).fresh = (p.fresh && cs.all isBlank) := by
  induction cs generalizing p with
  | nil => rw [past_nil, List.all_nil, Bool.and_true]
  | cons c cs ih =>
    rw [List.mem_cons, not_or] at h
    rw [past_cons, ih h.2, after_of_ne (Ne.symm h.1), List.all_cons, Bool.and_assoc]

/-- No character has more than four bytes. -/
theorem offset_past_le (p : Place) (cs : List Char) :
    (p.past cs).offset ≤ p.offset + 4 * cs.length := by
  induction cs generalizing p with
  | nil => exact Nat.le_refl _
  | cons c cs ih =>
    have hafter : (p.after c).offset ≤ p.offset + 4 := by
      rw [after]
      split
      · exact Nat.add_le_add_left (by decide) _
      · exact Nat.add_le_add_left c.utf8Size_le_four _
    have htail := ih (p.after c)
    rw [past_cons, List.length_cons]
    omega

end Place

/-- The end of a line and the first `n` columns of the next. -/
def margin (n : Nat) : List Char := '\n' :: List.replicate n ' '

theorem newline_not_mem_spaces (n : Nat) : '\n' ∉ List.replicate n ' ' :=
  fun h => absurd (List.eq_of_mem_replicate h) (by decide)

theorem mem_margin {n : Nat} {c : Char} (h : c ∈ margin n) : c = ' ' ∨ c = '\n' := by
  cases h with
  | head => exact .inr rfl
  | tail _ h => exact .inl (List.eq_of_mem_replicate h)

namespace Place

/-- The place of what stands `n` columns in on a new line. -/
@[simp] theorem column_past_margin (p : Place) (n : Nat) : (p.past (margin n)).column = n := by
  rw [margin, past_cons, column_past (newline_not_mem_spaces n), List.length_replicate]
  exact Nat.zero_add n

@[simp] theorem fresh_past_margin (p : Place) (n : Nat) : (p.past (margin n)).fresh = true := by
  rw [margin, past_cons, fresh_past (newline_not_mem_spaces n), List.all_replicate]
  cases n <;> rfl

@[simp] theorem line_past_margin (p : Place) (n : Nat) :
    (p.past (margin n)).line = p.line + 1 := by
  rw [margin, past_cons, line_past (newline_not_mem_spaces n)]
  rfl

end Place

/-- Whether a text is at its end, or goes on with something other than white space or a comment. -/
def IsSolid (cs : List Char) : Prop := ∀ c ∈ cs.head?, isGap c = false ∧ c ≠ '#'

theorem IsSolid.nil : IsSolid [] := fun _ h => nomatch h

namespace Cursor

/-- A cursor moves over characters that stand next. -/
@[simp] theorem drop_append (cs rest : List Char) (p : Place) :
    drop cs.length ⟨cs ++ rest, p⟩ = ⟨rest, p.past cs⟩ := by
  induction cs generalizing p with
  | nil => rfl
  | cons c cs ih => exact ih (p.after c)

@[simp] theorem drop_one (c : Char) (cs : List Char) (p : Place) :
    drop 1 ⟨c :: cs, p⟩ = ⟨cs, p.after c⟩ := rfl

theorem span_append {f : Char → Bool} {cs rest : List Char} (hcs : ∀ c ∈ cs, f c)
    (hrest : ∀ c ∈ rest.head?, f c = false) (p : Place) :
    span f ⟨cs ++ rest, p⟩ = (cs, ⟨rest, p.past cs⟩) := by
  rw [span, takeWhile_append_of_head hcs hrest, drop_append]

/-- White space is passed up to what says something. -/
theorem skipFrom_append (indent : Int) {gap rest : List Char}
    (hgap : ∀ c ∈ gap, c = ' ' ∨ c = '\n') (hrest : IsSolid rest) (p : Place) :
    skipFrom indent false false p (gap ++ rest) = .ok ⟨rest, p.past gap⟩ := by
  induction gap generalizing p with
  | nil =>
    cases rest with
    | nil => rfl
    | cons c rest =>
      obtain ⟨hc, hcomment⟩ := hrest c rfl
      simp only [isGap, Bool.or_eq_false_iff, decide_eq_false_iff_not] at hc
      rw [List.nil_append, skipFrom, if_neg hc.2, if_neg Bool.false_ne_true,
        if_neg (by rw [hc.1]; exact Bool.false_ne_true), if_neg hcomment,
        if_neg Bool.false_ne_true, Place.past_nil]
  | cons c gap ih =>
    have htail := fun p => ih (fun d hd => hgap d (List.mem_cons_of_mem c hd)) p
    rw [List.cons_append, Place.past_cons, ← htail]
    obtain rfl | rfl := hgap c List.mem_cons_self
    · rfl
    · rfl

theorem skip_append (indent : Int) {gap rest : List Char}
    (hgap : ∀ c ∈ gap, c = ' ' ∨ c = '\n') (hrest : IsSolid rest) (p : Place) :
    skip indent ⟨gap ++ rest, p⟩ = .ok ⟨rest, p.past gap⟩ := skipFrom_append indent hgap hrest p

end Cursor
end Schemata.Yaml
