import Mathlib.Algebra.BigOperators.Group.List.Basic
import Mathlib.Algebra.GroupWithZero.Nat
import Schemata.Graph.Basic
import Schemata.Text.Quoted
/-!
# The lines of a text

Line breaks divide a text into its lines, one more than there are breaks. What is put together
has the breaks of its parts: a literal has those of the text that it quotes, and no number has
any.
-/

namespace Schemata.Text

/-- How many line breaks a text has; a carriage return does not count as one. -/
def breaks (text : String) : Nat := text.toList.count '\n'

/-- The lines that the line breaks of a text leave of it. -/
def lines (text : String) : List String := (text.toList.splitOn '\n').map String.ofList

theorem breaks_eq_zero_iff {text : String} : breaks text = 0 ↔ '\n' ∉ text.toList :=
  List.count_eq_zero

@[simp]
theorem breaks_append (s t : String) : breaks (s ++ t) = breaks s + breaks t := by
  rw [breaks, String.toList_append, List.count_append, breaks, breaks]

theorem breaks_ofList (cs : List Char) : breaks (.ofList cs) = cs.count '\n' := by
  rw [breaks, String.toList_ofList]

/-- A separator without breaks adds none. -/
theorem breaks_intercalate {separator : String} (h : breaks separator = 0) (texts : List String) :
    breaks (separator.intercalate texts) = (texts.map breaks).sum := by
  induction texts with
  | nil => rfl
  | cons t texts ih =>
    rw [List.map_cons, List.sum_cons]
    by_cases hnil : texts = []
    · subst hnil
      rw [String.intercalate_singleton]
      rfl
    · rw [String.intercalate_cons_of_ne_nil hnil, breaks_append, breaks_append, h, ih, Nat.add_zero]

theorem sum_breaks_eq_zero {texts : List String} (h : ∀ t ∈ texts, breaks t = 0) :
    (texts.map breaks).sum = 0 := by
  rw [List.sum_eq_zero_iff_forall_eq_nat]
  exact List.forall_mem_map.mpr h

theorem count_escape (cs : List Char) : (escape cs).count '\n' = cs.count '\n' := by
  induction cs with
  | nil => rfl
  | cons c cs ih =>
    rw [escape]
    split <;> simp [List.count_cons, ih]

/-- Quoting leaves line breaks as they are. -/
theorem breaks_quote (text : String) : breaks (quote text) = breaks text := by
  rw [quote, breaks_ofList, breaks]
  simp [List.count_append, count_escape]

theorem breaks_quotedList (texts : List String) :
    breaks (quotedList texts) = (texts.map breaks).sum := by
  rw [quotedList, breaks_intercalate rfl, List.map_map]
  exact congrArg List.sum (List.map_congr_left fun t _ => breaks_quote t)

section Lines

theorem lines_eq_singleton {text : String} (h : breaks text = 0) : lines text = [text] := by
  rw [lines, List.splitOn_eq_singleton (breaks_eq_zero_iff.mp h), List.map_singleton,
    String.ofList_toList]

theorem lines_append_break (s t : String) : lines (s ++ "\n" ++ t) = lines s ++ lines t := by
  have hchars : (s ++ "\n" ++ t).toList = s.toList ++ '\n' :: t.toList := by
    rw [String.toList_append, String.toList_append, List.append_assoc]
    rfl
  rw [lines, hchars, List.splitOn_append_cons_self, List.map_append, lines, lines]

theorem length_splitOn (cs : List Char) : (cs.splitOn '\n').length = cs.count '\n' + 1 := by
  induction cs with
  | nil => rfl
  | cons c cs ih =>
    rw [List.splitOn_cons_eq_if_modifyHead, List.count_cons]
    split
    · rw [List.length_cons, ih]
    · rw [List.length_modifyHead, ih, Nat.add_zero]

theorem length_lines (text : String) : (lines text).length = breaks text + 1 := by
  rw [lines, List.length_map, length_splitOn, breaks]

/-- Each of these texts with a line break behind it. -/
def ended (texts : List String) : String := String.join (texts.map fun t => t ++ "\n")

theorem ended_cons (t : String) (texts : List String) :
    ended (t :: texts) = t ++ "\n" ++ ended texts := by
  rw [ended, List.map_cons, String.join_cons, ended]

theorem ended_append (texts others : List String) :
    ended (texts ++ others) = ended texts ++ ended others := by
  induction texts with
  | nil => exact String.empty_append.symm
  | cons t texts ih =>
    rw [List.cons_append, ended_cons, ih, ended_cons]
    exact String.append_assoc.symm

theorem lines_ended_append (texts : List String) (rest : String) :
    lines (ended texts ++ rest) = texts.flatMap lines ++ lines rest := by
  induction texts with
  | nil =>
    show lines ("" ++ rest) = lines rest
    rw [String.empty_append]
  | cons t texts ih =>
    rw [ended_cons, String.append_assoc, lines_append_break, ih, List.flatMap_cons,
      List.append_assoc]

/-- Line breaks between parts are empty lines between them. -/
theorem intercalate_ended (parts : List (List String)) :
    "\n".intercalate (parts.map ended) = ended ([""].intercalate parts) := by
  induction parts with
  | nil => rfl
  | cons part parts ih =>
    cases parts with
    | nil => rw [List.map_singleton, String.intercalate_singleton, List.intercalate_singleton]
    | cons next parts =>
      -- The break behind the part and the one that separates it leave an empty line.
      rw [List.map_cons] at ih
      rw [List.map_cons, List.map_cons, String.intercalate_cons_cons, ih,
        List.intercalate_cons_cons, ended_append, ended_append]
      rfl

theorem length_flatMap_lines (texts : List String) :
    (texts.flatMap lines).length = texts.length + (texts.map breaks).sum := by
  induction texts with
  | nil => rfl
  | cons t texts ih =>
    rw [List.flatMap_cons, List.length_append, length_lines, ih, List.length_cons, List.map_cons,
      List.sum_cons]
    omega

/-- Texts are their own lines exactly if none of them has a break. -/
theorem flatMap_lines_eq_iff {texts : List String} :
    texts.flatMap lines = texts ↔ (texts.map breaks).sum = 0 := by
  constructor
  · intro h
    have hlength := length_flatMap_lines texts
    rw [h] at hlength
    omega
  · intro h
    have hnone : ∀ t ∈ texts, lines t = [t] := fun t ht =>
      lines_eq_singleton (List.sum_eq_zero_iff_forall_eq_nat.mp h _ (List.mem_map_of_mem ht))
    rw [List.flatMap_congr hnone]
    exact List.flatMap_singleton' texts

theorem flatMap_lines_of_unbroken {texts : List String} (h : ∀ t ∈ texts, breaks t = 0) :
    texts.flatMap lines = texts :=
  flatMap_lines_eq_iff.mpr (sum_breaks_eq_zero h)

end Lines

section Numbers

theorem newline_not_mem_toDigits (n : Nat) : '\n' ∉ Nat.toDigits 10 n := fun h =>
  absurd (Nat.isDigit_of_mem_toDigits (by decide) (by decide) h) (by decide)

theorem breaks_natToString (n : Nat) : breaks (toString n) = 0 := by
  rw [breaks_eq_zero_iff, Nat.toString_eq_repr, Nat.toList_repr]
  exact newline_not_mem_toDigits n

theorem breaks_intToString (n : Int) : breaks (toString n) = 0 := by
  rw [Int.toString_eq_repr, Int.repr_eq_if]
  split
  · exact breaks_natToString n.toNat
  · rw [breaks_append]
    exact Nat.add_eq_zero_iff.mpr ⟨rfl, breaks_natToString (-n).toNat⟩

theorem newline_not_mem_placePoint (layout : NumberLayout) {digits : List Char}
    (h : '\n' ∉ digits) (point : Int) : '\n' ∉ layout.placePoint digits point := by
  have htake : '\n' ∉ digits.take point.toNat := fun hmem => h (List.mem_of_mem_take hmem)
  have hdrop : '\n' ∉ digits.drop point.toNat := fun hmem => h (List.mem_of_mem_drop hmem)
  unfold NumberLayout.placePoint
  split
  · simp [h]
  · split
    · cases layout.pointZero <;> simp [h]
    · simp [htake, hdrop]

theorem newline_not_mem_scientific {digits : List Char} (h : '\n' ∉ digits) (exponent : Int) :
    '\n' ∉ NumberLayout.scientific digits exponent := by
  have hsign : '\n' ≠ if exponent < 0 then '-' else '+' := by
    split <;> decide
  have hexponent : '\n' ∉ 'e' :: (if exponent < 0 then '-' else '+') ::
      Nat.toDigits 10 exponent.natAbs :=
    List.not_mem_cons_of_ne_of_not_mem (by decide)
      (List.not_mem_cons_of_ne_of_not_mem hsign (newline_not_mem_toDigits _))
  -- The mantissa has the digits themselves and at most a point besides.
  match digits with
  | [] => exact hexponent
  | [d] => exact List.not_mem_append h hexponent
  | d :: e :: ds =>
    refine List.not_mem_append ?_ hexponent
    obtain ⟨hd, hds⟩ := List.ne_and_not_mem_of_not_mem_cons h
    exact List.not_mem_cons_of_ne_of_not_mem hd
      (List.not_mem_cons_of_ne_of_not_mem (by decide) hds)

theorem breaks_render (layout : NumberLayout) (x : Binary64) : breaks (layout.render x) = 0 := by
  have hmagnitude : '\n' ∉ layout.magnitude x := by
    have hdigits := newline_not_mem_toDigits (x.shortest layout.tie).digits
    unfold NumberLayout.magnitude
    split
    · cases layout.pointZero <;> decide
    · simp only
      split
      · exact newline_not_mem_placePoint layout hdigits _
      · exact newline_not_mem_scientific hdigits _
  rw [NumberLayout.render, breaks_ofList, List.count_eq_zero]
  split
  · exact List.not_mem_cons_of_ne_of_not_mem (by decide) hmagnitude
  · exact hmagnitude

/-- Of default values only texts have line breaks. -/
theorem breaks_plainText (v : DefaultValue) :
    breaks v.plainText = match v with
      | .text text => breaks text
      | _ => 0 := by
  cases v with
  | bool b => cases b <;> rfl
  | int n => exact breaks_intToString n.toInt
  | float x => exact breaks_render _ x
  | text text => rfl

end Numbers

end Schemata.Text
