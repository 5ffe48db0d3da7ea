/-!
# Blanks

The characters that count as white space in SQL type names and in document preludes, and the
trimming of a text by them, which loses nothing else (`dropTrailing_append_trailing`).
-/

namespace Schemata.Text

/-- The property White_Space: the blanks of ASCII, NEL, NBSP and the separators beyond. -/
def isBlank (c : Char) : Bool :=
  let n := c.toNat
  (0x09 ≤ n && n ≤ 0x0D) || n == 0x20 || n == 0x85 || n == 0xA0 || n == 0x1680 ||
    (0x2000 ≤ n && n ≤ 0x200A) || n == 0x2028 || n == 0x2029 || n == 0x202F ||
    n == 0x205F || n == 0x3000

/-- The text without the longest suffix of characters that satisfy `p`. -/
def dropTrailing (p : Char → Bool) : List Char → List Char
  | [] => []
  | c :: cs =>
    match dropTrailing p cs with
    | [] => if p c then [] else [c]
    | d :: ds => c :: d :: ds

theorem dropTrailing_append_trailing (p : Char → Bool) (cs : List Char) :
    ∃ t, cs = dropTrailing p cs ++ t ∧ ∀ c ∈ t, p c = true := by
  induction cs with
  | nil => exact ⟨[], rfl, by simp⟩
  | cons c cs ih =>
    obtain ⟨t, ht, hp⟩ := ih
    simp only [dropTrailing]
    split
    · next h =>
      rw [h, List.nil_append] at ht
      subst ht
      by_cases hc : p c = true
      · exact ⟨c :: cs, by simp [hc], by simpa [hc] using hp⟩
      · exact ⟨cs, by simp [hc], hp⟩
    · next d ds h =>
      rw [h] at ht
      exact ⟨t, by simp [ht], hp⟩

/-- The text without the blanks at both of its ends. -/
def trim (s : String) : String :=
  .ofList (dropTrailing isBlank (s.toList.dropWhile isBlank))

/-- The text without the blanks at its end. -/
def trimEnd (s : String) : String :=
  .ofList (dropTrailing isBlank s.toList)

end Schemata.Text
