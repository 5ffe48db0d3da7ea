import Mathlib.Tactic.SplitIfs
import Schemata.Json.Reader
/-!
# Strings inside texts

A string is read back as it is written, whatever it contains: each character that is escaped is
read as itself, and no other is taken for an escape or for the end of the string.
-/

namespace Schemata.Json

theorem hexUnit?_control {n : Nat} (hn : n < 0x20) :
    hexUnit? '0' '0' (Nat.digitChar (n / 16)) (Nat.digitChar (n % 16)) = some n := by
  decide +revert

theorem readStringBody_control {n : Nat} (hn : n < 0x20) (rest : List Char) :
    readStringBody .kept
        ('\\' :: 'u' :: '0' :: '0' :: Nat.digitChar (n / 16) :: Nat.digitChar (n % 16) :: rest) =
      consChar (.ofNat n) (readStringBody .kept rest) := by
  have hlow : isLowSurrogate n = false := by
    decide +revert
  have hhigh : isHighSurrogate n = false := by
    decide +revert
  rw [readStringBody]
  simp only [hexUnit?_control hn, hlow, hhigh]
  rfl

theorem readStringBody_plain {c : Char} (hquote : c ≠ '"') (hslash : c ≠ '\\')
    (hcontrol : ¬c.toNat < 0x20) (rest : List Char) :
    readStringBody .kept (c :: rest) = consChar c (readStringBody .kept rest) := by
  rw [readStringBody, if_neg hcontrol] <;> simp_all

theorem readStringBody_escaped {c d : Char} (h : simpleEscape? c = some d) (hu : c ≠ 'u')
    (rest : List Char) :
    readStringBody .kept ('\\' :: c :: rest) = consChar d (readStringBody .kept rest) := by
  rw [readStringBody, h] <;> simp_all

/-- A character that is written inside a string is read as itself. -/
theorem readStringBody_escapeChar (c : Char) (rest : List Char) :
    readStringBody .kept (escapeChar c ++ rest) = consChar c (readStringBody .kept rest) := by
  unfold escapeChar
  split_ifs with hquote hslash hback hfeed hline hreturn htab hcontrol
  case neg => exact readStringBody_plain hquote hslash hcontrol rest
  rotate_left 7
  · have hcode := readStringBody_control hcontrol rest
    rwa [Char.ofNat_toNat] at hcode
  -- Each of the other escapes is a letter or a mark of its own.
  all_goals
    subst c
    exact readStringBody_escaped rfl (by decide) rest

/-- A string is read back up to its closing quote. -/
theorem readStringBody_stringBody (s rest : List Char) :
    readStringBody .kept (stringBody s ++ rest) = .ok (s, rest) := by
  induction s with
  | nil => rfl
  | cons c cs ih =>
    rw [stringBody, List.append_assoc, readStringBody_escapeChar, ih]
    rfl

theorem readString_stringBody (s : String) (rest : List Char) :
    readString .kept (stringBody s.toList ++ rest) = .ok (s, rest) := by
  rw [readString, readStringBody_stringBody]
  exact congrArg (fun s => Except.ok (s, rest)) String.ofList_toList

end Schemata.Json
