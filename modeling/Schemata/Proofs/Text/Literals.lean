import Mathlib.Data.List.Infix
import Schemata.Text.Quoted
/-!
# Literals are read back

A scanner that knows escapes stops at the closing quote of a literal and nowhere before it, and
gives back the text that was quoted. So a literal stands for one text, and a list of literals for
one list of texts, whatever quotes, commas and backslashes the texts contain
(`literals_unambiguous`).
-/

namespace Schemata.Text

theorem toList_quote (s : String) : (quote s).toList = '"' :: (escape s.toList ++ ['"']) :=
  String.toList_ofList

/-- A literal is read up to its closing quote. -/
theorem scanLiteral_quote (s : String) (rest : List Char) :
    scanLiteral ((quote s).toList ++ rest) = some (s.toList, rest) := by
  rw [toList_quote, List.cons_append, List.append_assoc, List.singleton_append, scanLiteral,
    scanBody_escape]

section Extension

/-! What a scanner reads of a text does not depend on what comes behind it. -/

theorem scanBody_plain {c : Char} (hquote : c ≠ '"') (hslash : c ≠ '\\') (rest : List Char) :
    scanBody (c :: rest) = (scanBody rest).map fun (s, t) => (c :: s, t) := by
  rw [scanBody] <;> simp_all

theorem scanBody_append {cs s t : List Char} (h : scanBody cs = some (s, t)) (more : List Char) :
    scanBody (cs ++ more) = some (s, t ++ more) := by
  fun_induction scanBody cs generalizing s t with
  | case1 => cases h
  | case2 rest =>
    cases h
    rfl
  | case3 c rest ih =>
    obtain ⟨⟨s', t'⟩, hrest, hst⟩ := Option.map_eq_some_iff.mp h
    cases hst
    rw [List.cons_append, List.cons_append, scanBody, ih hrest, Option.map_some]
  | case4 => cases h
  | case5 c rest hquote hescape hlone ih =>
    -- A backslash is followed by something or by nothing, so the cases above take every one.
    have hslash : c ≠ '\\' := by
      rintro rfl
      cases rest with
      | nil => exact hlone rfl rfl
      | cons d rest => exact hescape d rest rfl rfl
    obtain ⟨⟨s', t'⟩, hrest, hst⟩ := Option.map_eq_some_iff.mp h
    cases hst
    rw [List.cons_append, scanBody_plain hquote hslash, ih hrest, Option.map_some]

theorem scanLiteral_append {cs s t : List Char} (h : scanLiteral cs = some (s, t))
    (more : List Char) : scanLiteral (cs ++ more) = some (s, t ++ more) := by
  match cs with
  | [] => cases h
  | c :: cs =>
    by_cases hquote : c = '"'
    · subst hquote
      exact scanBody_append h more
    · rw [scanLiteral] at h
      · cases h
      · simpa using hquote

end Extension

/-- A literal that is cut off is none. -/
theorem scanLiteral_of_cut {s : String} {cs : List Char} (hcut : cs <+: (quote s).toList)
    (hshort : cs ≠ (quote s).toList) : scanLiteral cs = none := by
  obtain ⟨more, hmore⟩ := hcut
  cases hscan : scanLiteral cs with
  | none => rfl
  | some read =>
    -- What was read would stop before the end of the whole literal.
    have hwhole := scanLiteral_quote s []
    rw [List.append_nil, ← hmore, scanLiteral_append hscan more] at hwhole
    have hrest : read.2 ++ more = [] := congrArg Prod.snd (Option.some.inj hwhole)
    rw [List.append_eq_nil_iff.mp hrest |>.2, List.append_nil] at hmore
    exact absurd hmore hshort

/-- Where two literals stand at the front of a text, they are the same, and so is what follows. -/
theorem quote_append_inj {s s' : String} {t t' : List Char}
    (h : (quote s).toList ++ t = (quote s').toList ++ t') : s = s' ∧ t = t' := by
  have hread := scanLiteral_quote s t
  rw [h, scanLiteral_quote, Option.some.injEq, Prod.mk.injEq] at hread
  exact ⟨String.toList_injective hread.1.symm, hread.2.symm⟩

theorem quote_injective : Function.Injective quote := by
  intro s s' h
  have hlists : (quote s).toList ++ [] = (quote s').toList ++ [] := by rw [h]
  exact (quote_append_inj hlists).1

section Lists

/-- The literals of further texts, each behind a comma. -/
def furtherLiterals (texts : List String) : List Char :=
  texts.flatMap fun s => ',' :: ' ' :: (quote s).toList

theorem furtherLiterals_cons (s : String) (texts : List String) :
    furtherLiterals (s :: texts) = ',' :: ' ' :: ((quote s).toList ++ furtherLiterals texts) :=
  List.flatMap_cons

theorem toList_quotedList_cons (s : String) (texts : List String) :
    (quotedList (s :: texts)).toList = (quote s).toList ++ furtherLiterals texts := by
  induction texts generalizing s with
  | nil =>
    rw [quotedList, List.map_singleton, String.intercalate_singleton, furtherLiterals,
      List.flatMap_nil, List.append_nil]
  | cons next texts ih =>
    have hnext := ih next
    rw [quotedList, List.map_cons] at hnext
    have hcomma : ", ".toList = [',', ' '] := by decide
    rw [quotedList, List.map_cons, List.map_cons, String.intercalate_cons_cons,
      String.toList_append, String.toList_append, hnext, hcomma, List.append_assoc,
      furtherLiterals_cons, List.cons_append, List.cons_append, List.nil_append]

theorem furtherLiterals_injective : Function.Injective furtherLiterals := by
  intro xs
  induction xs with
  | nil =>
    intro ys h
    cases ys with
    | nil => rfl
    | cons y ys => cases h
  | cons x xs ih =>
    intro ys h
    cases ys with
    | nil => cases h
    | cons y ys =>
      simp only [furtherLiterals_cons, List.cons.injEq, true_and] at h
      obtain ⟨rfl, hrest⟩ := quote_append_inj h
      rw [ih hrest]

theorem quotedList_injective : Function.Injective quotedList := by
  intro xs ys h
  have hlists := congrArg String.toList h
  cases xs with
  | nil =>
    cases ys with
    | nil => rfl
    | cons y ys =>
      rw [toList_quotedList_cons, toList_quote] at hlists
      cases hlists
  | cons x xs =>
    rw [toList_quotedList_cons] at hlists
    cases ys with
    | nil =>
      rw [toList_quote] at hlists
      cases hlists
    | cons y ys =>
      rw [toList_quotedList_cons] at hlists
      obtain ⟨rfl, hrest⟩ := quote_append_inj hlists
      rw [furtherLiterals_injective hrest]

end Lists

/-- A scanner gives back the text of a literal and stops at its end, whatever follows, and it finds
no end in a literal that is cut off. Literals of different texts differ, and so do the lists of
literals of different lists. -/
theorem literals_unambiguous :
    (∀ (s : String) (rest : List Char),
        scanLiteral ((quote s).toList ++ rest) = some (s.toList, rest)) ∧
      (∀ (s : String) (cs : List Char), cs <+: (quote s).toList → cs ≠ (quote s).toList →
        scanLiteral cs = none) ∧
      Function.Injective quote ∧ Function.Injective quotedList :=
  ⟨scanLiteral_quote, fun _ _ => scanLiteral_of_cut, quote_injective, quotedList_injective⟩

/-- A text that ends in a backslash, and one that looks like two literals. -/
theorem literals_unambiguous_separators :
    quote "C:\\" = "\"C:\\\\\"" ∧
      scanLiteral ((quote "C:\\").toList ++ ", \"".toList) = some ("C:\\".toList, ", \"".toList) ∧
      scanLiteral "\"C:\\\\".toList = none ∧
      quote "C:\\" ≠ quote "C:" ∧
      quotedList ["a\", \"b"] ≠ quotedList ["a", "b"] := by
  obtain ⟨hread, hcut, hquote, hlist⟩ := literals_unambiguous
  refine ⟨rfl, hread _ _, hcut "C:\\" _ ⟨['"'], rfl⟩ (by decide), ?_, ?_⟩
  · exact fun h => absurd (hquote h) (by decide)
  · exact fun h => absurd (hlist h) (by decide)

end Schemata.Text
