import Mathlib.Data.List.TakeDrop
import Mathlib.Data.List.TakeWhile
import Mathlib.Data.Nat.Digits.Defs
import Schemata.Normalize.Classification
import Schemata.Proofs.Runs
/-!
# Which SQL types state a length

A length is read from exactly the types that state one, as the number that its digits write, unless
it does not fit 32 bits. Then none is read, and never another number (`stated_lengths_read`).
-/

namespace Schemata.LengthHint

/-- A word in parentheses, and whatever follows it. -/
structure Argument where
  gap : List Char
  lead : List Char
  word : List Char
  trail : List Char
  rest : List Char
  gap_blank : ∀ c ∈ gap, Text.isBlank c = true
  lead_blank : ∀ c ∈ lead, Text.isBlank c = true
  word_ne_nil : word ≠ []
  word_solid : ∀ c ∈ word, Text.isBlank c = false ∧ c ≠ ')'
  trail_blank : ∀ c ∈ trail, Text.isBlank c = true

namespace Argument

def behind (a : Argument) : List Char := a.trail ++ ')' :: a.rest

def text (a : Argument) : List Char := a.gap ++ '(' :: (a.lead ++ (a.word ++ a.behind))

/-- Whether the word consists of digits, of which only those of ASCII count. -/
def IsDecimal (a : Argument) : Prop := ∀ c ∈ a.word, '0' ≤ c ∧ c ≤ '9'

/-- The number that a word of digits writes, the last of them the units. -/
def length (a : Argument) : Nat :=
  Nat.ofDigits 10 (a.word.reverse.map fun c => c.toNat - '0'.toNat)

end Argument

/-- An SQL type that is given an argument. The letters of its name may be of any case. -/
structure AppliedType extends Argument where
  margin : List Char
  name : List Char
  margin_blank : ∀ c ∈ margin, Text.isBlank c = true
  name_lower : name.map Char.toLower = "varchar".toList ∨
    name.map Char.toLower = "character varying".toList

def AppliedType.sqlType (w : AppliedType) : List Char := w.margin ++ (w.name ++ w.text)

/-- Whether an SQL type states a length, which may be of any size. -/
def States (sqlType : String) (n : Nat) : Prop :=
  ∃ w : AppliedType, w.sqlType = sqlType.toList ∧ w.IsDecimal ∧ w.length = n

section Characters

theorem isBlank_of_visible {c : Char} (hlow : '!' ≤ c) (hhigh : c ≤ '~') :
    Text.isBlank c = false := by
  have hlow : 0x21 ≤ c.toNat := hlow
  have hhigh : c.toNat ≤ 0x7E := hhigh
  simp only [Text.isBlank, Bool.or_eq_false_iff, Bool.and_eq_false_iff, decide_eq_false_iff_not,
    beq_eq_false_iff_ne]
  omega

theorem isDigit_eq_true_iff {c : Char} : isDigit c = true ↔ '0' ≤ c ∧ c ≤ '9' := by
  rw [isDigit, Bool.and_eq_true, decide_eq_true_iff, decide_eq_true_iff]

theorem isBlank_of_isDigit {c : Char} (h : isDigit c = true) : Text.isBlank c = false := by
  obtain ⟨hlow, hhigh⟩ := isDigit_eq_true_iff.mp h
  have hvisible : '!' ≤ '0' ∧ '9' ≤ '~' := by decide
  exact isBlank_of_visible (Char.le_trans hvisible.1 hlow) (Char.le_trans hhigh hvisible.2)

/-- No character that a lower case letter is made of is a blank. -/
theorem isBlank_of_toLower {c d : Char} (h : c.toLower = d) (hd : Text.isBlank d = false) :
    Text.isBlank c = false := by
  unfold Char.toLower at h
  split at h
  · next hupper =>
    have hvisible : '!' ≤ 'A' ∧ 'Z' ≤ '~' := by decide
    exact isBlank_of_visible (Char.le_trans hvisible.1 hupper.1)
      (Char.le_trans hupper.2 hvisible.2)
  · rw [h, hd]

theorem ofDigits_eq (digits : List Char) :
    ofDigits digits = Nat.ofDigits 10 (digits.reverse.map fun c => c.toNat - '0'.toNat) := by
  rw [Nat.ofDigits_eq_foldr, List.map_reverse, List.foldr_reverse, List.foldl_map, ofDigits]
  congr 1
  funext n c
  exact Nat.add_comm _ _

end Characters

section Parts

/-! Each part of a type is read off the front of it and leaves what is behind. -/

theorem afterWord?_eq_some_iff {word cs rest : List Char} :
    afterWord? word cs = some rest ↔
      ∃ name, cs = name ++ rest ∧ name.map Char.toLower = word := by
  induction word generalizing cs with
  | nil => simp [afterWord?]
  | cons w ws ih =>
    cases cs with
    | nil => simp [afterWord?]
    | cons c cs =>
      rw [afterWord?]
      by_cases hc : c.toLower = w
      · rw [if_pos hc, ih]
        constructor
        · rintro ⟨name, rfl, rfl⟩
          exact ⟨c :: name, rfl, by rw [List.map_cons, hc]⟩
        · rintro ⟨name, hname, hlower⟩
          obtain ⟨d, name, rfl, -, hrest⟩ := List.map_eq_cons_iff.mp hlower
          rw [List.cons_append, List.cons.injEq] at hname
          exact ⟨name, hname.2, hrest⟩
      · rw [if_neg hc]
        constructor
        · nofun
        · rintro ⟨name, hname, hlower⟩
          obtain ⟨d, name, rfl, hd, -⟩ := List.map_eq_cons_iff.mp hlower
          rw [List.cons_append, List.cons.injEq] at hname
          exact absurd (hname.1 ▸ hd) hc

theorem afterChar?_self (c : Char) (cs : List Char) : afterChar? c (c :: cs) = some cs :=
  if_pos rfl

theorem eq_cons_of_afterChar? {c : Char} {cs rest : List Char}
    (h : afterChar? c cs = some rest) : cs = c :: rest := by
  cases cs with
  | nil => cases h
  | cons d cs =>
    rw [afterChar?] at h
    split at h
    · next hd =>
      cases h
      rw [hd]
    · cases h

theorem exists_append_skipBlanks (cs : List Char) :
    ∃ blanks, (∀ c ∈ blanks, Text.isBlank c = true) ∧ blanks ++ skipBlanks cs = cs :=
  ⟨cs.takeWhile Text.isBlank, fun _ => List.mem_takeWhile_imp, List.takeWhile_append_dropWhile⟩

theorem skipBlanks_append {blanks : List Char} (hblank : ∀ c ∈ blanks, Text.isBlank c = true)
    {c : Char} (hc : Text.isBlank c = false) (rest : List Char) :
    skipBlanks (blanks ++ c :: rest) = c :: rest := by
  apply dropWhile_append_of_head hblank
  rintro d ⟨⟩
  exact hc

end Parts

namespace Argument

variable (a : Argument)

theorem skipBlanks_text : skipBlanks a.text = '(' :: (a.lead ++ (a.word ++ a.behind)) :=
  skipBlanks_append a.gap_blank (by decide) _

theorem skipBlanks_lead (more : List Char) :
    skipBlanks (a.lead ++ (a.word ++ more)) = a.word ++ more := by
  obtain ⟨c, cs, hword⟩ := List.exists_cons_of_ne_nil a.word_ne_nil
  have hc : Text.isBlank c = false := (a.word_solid c (hword ▸ List.mem_cons_self)).1
  rw [hword]
  exact skipBlanks_append a.lead_blank hc _

theorem skipBlanks_behind : skipBlanks a.behind = ')' :: a.rest :=
  skipBlanks_append a.trail_blank (by decide) _

/-- The parenthesis is passed, and the blanks behind it. -/
theorem argument?_text :
    argument? a.text =
      let (digits, cs) := (a.word ++ a.behind).span isDigit
      (afterChar? ')' (skipBlanks cs)).bind fun _ =>
        if digits.isEmpty ∨ UInt32.size ≤ ofDigits digits then none
        else some (.ofNat (ofDigits digits)) := by
  simp only [argument?, a.skipBlanks_text, afterChar?_self, Option.bind_eq_bind, Option.bind_some,
    a.skipBlanks_lead]

variable {a}

theorem isDecimal_iff : a.IsDecimal ↔ a.word.all isDigit = true := by
  rw [List.all_eq_true]
  exact forall₂_congr fun c _ => isDigit_eq_true_iff.symm

instance : Decidable a.IsDecimal := decidable_of_iff _ isDecimal_iff.symm

theorem span_word (h : a.IsDecimal) : (a.word ++ a.behind).span isDigit = (a.word, a.behind) := by
  apply span_append_of_head fun c hc => isDigit_eq_true_iff.mpr (h c hc)
  intro c hc
  rw [behind] at hc
  cases htrail : a.trail with
  | nil =>
    rw [htrail] at hc
    cases hc
    rfl
  | cons d trail =>
    rw [htrail] at hc
    cases hc
    -- A blank ends the digits, as no digit is one.
    by_contra hdigit
    have hblank := a.trail_blank c (htrail ▸ List.mem_cons_self)
    rw [isBlank_of_isDigit (Bool.eq_true_of_not_eq_false hdigit)] at hblank
    cases hblank

/-- A length is read as it is written, or not at all if it does not fit. -/
theorem argument?_of_isDecimal (h : a.IsDecimal) :
    argument? a.text = if 2 ^ 32 ≤ a.length then none else some (.ofNat a.length) := by
  have hword : a.word.isEmpty = false := List.isEmpty_eq_false_iff.mpr a.word_ne_nil
  simp only [a.argument?_text, span_word h, a.skipBlanks_behind, afterChar?_self, Option.bind_some,
    hword, ofDigits_eq, Bool.false_eq_true, false_or]
  rfl

theorem argument?_of_not_isDecimal (h : ¬a.IsDecimal) : argument? a.text = none := by
  obtain ⟨c, hfound⟩ : ∃ c, a.word.find? (!isDigit ·) = some c := by
    rw [isDecimal_iff, Bool.not_eq_true, List.all_eq_false] at h
    rw [← Option.isSome_iff_exists, List.find?_isSome]
    simpa using h
  obtain ⟨hc, digits, more, hword, hdigits⟩ := List.find?_eq_some_iff_append.mp hfound
  simp only [Bool.not_eq_true', Bool.not_not] at hc hdigits
  obtain ⟨hblank, hclose⟩ := a.word_solid c (List.mem_of_find?_eq_some hfound)
  -- The digits end at a character that closes no parenthesis.
  have hspan : (a.word ++ a.behind).span isDigit = (digits, c :: (more ++ a.behind)) := by
    rw [hword, List.append_assoc]
    apply span_append_of_head hdigits
    rintro d ⟨⟩
    exact hc
  have hskip := skipBlanks_append (List.forall_mem_nil _) hblank (more ++ a.behind)
  rw [List.nil_append] at hskip
  rw [a.argument?_text, hspan]
  dsimp only
  rw [hskip, afterChar?, if_neg hclose, Option.bind_none]

end Argument

/-- Where a length is read, it is written. -/
theorem exists_argument {cs : List Char} {n : UInt32} (h : argument? cs = some n) :
    ∃ a : Argument, a.text = cs ∧ a.IsDecimal ∧ a.length = n.toNat := by
  unfold argument? at h
  obtain ⟨inner, hopen, h⟩ := Option.bind_eq_some_iff.mp h
  rw [List.span_eq_takeWhile_dropWhile] at h
  obtain ⟨rest, hclose, hnumber⟩ := Option.bind_eq_some_iff.mp h
  replace hopen := eq_cons_of_afterChar? hopen
  replace hclose := eq_cons_of_afterChar? hclose
  -- What the blanks were that were skipped, from the front to the end.
  obtain ⟨gap, hgap, hcs⟩ := exists_append_skipBlanks cs
  obtain ⟨lead, hlead, hinner⟩ := exists_append_skipBlanks inner
  obtain ⟨trail, htrail, hbehind⟩ :=
    exists_append_skipBlanks ((skipBlanks inner).dropWhile isDigit)
  dsimp only at hnumber
  split at hnumber
  · cases hnumber
  · next hstated =>
    obtain ⟨hsome, hfits⟩ := not_or.mp hstated
    cases hnumber
    have hdigits (c : Char) (hc : c ∈ (skipBlanks inner).takeWhile isDigit) : isDigit c = true :=
      List.mem_takeWhile_imp hc
    refine ⟨{
      gap, lead, trail, rest
      word := (skipBlanks inner).takeWhile isDigit
      gap_blank := hgap
      lead_blank := hlead
      word_ne_nil := mt List.isEmpty_iff.mpr hsome
      word_solid := fun c hc => ⟨isBlank_of_isDigit (hdigits c hc), ?_⟩
      trail_blank := htrail }, ?_, fun c hc => isDigit_eq_true_iff.mp (hdigits c hc), ?_⟩
    · rintro rfl
      cases hdigits ')' hc
    · rw [Argument.text, Argument.behind, ← hclose, hbehind, List.takeWhile_append_dropWhile,
        hinner, ← hopen, hcs]
    · rw [UInt32.toNat_ofNat_of_lt' (not_le.mp hfits), ofDigits_eq]
      rfl

namespace AppliedType

variable (w : AppliedType)

/-- The two names are told apart by their first letters. -/
theorem exists_name :
    ∃ c cs, w.name = c :: cs ∧
      (c.toLower = 'v' ∧ w.name.map Char.toLower = "varchar".toList ∨
        c.toLower = 'c' ∧ w.name.map Char.toLower = "character varying".toList) := by
  obtain hname | hname := w.name_lower
  · obtain ⟨c, cs, hcs, hc, -⟩ := List.map_eq_cons_iff.mp hname
    exact ⟨c, cs, hcs, .inl ⟨hc, hname⟩⟩
  · obtain ⟨c, cs, hcs, hc, -⟩ := List.map_eq_cons_iff.mp hname
    exact ⟨c, cs, hcs, .inr ⟨hc, hname⟩⟩

theorem skipBlanks_sqlType : skipBlanks w.sqlType = w.name ++ w.text := by
  obtain ⟨c, cs, hcs, hname⟩ := w.exists_name
  have hc : Text.isBlank c = false := by
    obtain ⟨hlower, -⟩ | ⟨hlower, -⟩ := hname <;> exact isBlank_of_toLower hlower (by decide)
  rw [sqlType, hcs]
  exact skipBlanks_append w.margin_blank hc _

theorem findSome?_afterWord? :
    (typeNames.findSome? fun word => afterWord? word (w.name ++ w.text)) = some w.text := by
  have hread {word : List Char} (h : w.name.map Char.toLower = word) :
      afterWord? word (w.name ++ w.text) = some w.text :=
    afterWord?_eq_some_iff.mpr ⟨w.name, rfl, h⟩
  obtain ⟨c, cs, hcs, ⟨-, hname⟩ | ⟨hc, hname⟩⟩ := w.exists_name
  · rw [typeNames, List.findSome?_cons, hread hname]
  · -- The shorter name is tried first and fails at the first letter.
    have hother : afterWord? "varchar".toList (w.name ++ w.text) = none := by
      rw [hcs]
      exact if_neg (by rw [hc]; decide)
    rw [typeNames, List.findSome?_cons, hother, List.findSome?_cons, hread hname]

theorem ofSqlType?_eq {s : String} (hs : w.sqlType = s.toList) :
    ofSqlType? s = argument? w.text := by
  rw [ofSqlType?, ← hs, w.skipBlanks_sqlType, w.findSome?_afterWord?]
  rfl

end AppliedType

/-- Where a length is read of an SQL type, the type states it. -/
theorem states_of_ofSqlType? {s : String} {n : UInt32} (h : ofSqlType? s = some n) :
    States s n.toNat := by
  unfold ofSqlType? at h
  obtain ⟨text, hname, hargument⟩ := Option.bind_eq_some_iff.mp h
  obtain ⟨a, rfl, hdecimal, hlength⟩ := exists_argument hargument
  obtain ⟨margin, hmargin, hs⟩ := exists_append_skipBlanks s.toList
  obtain ⟨word, hword, hafter⟩ := List.exists_of_findSome?_eq_some hname
  obtain ⟨name, hsplit, hlower⟩ := afterWord?_eq_some_iff.mp hafter
  have hnames : word = "varchar".toList ∨ word = "character varying".toList := by
    simpa [typeNames] using hword
  refine ⟨{ a with margin, name, margin_blank := hmargin, name_lower := hlower ▸ hnames }, ?_,
    hdecimal, hlength⟩
  rw [AppliedType.sqlType, ← hs, hsplit]

theorem map_toNat_ofSqlType?_eq_some_iff {s : String} {n : Nat} :
    (ofSqlType? s).map UInt32.toNat = some n ↔ States s n ∧ n < 2 ^ 32 := by
  constructor
  · intro h
    obtain ⟨m, hm, rfl⟩ := Option.map_eq_some_iff.mp h
    exact ⟨states_of_ofSqlType? hm, m.toNat_lt⟩
  · rintro ⟨⟨w, hs, hdecimal, rfl⟩, hfits⟩
    rw [w.ofSqlType?_eq hs, Argument.argument?_of_isDecimal hdecimal, if_neg (not_le.mpr hfits),
      Option.map_some, UInt32.toNat_ofNat_of_lt' hfits]

theorem ofSqlType?_eq_none {w : AppliedType} (h : ¬w.IsDecimal ∨ 2 ^ 32 ≤ w.length) :
    ofSqlType? (.ofList w.sqlType) = none := by
  rw [w.ofSqlType?_eq String.toList_ofList.symm]
  by_cases hdecimal : w.IsDecimal
  · rw [Argument.argument?_of_isDecimal hdecimal, if_pos (h.resolve_left (not_not.mpr hdecimal))]
  · exact Argument.argument?_of_not_isDecimal hdecimal

theorem ofSqlType?_eq_none_iff {s : String} :
    ofSqlType? s = none ↔ ∀ n, States s n → 2 ^ 32 ≤ n := by
  constructor
  · intro h n hn
    by_contra hfits
    have hread := map_toNat_ofSqlType?_eq_some_iff.mpr ⟨hn, not_le.mp hfits⟩
    rw [h] at hread
    cases hread
  · intro h
    cases hread : ofSqlType? s with
    | none => rfl
    | some n => exact absurd (h _ (states_of_ofSqlType? hread)) (not_le.mpr n.toNat_lt)

theorem classify_varchar {c : ColumnDeclaration} (h : c.storage = .varchar) (table : String) :
    c.classify table = .ok (c.toColumn .varchar false) := by
  rw [ColumnDeclaration.classify, ColumnDeclaration.classifyType, h]
  rfl

/-- A length is read of an SQL type exactly if the type states it and it fits 32 bits. A column
that holds texts of varying length has the length that is declared for it, or else the one that
its type states. -/
theorem stated_lengths_read :
    (∀ (s : String) (n : Nat),
        (ofSqlType? s).map UInt32.toNat = some n ↔ States s n ∧ n < 2 ^ 32) ∧
      (∀ s : String, ofSqlType? s = none ↔ ∀ n, States s n → 2 ^ 32 ≤ n) ∧
      (∀ w : AppliedType, ¬w.IsDecimal ∨ 2 ^ 32 ≤ w.length →
        ofSqlType? (.ofList w.sqlType) = none) ∧
      ∀ (table : String) (c : ColumnDeclaration), c.storage = .varchar →
        ∃ column, c.classify table = .ok column ∧ column.type = .varchar ∧
          (∀ n, c.length = some n → column.lengthHint = some n) ∧
          (c.length = none → column.lengthHint = ofSqlType? c.sqlType) := by
  refine ⟨fun s n => map_toNat_ofSqlType?_eq_some_iff, fun s => ofSqlType?_eq_none_iff,
    fun w => ofSqlType?_eq_none, fun table c hstorage => ?_⟩
  have hhint : (c.toColumn .varchar false).lengthHint =
      (c.length <|> ofSqlType? c.sqlType) := rfl
  refine ⟨_, classify_varchar hstorage table, rfl, fun n hn => ?_, fun hnone => ?_⟩
  · rw [hhint, hn]
    rfl
  · rw [hhint, hnone]
    rfl

/-- A type with everything around its argument that may be there. -/
def spacious (word : List Char) (hne : word ≠ [])
    (hsolid : (word.all fun c => !Text.isBlank c && c != ')') = true) : AppliedType where
  margin := ['\u00A0']
  name := "Character VARYING".toList
  gap := [' ']
  lead := ['\t', ' ']
  word := word
  trail := ['\u2003']
  rest := "[]".toList
  margin_blank := List.all_eq_true.mp rfl
  name_lower := .inr (by decide)
  gap_blank := List.all_eq_true.mp rfl
  lead_blank := List.all_eq_true.mp rfl
  word_ne_nil := hne
  word_solid := by simpa using hsolid
  trail_blank := List.all_eq_true.mp rfl

/-- The largest length that fits is read with zeros in front of it, the next one is not, and no
digits of another script are. -/
theorem stated_lengths_read_spacious :
    (ofSqlType? "\u00A0Character VARYING (\t 0004294967295\u2003)[]").map UInt32.toNat =
        some 4294967295 ∧
      ofSqlType? "\u00A0Character VARYING (\t 4294967296\u2003)[]" = none ∧
      ofSqlType? "\u00A0Character VARYING (\t 4\u0662\u2003)[]" = none ∧
      ∃ column,
        (ColumnDeclaration.ofName "title" .varchar "VARCHAR( 40 )").classify "Book" = .ok column ∧
          column.lengthHint = some 40 := by
  obtain ⟨hread, -, hnone, hhint⟩ := stated_lengths_read
  have hfits : States "\u00A0Character VARYING (\t 0004294967295\u2003)[]" 4294967295 :=
    ⟨spacious "0004294967295".toList (by decide) (by decide), by decide, by decide, by decide⟩
  refine ⟨(hread _ _).mpr ⟨hfits, by decide⟩, ?_, ?_, ?_⟩
  · exact hnone (spacious "4294967296".toList (by decide) (by decide)) (.inr (by decide))
  · exact hnone (spacious "4\u0662".toList (by decide) (by decide)) (.inl (by decide))
  · obtain ⟨column, hcolumn, -, -, hstated⟩ :=
      hhint "Book" (.ofName "title" .varchar "VARCHAR( 40 )") rfl
    exact ⟨column, hcolumn, (hstated rfl).trans (by decide)⟩

end Schemata.LengthHint
