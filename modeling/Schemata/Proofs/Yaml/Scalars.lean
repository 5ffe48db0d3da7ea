import Schemata.Proofs.Yaml.Entries
/-!
# Written texts as values

A text as the value of an entry is written plain, in quotes or in lines of its own, and the lexer
takes each of these for one scalar. Only what is written in lines may be another text by then.
-/

namespace Schemata.Yaml

/-- A text on one line, with nothing in it that is not seen but white space, and none at its end. -/
structure IsTidy (cs : List Char) : Prop where
  controls : ∀ c ∈ cs, isControl c = false
  separators : ∀ c ∈ cs, c ≠ '\u2028' ∧ c ≠ '\u2029'
  trailing : ∀ c ∈ cs.getLast?, Text.isBlank c = false

instance (cs : List Char) : Decidable (IsTidy cs) :=
  decidable_of_iff (cs.all (fun c => !isControl c) ∧ cs.all (fun c => c ≠ '\u2028' ∧ c ≠ '\u2029') ∧
      !cs.getLast?.any Text.isBlank) <| by
    simp only [List.all_eq_true, Bool.not_eq_true', decide_eq_true_eq, Option.any_eq_false]
    exact ⟨fun h => ⟨h.1, h.2.1, h.2.2⟩, fun h => ⟨h.controls, h.separators, h.trailing⟩⟩

theorem dropTrailing_eq_self {p : Char → Bool} {cs : List Char}
    (h : ∀ c ∈ cs.getLast?, p c = false) : Text.dropTrailing p cs = cs := by
  obtain ⟨tail, htail, hp⟩ := Text.dropTrailing_append_trailing p cs
  cases htail' : tail.getLast? with
  | none =>
    rw [List.getLast?_eq_none_iff.mp htail', List.append_nil] at htail
    exact htail.symm
  | some c =>
    have hlast : cs.getLast? = some c := by
      rw [htail, List.getLast?_append, htail', Option.some_or]
    exact absurd (hp c (List.mem_of_getLast? htail')) (by rw [h c hlast]; exact Bool.false_ne_true)

namespace IsTidy

variable {cs : List Char} (h : IsTidy cs)
include h

theorem not_mem_of_isControl {c : Char} (hc : isControl c) : c ∉ cs :=
  fun hmem => absurd (hc.symm.trans (h.controls c hmem)) (by decide)

theorem newline_not_mem : '\n' ∉ cs := h.not_mem_of_isControl rfl

end IsTidy

theorem hasColonSpace_cons {c : Char} {cs : List Char} (h : hasColonSpace (c :: cs) = false) :
    hasColonSpace cs = false ∧ (c = ':' → cs.head? ≠ some ' ') := by
  unfold hasColonSpace at h
  split at h
  · cases h
  · next hne heq =>
    cases heq
    refine ⟨h, fun hc hhead => ?_⟩
    obtain ⟨ds, rfl⟩ : ∃ ds, cs = ' ' :: ds := by
      cases cs with
      | nil => cases hhead
      | cons d ds =>
        cases hhead
        exact ⟨ds, rfl⟩
    exact hne ds hc rfl
  · next heq => cases heq

/-- A colon in a text that is taken for a text has something behind it. -/
theorem hasJoinedColons_of_safe {cs : List Char} (hgaps : ∀ c ∈ cs, isGap c → c = ' ')
    (hspace : hasColonSpace cs = false) (hlast : cs.getLast? ≠ some ':') :
    hasJoinedColons cs := by
  induction cs with
  | nil => rfl
  | cons c cs ih =>
    obtain ⟨htail, hhead⟩ := hasColonSpace_cons hspace
    have hopen : c = ':' → Cursor.isOpen cs = false := by
      rintro rfl
      cases cs with
      | nil => exact absurd rfl hlast
      | cons d ds =>
        refine Bool.eq_false_iff.mpr fun hd => hhead rfl ?_
        rw [hgaps d (List.mem_cons_of_mem _ List.mem_cons_self) hd]
        rfl
    have hrest : hasJoinedColons cs = true := by
      cases cs with
      | nil => rfl
      | cons d ds =>
        exact ih (fun x hx => hgaps x (List.mem_cons_of_mem c hx)) htail
          (by rwa [List.getLast?_cons_cons] at hlast)
    rw [hasJoinedColons, hrest, Bool.and_true]
    by_cases hc : c = ':'
    · rw [hopen hc, Bool.and_false]
      rfl
    · rw [decide_eq_false hc, Bool.false_and]
      rfl

/-- A text that stands for a scalar without quotes. -/
structure IsPlainText (cs : List Char) : Prop extends IsPlainLine cs where
  begins : ∃ c ds, cs = c :: ds ∧ needsQuoteInFront c = false ∧ c ≠ ','

theorem isGap_of_begins {c : Char} (hc : needsQuoteInFront c = false) : isGap c = false := by
  simp only [needsQuoteInFront, List.mem_cons, List.not_mem_nil, or_false, not_or,
    decide_eq_false_iff_not] at hc
  simp [isGap, isBlank, hc]

/-- A tidy text that is taken for a text without quotes is one. -/
theorem IsTidy.isPlainText {cs : List Char} (h : IsTidy cs) (hsafe : isPlainSafe cs) :
    IsPlainText cs := by
  simp only [isPlainSafe, Bool.not_eq_true', Bool.or_eq_false_iff] at hsafe
  obtain ⟨⟨⟨⟨⟨⟨⟨hnull, -⟩, -⟩, -⟩, hfront⟩, hspace⟩, hcolon⟩, hquote⟩ := hsafe
  have hplain : ∀ c ∈ cs, needsQuote c = false := by
    simpa using hquote
  have hgaps : ∀ c ∈ cs, isGap c → c = ' ' := by
    intro c hc hgap
    simp only [isGap, isBlank, Bool.or_eq_true, decide_eq_true_eq] at hgap
    obtain (rfl | rfl) | rfl := hgap
    · rfl
    · exact absurd hc (h.not_mem_of_isControl rfl)
    · exact absurd hc (h.not_mem_of_isControl rfl)
  have hlast : cs.getLast? ≠ some ':' := by
    rw [endsInColon, dropTrailing_eq_self h.trailing] at hcolon
    exact of_decide_eq_false hcolon
  obtain ⟨c, cs, rfl⟩ : ∃ d ds, cs = d :: ds := by
    cases cs with
    | nil => exact absurd hnull (by decide)
    | cons d ds => exact ⟨d, ds, rfl⟩
  refine ⟨⟨hgaps, fun hc => ?_, hasJoinedColons_of_safe hgaps hspace hlast, fun hblank => ?_⟩,
    c, cs, rfl, hfront, ?_⟩
  · exact absurd (hplain '#' hc) (by decide)
  · exact absurd (h.trailing ' ' hblank) (by decide)
  · rintro rfl
    exact absurd (hplain ',' List.mem_cons_self) (by decide)

theorem isNullText_of_safe {cs : List Char} (hsafe : isPlainSafe cs) :
    Node.isNullText (.ofList cs) = false := by
  simp only [isPlainSafe, Bool.not_eq_true', Bool.or_eq_false_iff] at hsafe
  exact hsafe.1.1.1.1.1.1.1

namespace Lexer

/-- Behind a value the lexer is ready for what stands next. -/
theorem ready_behind {length adjacent settled : Nat} {margins : List Margin} {columns : List Nat}
    (hmargins : RestsOn margins columns) (p : Place) (n : Nat) {next : List Char}
    (hnext : next.length ≤ length) :
    Ready (inBlock length adjacent settled [] margins none true ⟨next, p.past (margin n)⟩) columns n
      next :=
  ⟨length, adjacent, settled, margins, true, [], p.past (margin n), rfl, hmargins,
    (fun _ h => nomatch h), .inl rfl, Place.column_past_margin p n, hnext⟩

theorem takesFor_plain {cs : List Char} (h : IsPlainText cs) (column : Nat) :
    TakesFor column cs .plain (.ofList cs) := by
  intro length adjacent settled columns n next p hlength hnext hn hsolid hp hfresh
  obtain ⟨c, cs, rfl, hc, hcomma⟩ := h.begins
  have hindent : (n : Int) < column + 1 := by omega
  have hshort : cs.length < length + 1 := by
    rw [List.length_cons] at hlength
    omega
  have hbehind := Place.after_of_ne (c := ' ') (by decide) p
  have hread := readPlain_line hindent hsolid h.toIsPlainLine (isGap_of_begins hc) hshort
    (p := p.after ' ') (by rw [hbehind, hfresh]; rfl) (by rw [hbehind]; dsimp only; omega)
  exact ⟨_, ready_behind (.inl rfl) _ n hnext,
    step_plain hp hc hcomma hread (Place.fresh_past_margin _ n)⟩

theorem takesFor_quoted (cs : List Char) (column : Nat) :
    TakesFor column (quoteScalar cs) .quoted (.ofList cs) := by
  intro length adjacent settled columns n next p hlength hnext hn hsolid hp hfresh
  have hshort : cs.length ≤ length := by
    have hwritten := length_le_written cs
    simp only [quoteScalar, List.length_cons, List.length_append] at hlength
    omega
  have hread := readQuoted_quoteScalar (column + 1) hshort (List.replicate n ' ' ++ next)
    (p.after ' ')
  exact ⟨_, ready_behind (.inr ⟨List.cons_ne_nil _ _, rfl⟩) _ n hnext,
    step_quoted hp (.inl rfl) hread hsolid⟩

theorem takesFor_loneMark {cs : List Char} (h : cs ∈ loneMarks) (column : Nat) :
    TakesFor column ('\'' :: (cs ++ ['\''])) .quoted (.ofList cs) := by
  intro length adjacent settled columns n next p hlength hnext hn hsolid hp hfresh
  have hread := readQuoted_loneMark (column + 1) length h (List.replicate n ' ' ++ next)
    (p.after ' ')
  exact ⟨_, ready_behind (.inr ⟨List.cons_ne_nil _ _, rfl⟩) _ n hnext,
    step_quoted hp (.inr rfl) hread hsolid⟩

theorem takesFor_folded {c : Char} {cs : List Char} {lines : List (List Char)}
    (hc : isBlank c = false) (hlines : ∀ line ∈ (c :: cs) :: lines, '\n' ∉ line) {column : Nat}
    {indent : Nat} (hindent : column < indent) :
    TakesFor column (writeBlock indent ['>', '-'] ((c :: cs) :: lines)) .block
      (.ofList (joinLines ((c :: cs) :: lines))) := by
  intro length adjacent settled columns n next p hlength hnext hn hsolid hp hfresh
  have hshort : lines.length ≤ length := by
    have hblock := length_le_writeBlock indent ['>', '-'] ((c :: cs) :: lines)
    rw [List.length_cons] at hblock
    omega
  have houter : (column : Int) < indent := Int.ofNat_lt.mpr hindent
  have hread := readBlock_folded houter (Nat.lt_of_le_of_lt hn hindent) hsolid hc hlines hshort
    (p.after ' ')
  rw [Place.past_append] at hread
  exact ⟨_, ready_behind (.inl rfl) _ n hnext, step_folded hp hread⟩

end Lexer

/-- Whether a text is written in lines, if it is written without line breaks of its own. -/
def isFolded (cs : List Char) : Bool := isPlainSafe cs && decide (lineWidth < cs.length)

/-- What a written text is read back as. -/
def reread (cs : List Char) : List Char :=
  if isFolded cs then joinLines (foldText 0 none [] cs) else cs

/-- Whether the lines of a text, if it is written in lines, begin with words. -/
def FoldsEvenly (cs : List Char) : Prop :=
  isFolded cs → ∀ line ∈ foldText 0 none [] cs, isFlush line

instance (cs : List Char) : Decidable (FoldsEvenly cs) := inferInstanceAs (Decidable (_ → _))

/-- The first line of a folded text begins with its first word. -/
theorem exists_foldText {c : Char} (hc : c ≠ ' ') (cs : List Char) :
    ∃ first lines, foldText 0 none [] (c :: cs) = (c :: first) :: lines := by
  obtain ⟨hne, hjoin⟩ := intercalate_foldText 0 none [] (c :: cs)
  obtain ⟨line, lines, hlines⟩ := List.exists_cons_of_ne_nil hne
  rw [hlines] at hjoin ⊢
  cases line with
  | nil =>
    cases lines with
    | nil => cases hjoin
    | cons second lines =>
      rw [List.intercalate_cons_cons] at hjoin
      exact absurd (List.cons.inj hjoin).1.symm hc
  | cons d ds =>
    rw [List.intercalate_cons_cons_left] at hjoin
    exact ⟨ds, lines, by rw [(List.cons.inj hjoin).1]⟩

theorem mem_of_mem_foldText {cs line : List Char} (hline : line ∈ foldText 0 none [] cs) {c : Char}
    (hc : c ∈ line) : c ∈ cs := by
  have hjoin := mem_intercalate [' '] hline hc
  rwa [(intercalate_foldText 0 none [] cs).2] at hjoin

theorem isFolded_of_length_le {cs : List Char} (h : cs.length ≤ lineWidth) :
    isFolded cs = false := by
  rw [isFolded, decide_eq_false (Nat.not_lt.mpr h), Bool.and_false]

/-- A text that is not long is written on its line. -/
theorem reread_of_length_le {cs : List Char} (h : cs.length ≤ lineWidth) : reread cs = cs :=
  if_neg (Bool.eq_false_iff.mp (isFolded_of_length_le h))

theorem FoldsEvenly.of_length_le {cs : List Char} (h : cs.length ≤ lineWidth) : FoldsEvenly cs :=
  fun hfolded => absurd hfolded (Bool.eq_false_iff.mp (isFolded_of_length_le h))

namespace IsTidy

variable {cs : List Char} (h : IsTidy cs)
include h

/-- What a text is written in lines as: the first one begins with a word. -/
theorem exists_lines (hsafe : isPlainSafe cs) :
    ∃ c first lines, foldText 0 none [] cs = (c :: first) :: lines ∧ isBlank c = false := by
  obtain ⟨c, ds, rfl, hc, -⟩ := (h.isPlainText hsafe).begins
  have hgap := isGap_of_begins hc
  rw [isGap, Bool.or_eq_false_iff] at hgap
  have hspace : c ≠ ' ' := by
    rintro rfl
    exact absurd hgap.1 (by decide)
  obtain ⟨first, lines, hlines⟩ := exists_foldText hspace ds
  exact ⟨c, first, lines, hlines, hgap.1⟩

theorem newline_not_mem_foldText : ∀ line ∈ foldText 0 none [] cs, '\n' ∉ line :=
  fun _ hline hmem => h.newline_not_mem (mem_of_mem_foldText hline hmem)

/-- The lines of a text that is written in lines: the first one begins with a word. -/
theorem exists_lines_of_isFolded (hfolded : isFolded cs) :
    ∃ first lines, foldText 0 none [] cs = first :: lines ∧ first ≠ [] ∧ isFlush first ∧
      [' '].intercalate (first :: lines) = cs := by
  obtain ⟨c, first, lines, hlines, hc⟩ := h.exists_lines (Bool.and_eq_true_iff.mp hfolded).1
  have hjoin := (intercalate_foldText 0 none [] cs).2
  rw [hlines] at hjoin
  refine ⟨c :: first, lines, hlines, List.cons_ne_nil _ _, ?_, hjoin⟩
  rw [isFlush, List.head?_cons, Option.any_some, hc]
  rfl

theorem reread_eq (heven : FoldsEvenly cs) : reread cs = cs := by
  rw [reread]
  by_cases hfolded : isFolded cs = true
  · obtain ⟨first, lines, hlines, -, -, htext⟩ := h.exists_lines_of_isFolded hfolded
    have hflush := heven hfolded
    rw [hlines] at hflush
    rw [if_pos hfolded, hlines,
      joinLines_of_flush _ fun line hl => hflush line (List.mem_cons_of_mem _ hl), htext]
  · rw [if_neg hfolded]

/-- A text in lines, not all of which begin with words, is read back with a line break. -/
theorem newline_mem_reread (huneven : ¬FoldsEvenly cs) : '\n' ∈ reread cs := by
  simp only [FoldsEvenly, Classical.not_imp, not_forall] at huneven
  obtain ⟨hfolded, line, hline, hflush⟩ := huneven
  obtain ⟨first, lines, hlines, hne, hfirst, htext⟩ := h.exists_lines_of_isFolded hfolded
  rw [hlines] at hline
  have hline : line ∈ lines := by
    cases hline with
    | head => exact absurd hfirst hflush
    | tail _ hline => exact hline
  -- The text ends in a word, and so its last line has one.
  have hlast : ∀ l ∈ lines.getLast?, l ≠ [] := by
    have hempty : [' '].intercalate (first :: lines) ≠ [] := by
      obtain ⟨c, cs, rfl⟩ := List.exists_cons_of_ne_nil hne
      rw [List.intercalate_cons_cons_left]
      exact List.cons_ne_nil _ _
    have hblank : ([' '].intercalate (first :: lines)).getLast? ≠ some ' ' := by
      rw [htext]
      exact fun hblank => absurd (h.trailing ' ' hblank) (by decide)
    have hall := ne_nil_of_mem_getLast hempty hblank
    rwa [List.getLast?_cons_of_ne_nil (List.ne_nil_of_mem hline)] at hall
  rw [reread, if_pos hfolded, hlines]
  exact List.mem_append_right _ (newline_mem_joinBehind false 0 hlast
    (.inr ⟨line, hline, Bool.eq_false_iff.mpr hflush⟩))

/-- Only a text in lines that do not begin with words is read back as another one. -/
theorem reread_eq_iff : reread cs = cs ↔ FoldsEvenly cs := by
  refine ⟨fun hread => ?_, h.reread_eq⟩
  by_contra huneven
  have hbreak := h.newline_mem_reread huneven
  rw [hread] at hbreak
  exact h.newline_not_mem hbreak

/-- A tidy text is taken for one scalar, and that stands for something. -/
theorem takesFor_writeScalar {column indent : Nat} (hindent : column < indent) :
    ∃ style, Lexer.TakesFor column (writeScalar indent cs) style (.ofList (reread cs)) ∧
      (Node.scalar style .untagged (.ofList (reread cs))).isAbsent = false := by
  rw [writeScalar, if_neg h.newline_not_mem, reread, isFolded]
  by_cases hlone : cs ∈ loneMarks
  · have hshort : ¬(isPlainSafe cs && decide (lineWidth < cs.length)) = true := by
      simp only [loneMarks, List.mem_cons, List.not_mem_nil, or_false] at hlone
      obtain rfl | rfl | rfl := hlone <;> simp [lineWidth]
    rw [if_pos hlone, if_neg hshort]
    exact ⟨.quoted, Lexer.takesFor_loneMark hlone column, rfl⟩
  · rw [if_neg hlone]
    by_cases hsafe : isPlainSafe cs = true
    · have hnull := isNullText_of_safe hsafe
      rw [hsafe, if_neg (by decide), Bool.true_and]
      by_cases hwide : lineWidth < cs.length
      · obtain ⟨c, first, lines, hlines, hc⟩ := h.exists_lines hsafe
        have hbreaks := h.newline_not_mem_foldText
        rw [if_pos hwide, if_pos (decide_eq_true hwide)]
        rw [hlines] at hbreaks ⊢
        exact ⟨.block, Lexer.takesFor_folded hc hbreaks hindent, by
          simp [Node.isAbsent, joinLines]⟩
      · rw [if_neg hwide, if_neg (by simpa using hwide)]
        exact ⟨.plain, Lexer.takesFor_plain (h.isPlainText hsafe) column, by
          rw [Node.isAbsent, hnull]
          simp only [Node.isNullText, Bool.or_eq_false_iff] at hnull
          rw [hnull.1.1]
          rfl⟩
    · rw [Bool.not_eq_true] at hsafe
      rw [hsafe, Bool.not_false, if_pos rfl, Bool.false_and, if_neg Bool.false_ne_true]
      exact ⟨.quoted, Lexer.takesFor_quoted cs column, rfl⟩

/-- Only line breaks are written that are not seen. -/
theorem isControl_of_mem_writeScalar (indent : Nat) :
    ∀ c ∈ writeScalar indent cs, c = '\n' ∨ isControl c = false := by
  intro c hmem
  rw [writeScalar, if_neg h.newline_not_mem] at hmem
  by_cases hlone : cs ∈ loneMarks
  · rw [if_pos hlone, List.mem_cons, List.mem_append, List.mem_singleton] at hmem
    obtain rfl | hc | rfl := hmem
    · exact .inr rfl
    · exact .inr (h.controls c hc)
    · exact .inr rfl
  · rw [if_neg hlone] at hmem
    by_cases hsafe : isPlainSafe cs = true
    · rw [hsafe, if_neg (by decide)] at hmem
      by_cases hwide : lineWidth < cs.length
      · rw [if_pos hwide, writeBlock, List.mem_append, List.mem_flatMap] at hmem
        obtain hheader | ⟨line, hline, hc⟩ := hmem
        · rw [List.mem_cons, List.mem_singleton] at hheader
          obtain rfl | rfl := hheader
          · exact .inr rfl
          · exact .inr rfl
        · rw [List.mem_cons, List.mem_append] at hc
          obtain hbreak | hspace | hc := hc
          · exact .inl hbreak
          · rw [List.eq_of_mem_replicate hspace]
            exact .inr rfl
          · exact .inr (h.controls c (mem_of_mem_foldText hline hc))
      · rw [if_neg hwide] at hmem
        exact .inr (h.controls c hmem)
    · rw [Bool.not_eq_true] at hsafe
      rw [hsafe, Bool.not_false, if_pos rfl, quoteScalar, List.mem_cons, List.mem_append,
        List.mem_singleton] at hmem
      obtain rfl | hc | rfl := hmem
      · exact .inr rfl
      · exact .inr (isControl_of_mem_written cs c hc)
      · exact .inr rfl

end IsTidy

end Schemata.Yaml
