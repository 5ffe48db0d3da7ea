import Schemata.Proofs.FirstFault
import Schemata.Proofs.Yaml.Places
import Schemata.Yaml.Block
import Schemata.Yaml.Writer
/-!
# Folded texts

A long text is written line by line, broken at spaces. Lines that begin with a word are joined with
spaces again; around a line that is empty or begins with a space, line breaks are read as such. So a
text comes back from its lines just if none of these begins with anything but a word.
-/

namespace Schemata.Yaml

/-- The lines of a folded block behind one of its lines: what they are read as, where the line
before them is indented further or not, and some blank lines have been passed. -/
def joinBehind (deeper : Bool) (blanks : Nat) : List (List Char) → List Char
  | [] => []
  | [] :: lines => joinBehind deeper (blanks + 1) lines
  | (c :: cs) :: lines =>
    blockJoint true true deeper (isBlank c) blanks ++ c :: cs ++ joinBehind (isBlank c) 0 lines

/-- What the lines of a folded block are read as, of which the first one begins with a word. -/
def joinLines : List (List Char) → List Char
  | [] => []
  | line :: lines => line ++ joinBehind false 0 lines

/-- Whether a line begins with a word. -/
def isFlush (line : List Char) : Bool := line.head?.any (!isBlank ·)

/-- The lines of a block from the first column of the first one on, up to what stands `n` columns in
below it. -/
def blockBody (indent n : Nat) : List (List Char) → List Char
  | [] => List.replicate n ' '
  | line :: lines => List.replicate indent ' ' ++ (line ++ '\n' :: blockBody indent n lines)

theorem writeBlock_append_margin (indent n : Nat) (header : List Char) (lines : List (List Char)) :
    writeBlock indent header lines ++ margin n = header ++ '\n' :: blockBody indent n lines := by
  rw [writeBlock, List.append_assoc]
  congr 1
  induction lines with
  | nil => rfl
  | cons line lines ih =>
    rw [List.flatMap_cons, List.append_assoc, ih]
    simp [blockBody]

/-- Each line of a block begins with the end of the line before it. -/
theorem length_le_writeBlock (indent : Nat) (header : List Char) (lines : List (List Char)) :
    lines.length ≤ (writeBlock indent header lines).length := by
  rw [writeBlock, List.length_append]
  refine Nat.le_trans ?_ (Nat.le_add_left _ _)
  induction lines with
  | nil => exact Nat.le_refl _
  | cons line lines ih =>
    rw [List.flatMap_cons, List.length_append, List.length_cons, List.length_cons]
    omega

namespace Cursor

theorem drop_spaces (n : Nat) (rest : List Char) (p : Place) :
    drop n ⟨List.replicate n ' ' ++ rest, p⟩ = ⟨rest, p.past (List.replicate n ' ')⟩ := by
  have h := drop_append (List.replicate n ' ') rest p
  rwa [List.length_replicate] at h

end Cursor

/-- The indentation of a line of a block is passed, and no more of it. -/
theorem drop_indent (indent : Nat) (rest : List Char) {p : Place} (hp : p.column = 0) :
    let s : Cursor := ⟨List.replicate indent ' ' ++ rest, p⟩
    s.drop (Nat.min (s.rest.takeWhile (· = ' ')).length (indent - s.column)) =
      ⟨rest, p.past (List.replicate indent ' ')⟩ := by
  intro s
  have hspaces : indent ≤ (s.rest.takeWhile (· = ' ')).length := by
    rw [List.takeWhile_append_of_pos fun c hc => decide_eq_true (List.eq_of_mem_replicate hc),
      List.length_append, List.length_replicate]
    exact Nat.le_add_right _ _
  have hcolumn : indent - s.column = indent := by
    rw [Cursor.column, hp, Nat.sub_zero]
  have hmin : Nat.min (s.rest.takeWhile (· = ' ')).length indent = indent :=
    Nat.min_eq_right hspaces
  rw [hcolumn, hmin, Cursor.drop_spaces]

theorem skipIndent_blank (indent fuel : Nat) (rest : List Char) {p : Place} (hp : p.column = 0) :
    skipIndent indent (fuel + 1) ⟨List.replicate indent ' ' ++ '\n' :: rest, p⟩ =
      let (breaks, s) := skipIndent indent fuel
        ⟨rest, p.past (List.replicate indent ' ' ++ ['\n'])⟩
      (breaks + 1, s) := by
  rw [skipIndent, drop_indent indent _ hp, Place.past_append]
  rfl

theorem skipIndent_content (indent fuel : Nat) {c : Char} (hc : c ≠ '\n') (rest : List Char)
    {p : Place} (hp : p.column = 0) :
    skipIndent indent (fuel + 1) ⟨List.replicate indent ' ' ++ c :: rest, p⟩ =
      (0, ⟨c :: rest, p.past (List.replicate indent ' ')⟩) := by
  rw [skipIndent, drop_indent indent _ hp]
  dsimp only
  split
  · next heq => exact absurd (List.cons.inj heq).1 hc
  · rfl

/-- What is left of the lines of a block is reached behind the spaces in front of it. -/
theorem skipIndent_behind {indent n : Nat} (hn : n < indent) (fuel : Nat) {next : List Char}
    (hnext : IsSolid next) {p : Place} (hp : p.column = 0) :
    skipIndent indent (fuel + 1) ⟨List.replicate n ' ' ++ next, p⟩ =
      (0, ⟨next, p.past (List.replicate n ' ')⟩) := by
  have hspaces : (List.replicate n ' ' ++ next).takeWhile (· = ' ') = List.replicate n ' ' := by
    refine takeWhile_append_of_head
      (fun c hc => decide_eq_true (List.eq_of_mem_replicate hc)) fun c hc => ?_
    have hgap := (hnext c hc).1
    simp only [isGap, isBlank, Bool.or_eq_false_iff] at hgap
    exact hgap.1.1
  have hmin : Nat.min n indent = n := Nat.min_eq_left (Nat.le_of_lt hn)
  rw [skipIndent]
  simp only [Cursor.column, hp, Nat.sub_zero, hspaces, List.length_replicate, hmin,
    Cursor.drop_spaces]
  split
  · exact absurd (hnext '\n' rfl).1 (by decide)
  · rfl

/-- A line with content is read up to its end. -/
theorem readBlockLines_cons {indent : Nat} (hindent : 0 < indent) (fuel : Nat) (last : BlockEnd)
    (deeper : Bool) {c : Char} {cs : List Char} (hcs : '\n' ∉ c :: cs) (rest : List Char)
    {p : Place} (hp : p.column = indent) :
    readBlockLines true indent (fuel + 1) last deeper ⟨c :: cs ++ '\n' :: rest, p⟩ =
      let (blanks, s) := skipIndent indent fuel ⟨rest, (p.past (c :: cs)).after '\n'⟩
      let (more, last', s) := readBlockLines true indent fuel ⟨true, blanks⟩ (isBlank c) s
      (blockJoint true last.broken deeper (isBlank c) last.blanks ++ c :: cs ++ more, last', s) := by
  have hspan : Cursor.span (· ≠ '\n') ⟨c :: cs ++ '\n' :: rest, p⟩ =
      (c :: cs, ⟨'\n' :: rest, p.past (c :: cs)⟩) :=
    Cursor.span_append (fun d hd => by simpa using ne_of_mem_of_not_mem hd hcs)
      (fun d hd => by cases hd; rfl) p
  rw [readBlockLines]
  simp only [Cursor.column, hp, hspan]
  simp [Nat.ne_of_gt hindent, Cursor.head?]

/-- The lines of a block are joined up to what stands next, whose margin is left of theirs. -/
theorem readBlockLines_body {indent n : Nat} (hn : n < indent) {next : List Char}
    (hnext : IsSolid next) {lines : List (List Char)} (hlines : ∀ line ∈ lines, '\n' ∉ line)
    {fuel fuel' : Nat} (hfuel : lines.length < fuel) (hfuel' : lines.length < fuel')
    (deeper : Bool) (blanks : Nat) {p : Place} (hp : p.column = 0) :
    let s := skipIndent indent fuel ⟨blockBody indent n lines ++ next, p⟩
    ∃ last, readBlockLines true indent fuel' ⟨true, blanks + s.1⟩ deeper s.2 =
      (joinBehind deeper blanks lines, last, ⟨next, p.past (blockBody indent n lines)⟩) := by
  induction lines generalizing fuel fuel' deeper blanks p with
  | nil =>
    obtain ⟨fuel, rfl⟩ := Nat.exists_eq_add_one.mpr hfuel
    obtain ⟨fuel', rfl⟩ := Nat.exists_eq_add_one.mpr hfuel'
    -- The text goes on at a smaller column, and that ends the block.
    have hcolumn : (p.past (List.replicate n ' ')).column ≠ indent := by
      rw [Place.column_past (newline_not_mem_spaces n), hp, List.length_replicate]
      omega
    rw [blockBody, skipIndent_behind hn fuel hnext hp]
    refine ⟨⟨true, blanks⟩, ?_⟩
    rw [readBlockLines]
    simp [Cursor.column, hcolumn, joinBehind]
  | cons line lines ih =>
    obtain ⟨fuel, rfl⟩ := Nat.exists_eq_add_one.mpr (Nat.zero_lt_of_lt hfuel)
    have htail : ∀ line ∈ lines, '\n' ∉ line := fun l hl => hlines l (List.mem_cons_of_mem _ hl)
    have hindent : '\n' ∉ List.replicate indent ' ' := newline_not_mem_spaces indent
    rw [List.length_cons] at hfuel hfuel'
    cases line with
    | nil =>
      -- A blank line counts for the joint in front of the next line that is not.
      have hnewline : (p.past (List.replicate indent ' ' ++ ['\n'])).column = 0 := by
        rw [Place.past_append]
        rfl
      have hshort : lines.length < fuel := by omega
      obtain ⟨last, hread⟩ := ih htail hshort (Nat.lt_of_succ_lt hfuel') deeper (blanks + 1) hnewline
      refine ⟨last, ?_⟩
      simp only [blockBody, List.append_assoc, List.nil_append, List.cons_append,
        skipIndent_blank indent fuel _ hp]
      rw [Nat.add_right_comm, Nat.add_assoc] at hread
      simp only [hread]
      simp [joinBehind]
    | cons c cs =>
      obtain ⟨fuel', rfl⟩ := Nat.exists_eq_add_one.mpr (Nat.zero_lt_of_lt hfuel')
      have hc : c ≠ '\n' := fun h => hlines _ List.mem_cons_self (h ▸ List.mem_cons_self)
      have hcolumn : (p.past (List.replicate indent ' ')).column = indent := by
        rw [Place.column_past hindent, hp, Nat.zero_add, List.length_replicate]
      have hshort : lines.length < fuel' := by omega
      obtain ⟨last, hread⟩ := ih htail hshort hshort (isBlank c) 0
        (p := ((p.past (List.replicate indent ' ')).past (c :: cs)).after '\n') rfl
      refine ⟨last, ?_⟩
      have hline := readBlockLines_cons (Nat.zero_lt_of_lt hn) fuel' ⟨true, blanks⟩ deeper
        (hlines _ List.mem_cons_self) (blockBody indent n lines ++ next) hcolumn
      simp only [Nat.zero_add] at hread
      simp only [hread] at hline
      simp only [blockBody, List.append_assoc, List.cons_append,
        skipIndent_content indent fuel hc _ hp, Nat.add_zero]
      rw [List.cons_append] at hline
      rw [hline]
      simp [joinBehind]

/-- The first line of a block says how deep it is indented. -/
theorem findIndent_content (indent fuel : Nat) {c : Char} (hspace : c ≠ ' ') (hc : c ≠ '\n')
    (rest : List Char) {p : Place} (hp : p.column = 0) :
    findIndent (fuel + 1) ⟨List.replicate indent ' ' ++ c :: rest, p⟩ =
      (0, indent, ⟨c :: rest, p.past (List.replicate indent ' ')⟩) := by
  have hspan : Cursor.span (· = ' ') ⟨List.replicate indent ' ' ++ c :: rest, p⟩ =
      (List.replicate indent ' ', ⟨c :: rest, p.past (List.replicate indent ' ')⟩) :=
    Cursor.span_append (fun d hd => decide_eq_true (List.eq_of_mem_replicate hd))
      (fun d hd => by cases hd; exact decide_eq_false hspace) p
  have hcolumn : (p.past (List.replicate indent ' ')).column = indent := by
    rw [Place.column_past (newline_not_mem_spaces indent), hp, Nat.zero_add,
      List.length_replicate]
  rw [findIndent]
  simp only [hspan, Cursor.column, hcolumn]
  split
  · next heq => exact absurd (List.cons.inj heq).1 hc
  · rfl

/-- A folded block without line breaks at its end is its lines, indented as deep as the first. -/
theorem readBlock_strip (fuel : Nat) {outer : Int} {indent : Nat} (houter : outer < indent)
    {rest : List Char} (htab : rest.head? ≠ some '\t') {p : Place} {t : Cursor}
    (hfound : findIndent (2 * fuel + 2) ⟨rest, p.past ['>', '-', '\n']⟩ = (0, indent, t))
    (ht : t.rest.isEmpty = false) (hcolumn : t.column = indent) :
    readBlock fuel outer ⟨'>' :: '-' :: '\n' :: rest, p⟩ =
      let (text, _, u) := readBlockLines true indent (2 * fuel + 2) ⟨false, 0⟩ false t
      .ok (.ofList text, u) := by
  have hheader : BlockHeader.ofChars true ('-' :: '\n' :: rest) = (⟨true, .strip, none⟩, 1) := rfl
  have hskip : Cursor.skipBlanks true (Cursor.drop (1 + 1) ⟨'>' :: '-' :: '\n' :: rest, p⟩) =
      .ok ([], ⟨'\n' :: rest, p.past ['>', '-']⟩) := rfl
  have hbreak : Cursor.atBreak ⟨'\n' :: rest, p.past ['>', '-']⟩ = true := rfl
  have hindent : Nat.max indent (outer + 1).toNat = indent := Nat.max_eq_left (by omega)
  have hbody : Cursor.drop 1 ⟨'\n' :: rest, p.past ['>', '-']⟩ =
      ⟨rest, p.past ['>', '-', '\n']⟩ := rfl
  rw [readBlock]
  simp only [Cursor.head?, List.head?_cons, decide_true, List.drop_one, List.tail_cons, hheader,
    hskip, ok_bind, hbreak, hbody, if_true, if_neg htab, hfound, hindent, ht, hcolumn,
    Nat.lt_irrefl, false_and, if_false, Bool.false_eq_true, blockEnding, List.append_nil]
  rfl

/-- A folded block is read as its lines come to, up to what stands next on the left of it. -/
theorem readBlock_folded {outer : Int} {indent n : Nat} (houter : outer < indent)
    (hn : n < indent) {next : List Char} (hnext : IsSolid next) {c : Char} {cs : List Char}
    {lines : List (List Char)} (hc : isBlank c = false)
    (hlines : ∀ line ∈ (c :: cs) :: lines, '\n' ∉ line) {fuel : Nat} (hfuel : lines.length ≤ fuel)
    (p : Place) :
    readBlock fuel outer
        ⟨writeBlock indent ['>', '-'] ((c :: cs) :: lines) ++ (margin n ++ next), p⟩ =
      .ok (.ofList (joinLines ((c :: cs) :: lines)),
        ⟨next, p.past (writeBlock indent ['>', '-'] ((c :: cs) :: lines) ++ margin n)⟩) := by
  have hnewline : c ≠ '\n' := fun h => hlines _ List.mem_cons_self (h ▸ List.mem_cons_self)
  have hspace : c ≠ ' ' := by
    rintro rfl
    exact absurd hc (by decide)
  have hcolumn : ((p.past ['>', '-', '\n']).past (List.replicate indent ' ')).column = indent := by
    rw [Place.column_past (newline_not_mem_spaces indent), List.length_replicate]
    exact Nat.zero_add indent
  have htab : (List.replicate indent ' ' ++
      c :: (cs ++ '\n' :: (blockBody indent n lines ++ next))).head? ≠ some '\t' := by
    obtain ⟨k, rfl⟩ := Nat.exists_eq_add_one.mpr (Nat.zero_lt_of_lt hn)
    simp [List.replicate_succ]
  have hfound := findIndent_content indent (2 * fuel + 1) hspace hnewline
    (cs ++ '\n' :: (blockBody indent n lines ++ next)) (p := p.past ['>', '-', '\n']) rfl
  have htext : writeBlock indent ['>', '-'] ((c :: cs) :: lines) ++ (margin n ++ next) =
      '>' :: '-' :: '\n' :: (List.replicate indent ' ' ++
        c :: (cs ++ '\n' :: (blockBody indent n lines ++ next))) := by
    rw [← List.append_assoc, writeBlock_append_margin]
    simp [blockBody]
  have hfirst := readBlockLines_cons (Nat.zero_lt_of_lt hn) (2 * fuel + 1) ⟨false, 0⟩ false
    (hlines _ List.mem_cons_self) (blockBody indent n lines ++ next) hcolumn
  have hshort : lines.length < 2 * fuel + 1 := by omega
  obtain ⟨last, hread⟩ := readBlockLines_body hn hnext
    (fun line hl => hlines line (List.mem_cons_of_mem _ hl)) hshort hshort false 0
    (p := (((p.past ['>', '-', '\n']).past (List.replicate indent ' ')).past (c :: cs)).after '\n')
    rfl
  simp only [Nat.zero_add] at hread
  simp only [hc, hread] at hfirst
  rw [List.cons_append] at hfirst
  rw [htext, readBlock_strip fuel houter htab hfound rfl hcolumn, hfirst,
    writeBlock_append_margin]
  simp [blockBody, blockJoint, joinLines]

/-- A text is broken at spaces, and at nothing else. -/
theorem intercalate_foldText (column : Nat) (held : Option (List Char)) (word cs : List Char) :
    foldText column held word cs ≠ [] ∧
      [' '].intercalate (foldText column held word cs) = foldText.line held word ++ cs := by
  induction cs generalizing column held word with
  | nil =>
    rw [foldText, List.intercalate_singleton, List.append_nil]
    exact ⟨List.cons_ne_nil _ _, rfl⟩
  | cons c cs ih =>
    have hbreak (ended word : List Char) :
        [' '].intercalate (ended :: foldText 0 none word cs) = ended ++ ' ' :: (word ++ cs) := by
      rw [List.intercalate_cons_of_ne_nil (ih 0 none word).1, (ih 0 none word).2,
        List.append_assoc]
      rfl
    rw [foldText]
    by_cases hc : c = ' '
    · -- At a space the line so far could end.
      subst hc
      by_cases hcolumn : lineWidth ≤ column
      · simp only [if_true, if_pos hcolumn]
        exact ⟨List.cons_ne_nil _ _, hbreak _ _⟩
      · simp only [if_true, if_neg hcolumn]
        refine ⟨(ih _ _ _).1, (ih _ _ _).2.trans ?_⟩
        simp [foldText.line]
    · simp only [if_neg hc]
      cases held with
      | none =>
        refine ⟨(ih _ _ _).1, (ih _ _ _).2.trans ?_⟩
        simp [foldText.line]
      | some held =>
        by_cases hcolumn : lineWidth ≤ column
        · simp only [if_pos hcolumn]
          refine ⟨List.cons_ne_nil _ _, (hbreak _ _).trans ?_⟩
          simp [foldText.line]
        · simp only [if_neg hcolumn]
          refine ⟨(ih _ _ _).1, (ih _ _ _).2.trans ?_⟩
          simp [foldText.line]

/-- Lines that begin with words are joined with spaces. -/
theorem joinLines_of_flush (first : List Char) {lines : List (List Char)}
    (hlines : ∀ line ∈ lines, isFlush line) :
    joinLines (first :: lines) = [' '].intercalate (first :: lines) := by
  induction lines generalizing first with
  | nil => rw [joinLines, joinBehind, List.append_nil, List.intercalate_singleton]
  | cons line lines ih =>
    have hrest := ih line fun l hl => hlines l (List.mem_cons_of_mem _ hl)
    rw [List.intercalate_cons_cons, ← hrest, List.append_assoc]
    cases line with
    | nil => exact absurd (hlines [] List.mem_cons_self) (by decide)
    | cons c cs =>
      have hc : isBlank c = false := by
        have hflush := hlines _ List.mem_cons_self
        simpa [isFlush] using hflush
      rw [joinLines, joinLines, joinBehind, hc]
      rfl

/-- A joint at a line that is indented further, or behind blank lines, has a line break. -/
theorem newline_mem_blockJoint {deeperBefore deeper : Bool} {blanks : Nat}
    (h : deeperBefore ∨ deeper ∨ 0 < blanks) :
    '\n' ∈ blockJoint true true deeperBefore deeper blanks := by
  have hfolded (hblanks : 0 < blanks) : '\n' ∈ folded (blanks + 1) := by
    rw [folded, if_neg (by omega), List.mem_replicate]
    exact ⟨by omega, rfl⟩
  cases deeperBefore <;> cases deeper <;> simp_all [blockJoint]

/-- A line that does not begin with a word leaves a line break, unless nothing follows it. -/
theorem newline_mem_joinBehind (deeper : Bool) (blanks : Nat) {lines : List (List Char)}
    (hlast : ∀ line ∈ lines.getLast?, line ≠ [])
    (h : lines ≠ [] ∧ (deeper ∨ 0 < blanks) ∨ ∃ line ∈ lines, isFlush line = false) :
    '\n' ∈ joinBehind deeper blanks lines := by
  induction lines generalizing deeper blanks with
  | nil =>
    obtain ⟨hne, -⟩ | ⟨_, hline, -⟩ := h
    · exact absurd rfl hne
    · cases hline
  | cons line lines ih =>
    have hlast' (hne : lines ≠ []) : ∀ line ∈ lines.getLast?, line ≠ [] := by
      rwa [List.getLast?_cons_of_ne_nil hne] at hlast
    cases line with
    | nil =>
      have hne : lines ≠ [] := by
        rintro rfl
        exact hlast [] rfl rfl
      exact ih _ _ (hlast' hne) (.inl ⟨hne, .inr (Nat.succ_pos _)⟩)
    | cons c cs =>
      rw [joinBehind, List.mem_append, List.mem_append]
      by_cases hjoint : deeper ∨ isBlank c ∨ 0 < blanks
      · exact .inl (.inl (newline_mem_blockJoint hjoint))
      · simp only [not_or] at hjoint
        obtain ⟨-, hready⟩ | ⟨line, hline, hflush⟩ := h
        · exact absurd hready (not_or.mpr ⟨hjoint.1, hjoint.2.2⟩)
        · cases hline with
          | head => exact absurd hflush (by simpa [isFlush] using hjoint.2.1)
          | tail _ hline =>
            exact .inr (ih _ _ (hlast' (List.ne_nil_of_mem hline)) (.inr ⟨line, hline, hflush⟩))

/-- A text that does not end in a space has no blank line at its end. -/
theorem ne_nil_of_mem_getLast {lines : List (List Char)} (hne : [' '].intercalate lines ≠ [])
    (hlast : ([' '].intercalate lines).getLast? ≠ some ' ') :
    ∀ line ∈ lines.getLast?, line ≠ [] := by
  induction lines with
  | nil => exact fun _ h => nomatch h
  | cons first lines ih =>
    cases lines with
    | nil =>
      rintro _ ⟨⟩ rfl
      exact hne rfl
    | cons second lines =>
      rw [List.intercalate_cons_cons] at hlast
      have hrest : [' '].intercalate (second :: lines) ≠ [] := by
        intro h
        rw [h, List.append_nil, List.getLast?_concat] at hlast
        exact hlast rfl
      rw [List.getLast?_append_of_ne_nil _ hrest] at hlast
      rw [List.getLast?_cons_cons]
      exact ih hrest hlast

end Schemata.Yaml
