import Schemata.Proofs.FirstFault
import Schemata.Proofs.Yaml.Places
import Schemata.Yaml.Plain
/-!
# Plain scalars on one line

A plain scalar ends at a colon with a gap behind it, at a comment, or where the lines below are not
indented. A text without the first two, on one line, is read as it is written.
-/

namespace Schemata.Yaml

/-- Whether no colon of a text has a gap behind it, or nothing. -/
def hasJoinedColons : List Char → Bool
  | [] => true
  | c :: cs => !(c = ':' && Cursor.isOpen cs) && hasJoinedColons cs

/-- A text that a plain scalar can hold on one line. -/
structure IsPlainLine (cs : List Char) : Prop where
  spaced : ∀ c ∈ cs, isGap c → c = ' '
  uncommented : '#' ∉ cs
  joined : hasJoinedColons cs
  closed : cs.getLast? ≠ some ' '

theorem hasJoinedColons_of_append {as bs : List Char} (h : hasJoinedColons (as ++ bs)) :
    hasJoinedColons bs := by
  induction as with
  | nil => exact h
  | cons a as ih =>
    rw [List.cons_append, hasJoinedColons, Bool.and_eq_true] at h
    exact ih h.2

theorem IsPlainLine.of_append {as bs : List Char} (h : IsPlainLine (as ++ bs)) :
    IsPlainLine bs where
  spaced c hc := h.spaced c (List.mem_append_right as hc)
  uncommented hc := h.uncommented (List.mem_append_right as hc)
  joined := hasJoinedColons_of_append h.joined
  closed hlast := h.closed (by rw [List.getLast?_append, hlast, Option.some_or])

theorem IsPlainLine.newline_not_mem {cs : List Char} (h : IsPlainLine cs) : '\n' ∉ cs :=
  fun hc => absurd (h.spaced _ hc rfl) (by decide)

/-- A gap in a line consists of spaces, and something stands behind it. -/
theorem IsPlainLine.exists_gap {c : Char} {cs : List Char} (h : IsPlainLine (c :: cs))
    (hc : isGap c = true) :
    ∃ gap d rest, c :: cs = gap ++ d :: rest ∧ (∀ c ∈ gap, c = ' ') ∧ isGap d = false := by
  induction cs generalizing c with
  | nil =>
    have hspace := h.spaced c List.mem_cons_self hc
    exact absurd (congrArg some hspace) h.closed
  | cons d cs ih =>
    have hspace := h.spaced c List.mem_cons_self hc
    by_cases hd : isGap d = true
    · have hline : IsPlainLine ([c] ++ d :: cs) := h
      obtain ⟨gap, e, rest, heq, hgap, he⟩ := ih hline.of_append hd
      refine ⟨c :: gap, e, rest, congrArg (c :: ·) heq, fun x hx => ?_, he⟩
      cases hx with
      | head => exact hspace
      | tail _ hx => exact hgap x hx
    · exact ⟨[c], d, cs, rfl, fun x hx => List.mem_singleton.mp hx ▸ hspace,
        Bool.not_eq_true _ ▸ hd⟩

/-- The first word of a line goes on to the first gap. -/
theorem plainWord_line {cs : List Char} (h : hasJoinedColons cs) (rest : List Char) :
    plainWord false (cs ++ '\n' :: rest) = cs.takeWhile (!isGap ·) := by
  induction cs with
  | nil => rfl
  | cons c cs ih =>
    rw [hasJoinedColons, Bool.and_eq_true] at h
    have hopen : Cursor.isOpen (cs ++ '\n' :: rest) = Cursor.isOpen cs := by
      cases cs <;> rfl
    have hc : isPlainChar false c (cs ++ '\n' :: rest) = true := by
      rw [isPlainChar, hopen, Bool.false_and, Bool.or_false, Bool.false_and, Bool.not_false,
        Bool.and_true]
      exact h.1
    rw [List.cons_append, plainWord, hc, ih h.2, List.takeWhile_cons]
    cases isGap c <;> rfl

/-- A word without colons ends at a colon with a gap behind it. -/
theorem plainWord_colon {cs rest : List Char} (hcs : ∀ c ∈ cs, isGap c = false ∧ c ≠ ':')
    (hrest : Cursor.isOpen rest) : plainWord false (cs ++ ':' :: rest) = cs := by
  induction cs with
  | nil =>
    have hcolon : isPlainChar false ':' rest = false := by rw [isPlainChar, hrest]; rfl
    rw [List.nil_append, plainWord, hcolon]
    rfl
  | cons c cs ih =>
    obtain ⟨hgap, hcolon⟩ := hcs c List.mem_cons_self
    have hc : isPlainChar false c (cs ++ ':' :: rest) = true := by
      rw [isPlainChar, decide_eq_false hcolon]
      rfl
    rw [List.cons_append, plainWord, hgap, hc, ih fun d hd => hcs d (List.mem_cons_of_mem c hd)]
    rfl

/-- Spaces in a plain scalar are kept between words, and forgotten behind a line break. -/
theorem plainGap_spaces (indent : Int) (breaks : Nat) (blanks : List Char) {gap rest : List Char}
    (hgap : ∀ c ∈ gap, c = ' ') (hrest : ∀ c ∈ rest.head?, isGap c = false) (p : Place) :
    plainGap indent breaks blanks false false p (gap ++ rest) =
      .ok (if breaks = 0 then blanks.reverse ++ gap else folded breaks, ⟨rest, p.past gap⟩) := by
  induction gap generalizing blanks p with
  | nil =>
    rw [List.append_nil, List.nil_append]
    cases rest with
    | nil => rfl
    | cons c rest =>
      have hc := hrest c rfl
      simp only [isGap, Bool.or_eq_false_iff, decide_eq_false_iff_not] at hc
      rw [plainGap, if_neg hc.2, if_neg Bool.false_ne_true,
        if_neg (by rw [hc.1]; exact Bool.false_ne_true), if_neg Bool.false_ne_true, Place.past_nil]
  | cons c gap ih =>
    obtain rfl := hgap c List.mem_cons_self
    have htail := ih (' ' :: blanks) (fun d hd => hgap d (List.mem_cons_of_mem _ hd)) (p.after ' ')
    rw [List.reverse_cons, List.append_assoc, List.singleton_append] at htail
    exact htail

/-- Behind the last line of a plain scalar its reader goes on to what stands next. -/
theorem plainGap_margin (indent : Int) (n : Nat) {rest : List Char}
    (hrest : ∀ c ∈ rest.head?, isGap c = false) (p : Place) :
    plainGap indent 0 [] false false p (margin n ++ rest) =
      .ok (folded 1, ⟨rest, p.past (margin n)⟩) :=
  plainGap_spaces indent 1 [] (fun _ hc => List.eq_of_mem_replicate hc) hrest (p.after '\n')

/-- A line that does not begin with a gap is a word and what is left behind it. -/
theorem IsPlainLine.exists_word {c : Char} {cs : List Char} (h : IsPlainLine (c :: cs))
    (hc : isGap c = false) :
    ∃ ds more, c :: cs = c :: ds ++ more ∧ (∀ d ∈ more.head?, isGap d = true) ∧
      ∀ rest, plainWord false (c :: ds ++ (more ++ '\n' :: rest)) = c :: ds := by
  have hword : (c :: cs).takeWhile (!isGap ·) = c :: cs.takeWhile (!isGap ·) := by
    rw [List.takeWhile_cons, hc]
    rfl
  have hsplit : c :: cs = c :: cs.takeWhile (!isGap ·) ++ (c :: cs).dropWhile (!isGap ·) := by
    rw [← hword, List.takeWhile_append_dropWhile]
  refine ⟨cs.takeWhile (!isGap ·), (c :: cs).dropWhile (!isGap ·), hsplit, fun d hd => ?_,
    fun rest => ?_⟩
  · have hhead := List.head?_dropWhile_not (!isGap ·) (c :: cs)
    rw [hd] at hhead
    simpa using hhead
  · rw [← List.append_assoc, ← hsplit, plainWord_line h.joined, hword]

/-- A scalar does not end in front of a character other than a comment, unless it stands first on its
line. -/
theorem endsPlain_cons {c : Char} (hc : c ≠ '#') (cs : List Char) {p : Place}
    (hp : p.fresh = false) : endsPlain ⟨c :: cs, p⟩ = false := by
  simp [endsPlain, Cursor.head?, Cursor.fresh, hc, hp]

/-- A reader takes a word, and then looks behind the gap that follows if there is one. -/
theorem readPlainFrom_word (indent : Int) (fuel : Nat) (gap : List Char) {word rest : List Char}
    {p : Place} (hends : endsPlain ⟨word ++ rest, p⟩ = false) (hne : word ≠ [])
    (hword : plainWord false (word ++ rest) = word) :
    readPlainFrom false indent (fuel + 1) gap ⟨word ++ rest, p⟩ =
      if rest.head?.any isGap then do
        let (next, t) ← plainGap indent 0 [] false false (p.past word) rest
        if (t.column : Int) < indent then return (gap ++ word, t)
        let (more, t) ← readPlainFrom false indent fuel next t
        return (gap ++ word ++ more, t)
      else .ok (gap ++ word, ⟨rest, p.past word⟩) := by
  have hempty : word.isEmpty = false := List.isEmpty_eq_false_iff.mpr hne
  rw [readPlainFrom, hends, if_neg Bool.false_ne_true]
  simp only [hword, hempty, Cursor.drop_append, Cursor.head?, Bool.false_and, Bool.false_eq_true,
    if_false, Bool.not_false, Bool.true_and, decide_eq_true_eq, Bool.not_eq_true']
  -- In a block, a dash may stand in front of anything.
  split <;> cases rest.head?.any isGap <;> rfl

/-- A line is read word by word, and what follows it is left alone if it is not indented. -/
theorem readPlainFrom_line {indent : Int} {n : Nat} (hn : (n : Int) < indent) {next : List Char}
    (hnext : IsSolid next) (fuel : Nat) {c : Char} {cs : List Char} (h : IsPlainLine (c :: cs))
    (hc : isGap c = false) (hfuel : cs.length < fuel) (gap : List Char)
    {p : Place} (hfresh : p.fresh = false) (hp : indent ≤ p.column) :
    readPlainFrom false indent fuel gap ⟨c :: cs ++ (margin n ++ next), p⟩ =
      .ok (gap ++ c :: cs, ⟨next, (p.past (c :: cs)).past (margin n)⟩) := by
  -- Each word takes one unit of fuel, and has one character at least.
  induction fuel generalizing c cs gap p with
  | zero => exact absurd hfuel (Nat.not_lt_zero _)
  | succ fuel ih =>
    have hcomment : c ≠ '#' := fun hc => h.uncommented (hc ▸ List.mem_cons_self)
    obtain ⟨ds, more, hcs, hmore, hword⟩ := h.exists_word hc
    have hends : endsPlain ⟨c :: ds ++ (more ++ (margin n ++ next)), p⟩ = false :=
      endsPlain_cons hcomment _ hfresh
    rw [hcs] at h ⊢
    rw [List.append_assoc, readPlainFrom_word indent fuel gap hends (List.cons_ne_nil c ds)
      (hword _)]
    cases more with
    | nil =>
      -- Behind the last word the reader finds what is not indented.
      have hlt : ((((p.past (c :: ds)).past (margin n)).column : Nat) : Int) < indent := by
        rwa [Place.column_past_margin]
      have hgap : ((margin n ++ next).head?.any isGap) = true := rfl
      simp only [List.nil_append, List.append_nil, hgap, if_true,
        plainGap_margin indent n fun c hc => (hnext c hc).1]
      exact if_pos hlt
    | cons d more =>
      -- A gap inside the line is kept, and the next word follows it on the same line.
      have hd := hmore d rfl
      obtain ⟨spaces, e, rest, heq, hspaces, he⟩ := h.of_append.exists_gap hd
      rw [heq] at h ⊢
      have hline : '\n' ∉ c :: ds ++ spaces := fun hx =>
        h.newline_not_mem (by rw [← List.append_assoc]; exact List.mem_append_left _ hx)
      have hcolumn : ¬((p.past (c :: ds ++ spaces)).column : Int) < indent := by
        rw [Place.column_past hline]
        omega
      have hlater : (p.past (c :: ds ++ spaces)).fresh = false := by
        rw [Place.fresh_past hline, hfresh, Bool.false_and]
      have hhead : ((spaces ++ e :: rest ++ (margin n ++ next)).head?.any isGap) = true := by
        rw [← heq]
        exact hd
      have hshort : rest.length < fuel := by
        have hlength := congrArg List.length (hcs.trans (congrArg (c :: ds ++ ·) heq))
        simp only [List.length_append, List.length_cons] at hlength
        omega
      have hsolid : ∀ x ∈ (e :: rest ++ (margin n ++ next)).head?, isGap x = false := by
        rintro _ ⟨⟩
        exact he
      have hgap := plainGap_spaces indent 0 [] hspaces hsolid (p.past (c :: ds))
      rw [Place.past_append] at hcolumn hlater
      have hmore := ih h.of_append.of_append he hshort spaces hlater (by omega)
      rw [if_pos hhead, List.append_assoc, hgap, ok_bind]
      simp only [Cursor.column, if_neg hcolumn, if_true, List.reverse_nil, List.nil_append, hmore,
        ok_bind, pure_eq_ok, List.append_assoc, Place.past_append]

/-- A text on one line is read as it is written. -/
theorem readPlain_line {indent : Int} {n : Nat} (hn : (n : Int) < indent) {next : List Char}
    (hnext : IsSolid next) {fuel : Nat} {c : Char} {cs : List Char} (h : IsPlainLine (c :: cs))
    (hc : isGap c = false) (hfuel : cs.length < fuel) {p : Place} (hfresh : p.fresh = false)
    (hp : indent ≤ p.column) :
    readPlain fuel false indent ⟨c :: cs ++ (margin n ++ next), p⟩ =
      .ok (.ofList (c :: cs), ⟨next, (p.past (c :: cs)).past (margin n)⟩) := by
  rw [readPlain, readPlainFrom_line hn hnext fuel h hc hfuel [] hfresh hp]
  rfl

/-- The name of a field, which is short enough to be found to be one. -/
structure IsFieldName (cs : List Char) : Prop where
  nonempty : cs ≠ []
  letters : ∀ c ∈ cs, c.isAlpha ∨ c = '_'
  short : cs.length ≤ 256

instance (cs : List Char) : Decidable (IsFieldName cs) :=
  decidable_of_iff (cs ≠ [] ∧ cs.all (fun c => c.isAlpha || c = '_') ∧ cs.length ≤ 256) <| by
    rw [List.all_eq_true]
    simp only [Bool.or_eq_true, decide_eq_true_eq]
    exact ⟨fun h => ⟨h.1, h.2.1, h.2.2⟩, fun h => ⟨h.nonempty, h.letters, h.short⟩⟩

/-- None of the characters that mean something to YAML is a letter. -/
theorem isGap_eq_false_of_letter {c : Char} (h : c.isAlpha ∨ c = '_') :
    isGap c = false ∧ c ≠ ':' ∧ c ≠ '#' ∧ c ≠ '-' ∧ c ≠ '.' := by
  refine ⟨Bool.eq_false_iff.mpr ?_, ?_, ?_, ?_, ?_⟩
  · intro hc
    simp only [isGap, isBlank, Bool.or_eq_true, decide_eq_true_eq] at hc
    obtain (rfl | rfl) | rfl := hc <;> exact absurd h (by decide)
  all_goals rintro rfl; exact absurd h (by decide)

namespace IsFieldName

variable {name : List Char} (h : IsFieldName name)
include h

theorem newline_not_mem : '\n' ∉ name :=
  fun hc => absurd (isGap_eq_false_of_letter (h.letters _ hc)).1 (by decide)

theorem isSolid_append (rest : List Char) : IsSolid (name ++ rest) := by
  obtain ⟨c, cs, rfl⟩ := List.exists_cons_of_ne_nil h.nonempty
  rintro _ ⟨⟩
  obtain ⟨hgap, -, hcomment, -⟩ := isGap_eq_false_of_letter (h.letters c List.mem_cons_self)
  exact ⟨hgap, hcomment⟩

theorem fresh_past (p : Place) : (p.past name).fresh = false := by
  obtain ⟨c, cs, rfl⟩ := List.exists_cons_of_ne_nil h.nonempty
  have hc := (isGap_eq_false_of_letter (h.letters c List.mem_cons_self)).1
  rw [isGap, Bool.or_eq_false_iff] at hc
  rw [Place.fresh_past h.newline_not_mem, List.all_cons, hc.1, Bool.false_and, Bool.and_false]

end IsFieldName

/-- The name of a field ends in front of the colon behind it. -/
theorem readPlain_fieldName (fuel : Nat) (indent : Int) {name rest : List Char}
    (h : IsFieldName name) (hrest : Cursor.isOpen rest) (p : Place) :
    readPlain (fuel + 1) false indent ⟨name ++ ':' :: rest, p⟩ =
      .ok (.ofList name, ⟨':' :: rest, p.past name⟩) := by
  have hword : plainWord false (name ++ ':' :: rest) = name :=
    plainWord_colon (fun c hc => ⟨(isGap_eq_false_of_letter (h.letters c hc)).1,
      (isGap_eq_false_of_letter (h.letters c hc)).2.1⟩) hrest
  have hends : endsPlain ⟨name ++ ':' :: rest, p⟩ = false := by
    obtain ⟨c, cs, rfl⟩ := List.exists_cons_of_ne_nil h.nonempty
    obtain ⟨-, -, hcomment, hdash, hdot⟩ :=
      isGap_eq_false_of_letter (h.letters c List.mem_cons_self)
    have htriple {x : Char} (hx : c ≠ x) :
        Cursor.atTriple ⟨c :: (cs ++ ':' :: rest), p⟩ x = false := by
      simp only [Cursor.atTriple]
      split
      · next heq => simp [← (List.cons.inj heq).1, hx]
      · rfl
    simp [endsPlain, Cursor.head?, hcomment, htriple hdash, htriple hdot]
  rw [readPlain, readPlainFrom_word indent fuel [] hends h.nonempty hword]
  simp [h.nonempty, isGap, isBlank]

end Schemata.Yaml
