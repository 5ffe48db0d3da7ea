import Schemata.Proofs.FirstFault
import Schemata.Proofs.Yaml.Places
import Schemata.Yaml.Quoted
import Schemata.Yaml.Writer
/-!
# Quoted scalars on one line

Whatever a text contains, it is read back from between its quotes: each escape is read as the
character that it was written for, and spaces are kept where no line ends.
-/

namespace Schemata.Yaml

theorem hexValue?_digit {n : Nat} (hn : n < 16) :
    hexValue? (Nat.digitChar n).toUpper = some n := by
  decide +revert

/-- The two digits of a control character write its code. -/
theorem hexNumber?_control {n : Nat} (hn : n < 256) :
    hexNumber? [(Nat.digitChar (n / 16)).toUpper, (Nat.digitChar (n % 16)).toUpper] = some n := by
  have hhigh : hexValue? (Nat.digitChar (n / 16)).toUpper = some (n / 16) :=
    hexValue?_digit (by omega)
  have hlow : hexValue? (Nat.digitChar (n % 16)).toUpper = some (n % 16) :=
    hexValue?_digit (by omega)
  have hdigits : 16 * (16 * 0 + n / 16) + n % 16 = n := by omega
  simp only [hexNumber?, List.foldlM, hhigh, hlow, Option.map_some]
  exact congrArg some hdigits

/-- A character that stands for itself between double quotes. -/
theorem quotedRun_plain {c : Char} (hgap : isGap c = false) (hquote : c ≠ '"') (hslash : c ≠ '\\')
    (fuel : Nat) (rest : List Char) (p : Place) :
    quotedRun '"' (fuel + 1) ⟨c :: rest, p⟩ = (do
      let (run, broken, s) ← quotedRun '"' fuel ⟨rest, p.after c⟩
      return (c :: run, broken, s)) := by
  rw [quotedRun]
  simp only [hgap, hquote, hslash, false_and, if_false, Bool.false_eq_true, Cursor.drop_one]

/-- A character that is written by its code. -/
theorem quotedRun_control {c : Char} (hc : isControl c) (fuel : Nat) (rest : List Char)
    (p : Place) :
    let digit (n : Nat) : Char := (Nat.digitChar n).toUpper
    let written := ['\\', 'x', digit (c.toNat / 16), digit (c.toNat % 16)]
    quotedRun '"' (fuel + 1) ⟨written ++ rest, p⟩ = (do
      let (run, broken, s) ← quotedRun '"' fuel ⟨rest, p.past written⟩
      return (c :: run, broken, s)) := by
  intro digit written
  have hsmall : c.toNat < 256 := by
    simp only [isControl, Bool.or_eq_true, Bool.and_eq_true, decide_eq_true_eq] at hc
    omega
  have hescape : readEscape ⟨written ++ rest, p⟩ = .ok (c, ⟨rest, p.past written⟩) := by
    have hcode : readCode 2 (Cursor.drop 2 ⟨written ++ rest, p⟩) =
        .ok (c.toNat, ⟨rest, p.past written⟩) := by
      simp only [readCode, written, digit, Cursor.drop, List.cons_append, List.nil_append, List.take,
        hexNumber?_control hsmall, List.length_cons, List.length_nil, if_true, Place.past_cons,
        Place.past_nil]
    have hvalid : c.toNat.isValidChar := c.valid
    have hcoded : readCoded 2 (Cursor.drop 2 ⟨written ++ rest, p⟩) =
        .ok (c, ⟨rest, p.past written⟩) := by
      rw [readCoded, hcode, ok_bind]
      simp [hvalid, Char.ofNat_toNat]
    exact hcoded
  have hrun : quotedRun '"' (fuel + 1) ⟨written ++ rest, p⟩ =
      (readEscape ⟨written ++ rest, p⟩ >>= fun read => do
        let (run, broken, s) ← quotedRun '"' fuel read.2
        return (read.1 :: run, broken, s)) := rfl
  rw [hrun, hescape, ok_bind]

/-- A character that is written between double quotes is read as itself, spaces apart. -/
theorem quotedRun_escapeQuoted {c : Char} (hc : c ≠ ' ') (fuel : Nat) (rest : List Char)
    (p : Place) :
    quotedRun '"' (fuel + 1) ⟨escapeQuoted c ++ rest, p⟩ = (do
      let (run, broken, s) ← quotedRun '"' fuel ⟨rest, p.past (escapeQuoted c)⟩
      return (c :: run, broken, s)) := by
  unfold escapeQuoted
  split
  case h_16 hslash hquote _ _ _ htab hnewline _ _ _ _ _ _ _ _ =>
    split
    · next hcontrol => exact quotedRun_control hcontrol fuel rest p
    · have hgap : isGap c = false := by
        simp [isGap, isBlank, hc, show c ≠ '\t' from htab, show c ≠ '\n' from hnewline]
      exact quotedRun_plain hgap hquote hslash fuel rest p
  all_goals rfl

/-- A run of characters without spaces, up to a space or the closing quote. -/
theorem quotedRun_written {cs : List Char} (hcs : ' ' ∉ cs) {d : Char} (hd : d = ' ' ∨ d = '"')
    {fuel : Nat} (hfuel : cs.length < fuel) (rest : List Char) (p : Place) :
    quotedRun '"' fuel ⟨cs.flatMap escapeQuoted ++ d :: rest, p⟩ =
      .ok (cs, false, ⟨d :: rest, p.past (cs.flatMap escapeQuoted)⟩) := by
  induction cs generalizing fuel p with
  | nil =>
    obtain ⟨fuel, rfl⟩ := Nat.exists_eq_add_one.mpr hfuel
    obtain rfl | rfl := hd <;> rfl
  | cons c cs ih =>
    obtain ⟨fuel, rfl⟩ := Nat.exists_eq_add_one.mpr (Nat.zero_lt_of_lt hfuel)
    rw [List.mem_cons, not_or] at hcs
    rw [List.flatMap_cons, List.append_assoc, quotedRun_escapeQuoted (Ne.symm hcs.1),
      ih hcs.2 (Nat.lt_of_succ_lt_succ hfuel), ok_bind, Place.past_append]
    rfl

/-- Spaces inside a line are kept. -/
theorem quotedGap_spaces (indent : Int) (blanks : List Char) {gap rest : List Char}
    (hgap : ∀ c ∈ gap, c = ' ') (hrest : ∀ c ∈ rest.head?, isGap c = false) (p : Place) :
    quotedGap indent false 0 blanks p (gap ++ rest) =
      .ok (blanks.reverse ++ gap, 0, ⟨rest, p.past gap⟩) := by
  induction gap generalizing blanks p with
  | nil =>
    rw [List.append_nil, List.nil_append]
    cases rest with
    | nil => rfl
    | cons c rest =>
      have hc := hrest c rfl
      simp only [isGap, Bool.or_eq_false_iff, decide_eq_false_iff_not] at hc
      rw [quotedGap, if_neg hc.2, if_neg (by rw [hc.1]; exact Bool.false_ne_true)]
      rfl
  | cons c gap ih =>
    obtain rfl := hgap c List.mem_cons_self
    have htail := ih (' ' :: blanks) (fun d hd => hgap d (List.mem_cons_of_mem _ hd)) (p.after ' ')
    rw [List.reverse_cons, List.append_assoc, List.singleton_append] at htail
    exact htail

/-- Characters that are not seen are written as escapes. -/
theorem any_isControl_escapeQuoted (c : Char) : (escapeQuoted c).any isControl = false := by
  unfold escapeQuoted
  split
  case h_16 =>
    split
    · next hcontrol =>
      have hdigit (n : Nat) (hn : n < 16) : isControl (Nat.digitChar n).toUpper = false := by
        decide +revert
      have hsmall : c.toNat < 256 := by
        simp only [isControl, Bool.or_eq_true, Bool.and_eq_true, decide_eq_true_eq] at hcontrol
        omega
      have hfront : isControl '\\' = false ∧ isControl 'x' = false := by decide
      simp [hfront, hdigit _ (show c.toNat / 16 < 16 by omega), hdigit (c.toNat % 16) (by omega)]
    · next hcontrol =>
      rw [List.any_cons, List.any_nil, Bool.or_false]
      exact Bool.eq_false_iff.mpr hcontrol
  all_goals decide

theorem isControl_of_mem_written (cs : List Char) :
    ∀ d ∈ cs.flatMap escapeQuoted, isControl d = false := by
  intro d hd
  obtain ⟨c, -, hd⟩ := List.mem_flatMap.mp hd
  exact Bool.eq_false_iff.mpr (List.any_eq_false.mp (any_isControl_escapeQuoted c) d hd)

/-- Line breaks are written as escapes. -/
theorem newline_not_mem_written (cs : List Char) : '\n' ∉ cs.flatMap escapeQuoted :=
  fun h => absurd (isControl_of_mem_written cs _ h) (by decide)

/-- A character other than a space is not written with a gap in front. -/
theorem exists_escapeQuoted {c : Char} (hc : c ≠ ' ') :
    ∃ d ds, escapeQuoted c = d :: ds ∧ isGap d = false := by
  unfold escapeQuoted
  split
  case h_16 htab hnewline _ _ _ _ _ _ _ _ =>
    split
    · exact ⟨_, _, rfl, rfl⟩
    · exact ⟨c, [], rfl, by
        simp [isGap, isBlank, hc, show c ≠ '\t' from htab, show c ≠ '\n' from hnewline]⟩
  all_goals exact ⟨_, _, rfl, rfl⟩

/-- No character is written as nothing. -/
theorem length_le_written (cs : List Char) : cs.length ≤ (cs.flatMap escapeQuoted).length := by
  induction cs with
  | nil => exact Nat.le_refl _
  | cons c cs ih =>
    have hpos : 0 < (escapeQuoted c).length := by
      by_cases hc : c = ' '
      · subst hc
        exact Nat.one_pos
      · obtain ⟨d, ds, heq, -⟩ := exists_escapeQuoted hc
        rw [heq]
        exact Nat.succ_pos _
    rw [List.flatMap_cons, List.length_append, List.length_cons]
    omega

/-- What stands next behind a gap is no gap, be it a character or the closing quote. -/
theorem head_written {cs : List Char} (hcs : ∀ c ∈ cs.head?, c ≠ ' ') (rest : List Char) :
    ∀ d ∈ (cs.flatMap escapeQuoted ++ '"' :: rest).head?, isGap d = false := by
  cases cs with
  | nil =>
    rintro _ ⟨⟩
    rfl
  | cons c cs =>
    obtain ⟨d, ds, heq, hd⟩ := exists_escapeQuoted (hcs c rfl)
    rw [List.flatMap_cons, heq]
    rintro _ ⟨⟩
    exact hd

/-- A text is a run without spaces, and then a gap and what stands behind it. -/
theorem exists_run (cs : List Char) :
    ∃ run gap rest, cs = run ++ (gap ++ rest) ∧ ' ' ∉ run ∧ (∀ c ∈ gap, c = ' ') ∧
      (∀ c ∈ rest.head?, c ≠ ' ') ∧ (gap = [] → rest = []) := by
  induction cs with
  | nil => exact ⟨[], [], [], rfl, List.not_mem_nil, by simp, by simp, fun _ => rfl⟩
  | cons c cs ih =>
    obtain ⟨run, gap, rest, rfl, hrun, hgap, hrest, hend⟩ := ih
    by_cases hc : c = ' '
    · subst hc
      cases run with
      | nil => 
        refine ⟨[], ' ' :: gap, rest, rfl, hrun, ?_, hrest, fun h => nomatch h⟩
        simpa using hgap
      | cons d run =>
        refine ⟨[], [' '], d :: run ++ (gap ++ rest), rfl, List.not_mem_nil, by simp, ?_,
          fun h => nomatch h⟩
        rintro _ ⟨⟩ rfl
        exact hrun List.mem_cons_self
    · refine ⟨c :: run, gap, rest, rfl, ?_, hgap, hrest, hend⟩
      rw [List.mem_cons, not_or]
      exact ⟨Ne.symm hc, hrun⟩

theorem flatMap_escapeQuoted_spaces {gap : List Char} (h : ∀ c ∈ gap, c = ' ') :
    gap.flatMap escapeQuoted = gap := by
  induction gap with
  | nil => rfl
  | cons c gap ih =>
    rw [List.flatMap_cons, ih fun d hd => h d (List.mem_cons_of_mem c hd),
      h c List.mem_cons_self]
    rfl

/-- A reader takes a run, and then goes on behind the gap that follows if there is one. -/
theorem readQuotedFrom_run (indent : Int) {fuel : Nat} {s t u : Cursor} {run gap : List Char}
    (hs : s.rest.isEmpty = false) (hmarks : s.atDocumentMarks = false)
    (hrun : quotedRun '"' (fuel + 1) s = .ok (run, false, t))
    (hgap : quotedGap indent false 0 [] t.place t.rest = .ok (gap, 0, u)) :
    readQuotedFrom '"' false indent (fuel + 1) s =
      if t.head? = some '"' then .ok (run, t.drop 1)
      else do
        let (more, u) ← readQuotedFrom '"' false indent fuel u
        return (run ++ gap ++ more, u) := by
  rw [readQuotedFrom, hs, hmarks]
  simp only [Bool.or_self, Bool.false_eq_true, if_false, hrun, ok_bind, Bool.not_false,
    Bool.and_true, decide_eq_true_eq, hgap, Nat.lt_irrefl, decide_false, Bool.and_false,
    Bool.false_and]
  rfl

/-- What is written between double quotes is read back run by run. -/
theorem readQuotedFrom_written (indent : Int) (fuel : Nat) {cs : List Char}
    (hfuel : cs.length < fuel) (rest : List Char) {p : Place} (hp : 0 < p.column) :
    readQuotedFrom '"' false indent fuel ⟨cs.flatMap escapeQuoted ++ '"' :: rest, p⟩ =
      .ok (cs, ⟨rest, p.past (cs.flatMap escapeQuoted ++ ['"'])⟩) := by
  induction fuel generalizing cs p with
  | zero => exact absurd hfuel (Nat.not_lt_zero _)
  | succ fuel ih =>
    obtain ⟨run, gap, more, rfl, hrun, hgap, hmore, hend⟩ := exists_run cs
    simp only [List.length_append] at hfuel
    -- Behind the run stands a space or the closing quote.
    obtain ⟨d, behind, hbehind, hd⟩ : ∃ d behind,
        gap ++ (more.flatMap escapeQuoted ++ '"' :: rest) = d :: behind ∧
          (d = ' ' ∧ gap ≠ [] ∨ d = '"' ∧ gap = []) := by
      cases gap with
      | nil => exact ⟨'"', rest, by rw [hend rfl]; rfl, .inr ⟨rfl, rfl⟩⟩
      | cons c gap => exact ⟨c, _, rfl, .inl ⟨hgap c List.mem_cons_self, List.cons_ne_nil _ _⟩⟩
    have hwritten : (run ++ (gap ++ more)).flatMap escapeQuoted ++ '"' :: rest =
        run.flatMap escapeQuoted ++ d :: behind := by
      rw [← hbehind, List.flatMap_append, List.flatMap_append, flatMap_escapeQuoted_spaces hgap,
        List.append_assoc, List.append_assoc]
    have hread := quotedRun_written hrun (hd.imp And.left And.left)
      (show run.length < fuel + 1 by omega) behind p
    have hmarks : Cursor.atDocumentMarks ⟨run.flatMap escapeQuoted ++ d :: behind, p⟩ = false := by
      simp [Cursor.atDocumentMarks, Cursor.atMarks, Cursor.column, Nat.ne_of_gt hp]
    have hspaces := quotedGap_spaces indent [] hgap (head_written hmore rest)
      (p.past (run.flatMap escapeQuoted))
    rw [hbehind] at hspaces
    rw [hwritten, readQuotedFrom_run indent (by simp) hmarks hread hspaces]
    obtain ⟨rfl, hne⟩ | ⟨rfl, rfl⟩ := hd
    · have hshort : more.length < fuel := by
        have hpos := List.length_pos_of_ne_nil hne
        omega
      have hcolumn : 0 < ((p.past (run.flatMap escapeQuoted)).past gap).column := by
        rw [← Place.past_append, Place.column_past]
        · omega
        · simp only [List.mem_append, not_or]
          exact ⟨newline_not_mem_written run, fun h => absurd (hgap _ h) (by decide)⟩
      rw [if_neg (by simp [Cursor.head?]), ih hshort hcolumn, ok_bind]
      simp only [pure_eq_ok, List.reverse_nil, List.nil_append, List.append_assoc,
        List.flatMap_append, flatMap_escapeQuoted_spaces hgap, Place.past_append]
    · obtain rfl := hend rfl
      cases hbehind
      simp only [Cursor.head?, List.head?_cons, if_true, Cursor.drop_one, List.append_nil,
        Place.past_append, Place.past_cons, Place.past_nil]

/-- A text is read back from between double quotes. -/
theorem readQuoted_quoteScalar (indent : Int) {fuel : Nat} {cs : List Char}
    (hfuel : cs.length ≤ fuel) (rest : List Char) (p : Place) :
    readQuoted fuel '"' false indent ⟨quoteScalar cs ++ '\n' :: rest, p⟩ =
      .ok (.ofList cs, ⟨'\n' :: rest, p.past (quoteScalar cs)⟩) := by
  have hcolumn : 0 < (p.after '"').column := Nat.succ_pos _
  have hshort : cs.length < 2 * fuel + 2 := by omega
  have hread := readQuotedFrom_written indent (2 * fuel + 2) hshort ('\n' :: rest) hcolumn
  rw [quoteScalar, List.cons_append, List.append_assoc, List.singleton_append, readQuoted,
    Cursor.drop_one, hread]
  rfl

/-- A mark on its own is read back from between single quotes. -/
theorem readQuoted_loneMark (indent : Int) (fuel : Nat) {cs : List Char} (hcs : cs ∈ loneMarks)
    (rest : List Char) (p : Place) :
    readQuoted fuel '\'' false indent ⟨'\'' :: (cs ++ ['\'']) ++ '\n' :: rest, p⟩ =
      .ok (.ofList cs, ⟨'\n' :: rest, p.past ('\'' :: (cs ++ ['\'']))⟩) := by
  simp only [loneMarks, List.mem_cons, List.not_mem_nil, or_false] at hcs
  obtain rfl | rfl | rfl := hcs <;> rfl

end Schemata.Yaml
