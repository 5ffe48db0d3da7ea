import Mathlib.Data.List.TakeWhile
import Schemata.Proofs.Yaml.Folded
import Schemata.Proofs.Yaml.Plain
import Schemata.Proofs.Yaml.Quoted
import Schemata.Yaml.Lexer
/-!
# Steps of the lexer over block mappings

A mapping in a block is written one entry to a line. The lexer takes an entry in three steps: the
name, which might be anything yet, the colon that makes a key of it, and the value.
-/

namespace Schemata.Yaml
namespace Lexer

/-- A lexer outside of flow collections. -/
def inBlock (length adjacent settled : Nat) (pending : List Token) (margins : List Margin)
    (key : Option KeyMark) (keyAllowed : Bool) (cursor : Cursor) : Lexer where
  length
  cursor
  count := settled + pending.length
  settled
  pending
  margins
  key
  outerKeys := []
  keyAllowed
  adjacent
  inMapping := false
  pairs := []
  cutOff := none

variable (length adjacent settled : Nat) {margins : List Margin} (allowed : Bool)

theorem skip_inBlock (pending : List Token) (margins : List Margin) (key : Option KeyMark)
    {gap rest : List Char} (hgap : ∀ c ∈ gap, c = ' ' ∨ c = '\n') (hrest : IsSolid rest)
    (p : Place) :
    (inBlock length adjacent settled pending margins key allowed ⟨gap ++ rest, p⟩).skip =
      .ok (inBlock length adjacent settled pending margins key
        (allowed || decide (p.line < (p.past gap).line)) ⟨rest, p.past gap⟩) := by
  rw [skip]
  simp only [inBlock, Cursor.skip_append _ hgap hrest, ok_bind]
  rfl

theorem endBlocks_inBlock (pending : List Token) (key : Option KeyMark) (cursor : Cursor)
    {inner outer : List Margin} {column : Int} (hinner : ∀ m ∈ inner, column < m.column)
    (houter : ∀ m ∈ outer.head?, m.column ≤ column) :
    (inBlock length adjacent settled pending (inner ++ outer) key allowed cursor).endBlocks column =
      inBlock length adjacent settled
        (List.replicate (inner.countP (·.collection)) .blockEnd ++ pending) outer key allowed
        cursor := by
  have hended : (inner ++ outer).takeWhile (column < ·.column) = inner :=
    takeWhile_append_of_head (fun m hm => decide_eq_true (hinner m hm)) fun m hm =>
      decide_eq_false (Int.not_lt.mpr (houter m hm))
  simp [endBlocks, inBlock, inFlow, hended]
  omega

theorem settle_inBlock (pending : List Token) (margins : List Margin) (cursor : Cursor)
    (hp : pending ≠ []) :
    (inBlock length adjacent settled pending margins none allowed cursor).settle =
      .ok (pending.reverse, inBlock length adjacent (settled + pending.length) [] margins none
        allowed cursor) := by
  have hne : pending.isEmpty = false := List.isEmpty_eq_false_iff.mpr hp
  have hpos := List.length_pos_of_ne_nil hp
  have hcount : ¬settled + pending.length = settled := by omega
  simp only [settle, inBlock, hne, dropStaleKey, Option.any_none, Bool.and_false, if_false, ok_bind,
    Bool.false_eq_true, List.filterMap_cons, Option.map_none, List.filterMap_nil, List.foldl_nil,
    hcount, pure_eq_ok, Nat.sub_self, List.splitAt_eq, List.take_zero, List.drop_zero]
  rfl

theorem readNext_inBlock (pending : List Token) (key : Option KeyMark) {c : Char} (cs : List Char)
    {p : Place} (hindent : indentOf margins ≤ p.column)
    (hc : p.column = 0 → c ≠ '%' ∧ c ≠ '-' ∧ c ≠ '.') :
    (inBlock length adjacent settled pending margins key allowed ⟨c :: cs, p⟩).readNext =
      readPart c cs
        (inBlock length adjacent settled pending margins key allowed ⟨c :: cs, p⟩) := by
  have htriple {x : Char} (hx : p.column = 0 → c ≠ x) :
      Cursor.atMarks ⟨c :: cs, p⟩ x = false := by
    simp only [Cursor.atMarks, Cursor.column, Cursor.atTriple]
    by_cases hcolumn : p.column = 0
    · split
      · next heq => simp [← (List.cons.inj heq).1, hx hcolumn]
      · simp
    · simp [hcolumn]
  -- Neither a mark of a document nor a directive begins here.
  have hpercent : ¬(p.column = 0 ∧ c = '%') := fun h => (hc h.1).1 h.2
  simp only [readNext, inBlock, goesOn, Option.any_none, Bool.false_and, Bool.false_eq_true,
    if_false, htriple fun h => (hc h).2.1, htriple fun h => (hc h).2.2, Cursor.column,
    Bool.and_eq_true, decide_eq_true_eq, indent, Int.not_lt.mpr hindent, decide_false]
  exact if_neg fun h => hpercent ⟨of_decide_eq_true h.1, h.2⟩

/-- A key is not lost on its own line. -/
theorem dropStaleKey_inBlock (pending : List Token) (margins : List Margin) {k : KeyMark}
    {cursor : Cursor}
    (hline : cursor.place.line ≤ k.place.line)
    (hoffset : cursor.place.offset ≤ k.place.offset + 1024) :
    (inBlock length adjacent settled pending margins (some k) allowed cursor).dropStaleKey =
      .ok (inBlock length adjacent settled pending margins (some k) allowed cursor) := by
  have hstale : (decide (k.place.line < cursor.line) ||
      decide (k.place.offset + 1024 < cursor.place.offset)) = false := by
    rw [Bool.or_eq_false_iff, decide_eq_false_iff_not, decide_eq_false_iff_not]
    exact ⟨Nat.not_lt.mpr hline, Nat.not_lt.mpr hoffset⟩
  exact if_neg (by rw [Bool.and_eq_true]; exact fun h => absurd (h.2.symm.trans hstale) (by decide))

/-- A step passes the gap, ends the mappings that are indented further than what stands next, and
takes that. -/
theorem step_inBlock (pending : List Token) (inner outer : List Margin) (key : Option KeyMark)
    (gap : List Char) (hgap : ∀ c ∈ gap, c = ' ' ∨ c = '\n') (c : Char) (hsolid : isGap c = false)
    (hcomment : c ≠ '#') (cs : List Char) (p : Place)
    (hkey : ∀ k ∈ key, (p.past gap).line ≤ k.place.line ∧
      (p.past gap).offset ≤ k.place.offset + 1024)
    (hinner : ∀ m ∈ inner, (p.past gap).column < m.column)
    (houter : indentOf outer ≤ (p.past gap).column)
    (hc : (p.past gap).column = 0 → c ≠ '%' ∧ c ≠ '-' ∧ c ≠ '.') :
    (inBlock length adjacent settled pending (inner ++ outer) key allowed
        ⟨gap ++ c :: cs, p⟩).step = (do
      let s ← readPart c cs (inBlock length adjacent settled
        (List.replicate (inner.countP (·.collection)) .blockEnd ++ pending) outer key
        (allowed || decide (p.line < (p.past gap).line)) ⟨c :: cs, p.past gap⟩)
      s.settle) := by
  have hrest : IsSolid (c :: cs) := by
    rintro _ ⟨⟩
    exact ⟨hsolid, hcomment⟩
  have hhead : ∀ m ∈ outer.head?, m.column ≤ (p.past gap).column := by
    cases outer with
    | nil => exact fun _ h => nomatch h
    | cons m outer =>
      rintro _ ⟨⟩
      exact houter
  -- A key in mind is on this line, and so it is kept.
  have hkept : (inBlock length adjacent settled pending (inner ++ outer) key
      (allowed || decide (p.line < (p.past gap).line)) ⟨c :: cs, p.past gap⟩).dropStaleKey =
      .ok (inBlock length adjacent settled pending (inner ++ outer) key
        (allowed || decide (p.line < (p.past gap).line)) ⟨c :: cs, p.past gap⟩) := by
    cases key with
    | none => rfl
    | some k => exact dropStaleKey_inBlock _ _ _ _ pending _ (hkey k rfl).1 (hkey k rfl).2
  rw [step, skip_inBlock _ _ _ _ pending _ key hgap hrest, ok_bind, hkept, ok_bind,
    ← readNext_inBlock _ _ _ _ _ key cs houter hc]
  exact congrArg (fun s => s.readNext >>= settle)
    (endBlocks_inBlock _ _ _ _ pending key ⟨c :: cs, p.past gap⟩ hinner hhead)

theorem readPart_plain {c : Char} (hc : needsQuoteInFront c = false) (hcomma : c ≠ ',')
    (cs : List Char) (s : Lexer) : readPart c cs s = s.readPlainToken := by
  simp only [needsQuoteInFront, List.mem_cons, List.not_mem_nil, or_false, not_or,
    decide_eq_false_iff_not] at hc
  unfold readPart
  split <;> simp_all

/-- A text is not written in quotes for the sake of a letter. -/
theorem needsQuoteInFront_of_letter {c : Char} (h : c.isAlpha ∨ c = '_') :
    needsQuoteInFront c = false ∧ c ≠ ',' := by
  have hmarks : ∀ d ∈ [',', '-', '?', ':', '[', ']', '\x7b', '\x7d', '#', '&', '*', '!', '|', '>',
      '\'', '"', '%', '@', '`', ' ', '\t', '\n', '\x0c', '\r'], ¬(d.isAlpha ∨ d = '_') := by
    simp only [List.forall_mem_cons, List.not_mem_nil, false_implies, implies_true]
    decide
  exact ⟨decide_eq_false fun hc => hmarks c (List.mem_cons_of_mem _ hc) h, by
    rintro rfl
    exact hmarks ',' List.mem_cons_self h⟩

/-- Whether nothing but a key can stand at a column. -/
def isKeyColumn (margins : List Margin) (column : Nat) : Bool :=
  margins.head?.any fun m => m.collection && m.column = (column : Int)

theorem readPlainToken_fieldName (pending : List Token) {name rest : List Char}
    (hname : IsFieldName name) (hrest : Cursor.isOpen rest) (p : Place) :
    (inBlock length adjacent settled pending margins none true
        ⟨name ++ ':' :: rest, p⟩).readPlainToken =
      .ok (inBlock length adjacent settled (.scalar .plain (.ofList name) :: pending)
        (margins.dropWhile (!·.collection))
        (some ⟨settled + pending.length, p, isKeyColumn margins p.column⟩) false
        ⟨':' :: rest, p.past name⟩) := by
  rw [readPlainToken]
  simp only [inBlock, saveKey, dropMargins, if_true, inFlow, List.isEmpty_nil, Bool.not_true,
    readPlain_fieldName _ _ hname hrest, ok_bind]
  simp [push, Cursor.fresh, hname.fresh_past, Cursor.head?, Nat.add_assoc]
  rfl

theorem settle_key (ends : Nat) (token : Token) {k : KeyMark} {cursor : Cursor}
    (hline : cursor.place.line ≤ k.place.line)
    (hoffset : cursor.place.offset ≤ k.place.offset + 1024) (hnumber : k.number = settled + ends) :
    (inBlock length adjacent settled (token :: List.replicate ends .blockEnd) margins (some k)
        allowed cursor).settle =
      .ok (List.replicate ends .blockEnd,
        inBlock length adjacent (settled + ends) [token] margins (some k) allowed cursor) := by
  have hkept := dropStaleKey_inBlock length adjacent settled allowed
    (token :: List.replicate ends .blockEnd) margins hline hoffset
  have hmin : Nat.min (settled + (ends + 1)) (settled + ends) = settled + ends :=
    Nat.min_eq_right (by omega)
  have hbehind : settled + (ends + 1) - (settled + ends) = 1 := by omega
  rw [settle, hkept]
  simp only [inBlock, List.isEmpty_cons, Bool.false_eq_true, if_false, ok_bind,
    List.filterMap_cons, Option.map_some, List.filterMap_nil, List.foldl_cons, List.foldl_nil,
    hnumber, List.length_cons, List.length_replicate, hmin, pure_eq_ok, hbehind, List.splitAt_eq]
  cases ends with
  | zero => simp
  | succ ends => simp [Nat.add_assoc]

/-- The name of a field is kept in mind as a possible key, once the mappings have ended that are
indented further. -/
theorem step_fieldName {inner outer : List Margin} {gap name rest : List Char} {p : Place}
    (hgap : ∀ c ∈ gap, c = ' ' ∨ c = '\n') (hallowed : allowed ∨ p.line < (p.past gap).line)
    (hname : IsFieldName name) (hrest : Cursor.isOpen rest)
    (hinner : ∀ m ∈ inner, (p.past gap).column < m.column)
    (houter : indentOf outer ≤ (p.past gap).column) :
    (inBlock length adjacent settled [] (inner ++ outer) none allowed
        ⟨gap ++ (name ++ ':' :: rest), p⟩).step =
      .ok (List.replicate (inner.countP (·.collection)) .blockEnd,
        inBlock length adjacent (settled + inner.countP (·.collection))
          [.scalar .plain (.ofList name)] (outer.dropWhile (!·.collection))
          (some ⟨settled + inner.countP (·.collection), p.past gap,
            isKeyColumn outer (p.past gap).column⟩) false
          ⟨':' :: rest, (p.past gap).past name⟩) := by
  obtain ⟨c, cs, rfl⟩ := List.exists_cons_of_ne_nil hname.nonempty
  obtain ⟨hplain, hcomma⟩ := needsQuoteInFront_of_letter (hname.letters c List.mem_cons_self)
  obtain ⟨hc, -, hcomment, hdash, hdot⟩ :=
    isGap_eq_false_of_letter (hname.letters c List.mem_cons_self)
  have hpercent : c ≠ '%' := by
    rintro rfl
    exact absurd hplain (by decide)
  have hkey : (allowed || decide (p.line < (p.past gap).line)) = true := by
    simpa using hallowed
  rw [List.cons_append, step_inBlock _ _ _ _ [] _ _ none _ hgap c hc hcomment _ _
    (fun _ h => nomatch h) hinner houter fun _ => ⟨hpercent, hdash, hdot⟩, hkey,
    readPart_plain hplain hcomma, ← List.cons_append, readPlainToken_fieldName _ _ _ _ hname hrest, ok_bind, List.append_nil, List.length_replicate]
  refine settle_key _ _ _ _ _ _ ?_ ?_ rfl
  · exact Nat.le_of_eq (Place.line_past hname.newline_not_mem _)
  · have hoffset := Place.offset_past_le (p.past gap) (c :: cs)
    have hshort := hname.short
    dsimp only
    omega

/-- The margins of block mappings, innermost first. -/
def marginsOf (columns : List Nat) : List Margin := columns.map fun (c : Nat) => ⟨c, true⟩

/-- The columns of the mappings that an entry at a column is in, where it may be the first. -/
def columnsAt (columns : List Nat) (column : Nat) : List Nat :=
  if indentOf (marginsOf columns) < column then column :: columns else columns

/-- What an entry begins with: the mapping itself if it is the first. -/
def entryTokens (columns : List Nat) (column : Nat) (name : String) : List Token :=
  (if indentOf (marginsOf columns) < column then [.blockMappingStart] else []) ++
    [.key, .scalar .plain name, .value]

/-- The innermost mapping that an entry is in is the one at its own column. -/
theorem columnsAt_eq_cons {columns : List Nat} {column : Nat}
    (h : indentOf (marginsOf columns) ≤ column) :
    ∃ cs, columnsAt columns column = column :: cs := by
  rw [columnsAt]
  split
  · exact ⟨columns, rfl⟩
  · next hlt =>
    cases columns with
    | nil => exact absurd (Int.lt_of_lt_of_le (by decide) (Int.natCast_nonneg column)) hlt
    | cons c cs =>
      have hle : c ≤ column := Int.ofNat_le.mp h
      have hge : column ≤ c := Int.ofNat_le.mp (Int.not_lt.mp hlt)
      exact ⟨cs, by rw [Nat.le_antisymm hle hge]⟩

theorem insert_inBlock (margins : List Margin) (key : Option KeyMark) (cursor : Cursor)
    (behind before : List Token) (token : Token) :
    (inBlock length adjacent settled (behind ++ before) margins key allowed cursor).insert
        (settled + before.length) token =
      inBlock length adjacent settled (behind ++ token :: before) margins key allowed cursor := by
  have hbehind : settled + (behind ++ before).length - (settled + before.length) =
      behind.length := by
    rw [List.length_append]
    omega
  simp only [insert, inBlock, hbehind, List.splitAt_eq, List.take_left, List.drop_left]
  simp only [List.length_append, List.length_cons, Nat.add_assoc]

/-- A mapping begins in front of a key that is indented further than the mappings so far. -/
theorem beginBlock_inBlock (key : Option KeyMark) (cursor : Cursor) (behind before : List Token)
    (columns : List Nat) (column : Nat) :
    (inBlock length adjacent settled (behind ++ before) (marginsOf columns) key allowed
        cursor).beginBlock column (settled + before.length) .blockMappingStart =
      inBlock length adjacent settled
        (behind ++ ((if indentOf (marginsOf columns) < column then [.blockMappingStart] else []) ++
          before)) (marginsOf (columnsAt columns column)) key allowed cursor := by
  have hinsert := insert_inBlock length adjacent settled allowed (marginsOf columns) key cursor
    behind before .blockMappingStart
  rw [columnsAt, beginBlock, hinsert]
  cases columns with
  | nil =>
    have hfirst : indentOf [] < (column : Int) :=
      Int.lt_of_lt_of_le (by decide) (Int.natCast_nonneg column)
    simp [inBlock, inFlow, marginsOf, hfirst]
  | cons c cs =>
    by_cases hfirst : c < column <;> simp [inBlock, inFlow, marginsOf, indentOf, hfirst]

theorem readValue_inBlock {columns : List Nat} {name : String} {k : KeyMark} {rest : List Char}
    {p : Place} (hrest : rest.head? ≠ some '\t') (hnumber : k.number = settled)
    (hindent : indentOf (marginsOf columns) ≤ k.place.column) :
    (inBlock length adjacent settled [.scalar .plain name] (marginsOf columns) (some k) false
        ⟨':' :: rest, p⟩).readValue =
      .ok (inBlock length adjacent settled (entryTokens columns k.place.column name).reverse
        (⟨indentOf (marginsOf (columnsAt columns k.place.column)) + 1, false⟩ ::
          marginsOf (columnsAt columns k.place.column)) none false ⟨rest, p.after ':'⟩) := by
  have hcolon : passColon ⟨':' :: rest, p⟩ = .ok ⟨rest, p.after ':'⟩ := by
    simp [passColon, Cursor.head?, hrest]
  obtain ⟨cs, hcolumns⟩ := columnsAt_eq_cons hindent
  have hread : (inBlock length adjacent settled [.scalar .plain name] (marginsOf columns) (some k)
      false ⟨':' :: rest, p⟩).readValue = (do
        let cursor ← passColon ⟨':' :: rest, p⟩
        let s := inBlock length adjacent settled [.scalar .plain name] (marginsOf columns) (some k)
          false cursor
        let s := (s.insert k.number .key).beginBlock k.place.column k.number .blockMappingStart
        return { s.addMargin.push .value with key := none, keyAllowed := false }) := rfl
  have hkey := insert_inBlock length adjacent settled false (marginsOf columns) (some k)
    ⟨rest, p.after ':'⟩ [.scalar .plain name] [] .key
  have hblock := beginBlock_inBlock length adjacent settled false (some k) ⟨rest, p.after ':'⟩
    [.scalar .plain name, .key] [] columns k.place.column
  rw [List.append_nil, List.length_nil, Nat.add_zero] at hkey hblock
  rw [List.singleton_append] at hkey
  rw [hread, hcolon, ok_bind, hnumber]
  simp only [hkey, hblock, hcolumns]
  by_cases hfirst : indentOf (marginsOf columns) < k.place.column
  · rw [entryTokens, if_pos hfirst]
    rfl
  · rw [entryTokens, if_neg hfirst]
    rfl

/-- At a colon the name in front of it is a key. -/
theorem step_colon {columns : List Nat} (name : String) (k : KeyMark) {rest : List Char} {p : Place}
    (hrest : rest.head? = some ' ' ∨ rest.head? = some '\n') (hnumber : k.number = settled)
    (hline : p.line ≤ k.place.line) (hoffset : p.offset ≤ k.place.offset + 1024)
    (hcolumn : k.place.column ≤ p.column)
    (hindent : indentOf (marginsOf columns) ≤ k.place.column) :
    (inBlock length adjacent settled [.scalar .plain name] (marginsOf columns) (some k) false
        ⟨':' :: rest, p⟩).step =
      .ok (entryTokens columns k.place.column name,
        inBlock length adjacent
          (settled + (entryTokens columns k.place.column name).length) []
          (⟨indentOf (marginsOf (columnsAt columns k.place.column)) + 1, false⟩ ::
            marginsOf (columnsAt columns k.place.column)) none false ⟨rest, p.after ':'⟩) := by
  obtain ⟨c, rest, rfl⟩ : ∃ c cs, rest = c :: cs := by
    cases rest with
    | nil => simp at hrest
    | cons c rest => exact ⟨c, rest, rfl⟩
  have hopen : Cursor.isOpen (c :: rest) = true := by
    obtain ⟨⟨⟩⟩ | ⟨⟨⟩⟩ := hrest <;> rfl
  have htab : (c :: rest).head? ≠ some '\t' := by
    obtain ⟨⟨⟩⟩ | ⟨⟨⟩⟩ := hrest <;> simp
  have hindent' : indentOf (marginsOf columns) ≤ p.column :=
    Int.le_trans hindent (Int.ofNat_le.mpr hcolumn)
  have hpart (s : Lexer) : readPart ':' (c :: rest) s = s.readValue := by
    rw [readPart, hopen]
    rfl
  have hstep := step_inBlock length adjacent settled false [.scalar .plain name] []
    (marginsOf columns) (some k) [] (fun _ h => nomatch h) ':' rfl (by decide) (c :: rest) p
    (fun _ h => by cases h; exact ⟨hline, hoffset⟩) (fun _ h => nomatch h) hindent'
    fun _ => by decide
  rw [List.nil_append, Place.past_nil, Bool.false_or, decide_eq_false (Nat.lt_irrefl _), hpart,
    List.countP_nil, List.replicate_zero, List.nil_append, List.nil_append,
    readValue_inBlock _ _ _ htab hnumber hindent, ok_bind, settle_inBlock, List.reverse_reverse,
    List.length_reverse] at hstep
  · exact hstep
  · simp [entryTokens]

section Values

variable {length adjacent settled}
variable {c : Nat} {cs : List Nat} {rest : List Char} {p q : Place} {text : String}
  {next : List Char}

/-- The margins in front of the value of an entry. -/
def valueMargins (columns : List Nat) : List Margin :=
  ⟨indentOf (marginsOf columns) + 1, false⟩ :: marginsOf columns

theorem step_space (hp : c ≤ p.column) {d : Char} (hd : isGap d = false) (hcomment : d ≠ '#')
    (rest : List Char) :
    (inBlock length adjacent settled [] (valueMargins (c :: cs)) none false
        ⟨' ' :: d :: rest, p⟩).step = (do
      let s ← readPart d rest (inBlock length adjacent settled [] (valueMargins (c :: cs)) none false
        ⟨d :: rest, p.after ' '⟩)
      s.settle) := by
  have houter : indentOf (valueMargins (c :: cs)) ≤ (p.after ' ').column :=
    Int.add_le_add_right (Int.ofNat_le.mpr hp) 1
  have hstep := step_inBlock length adjacent settled false [] [] (valueMargins (c :: cs)) none [' ']
    (by simp) d hd hcomment rest p (fun _ h => nomatch h) (fun _ h => nomatch h) houter
    (fun h => nomatch h)
  have hline : (p.past [' ']).line = p.line := rfl
  rw [hline, decide_eq_false (Nat.lt_irrefl p.line)] at hstep
  exact hstep

/-- A value without quotes. -/
theorem step_plain (hp : c ≤ p.column) {d : Char} (hd : needsQuoteInFront d = false)
    (hcomma : d ≠ ',')
    (hread : readPlain (length + 1) false (c + 1) ⟨d :: rest, p.after ' '⟩ = .ok (text, ⟨next, q⟩))
    (hq : q.fresh = true) :
    (inBlock length adjacent settled [] (valueMargins (c :: cs)) none false
        ⟨' ' :: d :: rest, p⟩).step =
      .ok ([.scalar .plain text], inBlock length adjacent (settled + 1) [] (marginsOf (c :: cs)) none
        true ⟨next, q⟩) := by
  have hsolid : isGap d = false ∧ d ≠ '#' := by
    simp only [needsQuoteInFront, List.mem_cons, List.not_mem_nil, or_false, not_or,
      decide_eq_false_iff_not] at hd
    simp [isGap, isBlank, hd]
  have hplain : (inBlock length adjacent settled [] (valueMargins (c :: cs)) none false
      ⟨d :: rest, p.after ' '⟩).readPlainToken = .ok (inBlock length adjacent settled
        [.scalar .plain text] (marginsOf (c :: cs)) none true ⟨next, q⟩) := by
    have hscalar : (inBlock length adjacent settled [] (valueMargins (c :: cs)) none false
        ⟨d :: rest, p.after ' '⟩).readPlainToken =
          (readPlain (length + 1) false (c + 1) ⟨d :: rest, p.after ' '⟩ >>= fun read => do
            let s := inBlock length adjacent settled [] (marginsOf (c :: cs)) none false
              ⟨d :: rest, p.after ' '⟩
            return { s.push (.scalar .plain read.1) with
              cursor := read.2
              keyAllowed := read.2.fresh
              cutOff := if !read.2.fresh && read.2.head? = some '#' then some read.2.line
                else none }) := rfl
    rw [hscalar, hread, ok_bind]
    simp only [Cursor.fresh, hq]
    rfl
  rw [step_space hp hsolid.1 hsolid.2, readPart_plain hd hcomma, hplain, ok_bind,
    settle_inBlock _ _ _ _ _ _ _ (List.cons_ne_nil _ _)]
  rfl

/-- A value in quotes. -/
theorem step_quoted (hp : c ≤ p.column) {quote : Char} (hquote : quote = '"' ∨ quote = '\'')
    {n : Nat}
    (hread : readQuoted length quote false (c + 1) ⟨quote :: rest, p.after ' '⟩ =
      .ok (text, ⟨margin n ++ next, q⟩)) (hnext : IsSolid next) :
    (inBlock length adjacent settled [] (valueMargins (c :: cs)) none false
        ⟨' ' :: quote :: rest, p⟩).step =
      .ok ([.scalar .quoted text], inBlock length (q.past (margin n)).offset (settled + 1) []
        (valueMargins (c :: cs)) none true ⟨next, q.past (margin n)⟩) := by
  have hsolid : isGap quote = false ∧ quote ≠ '#' := by
    obtain rfl | rfl := hquote <;> decide
  have hpart (s : Lexer) : readPart quote rest s = s.readQuotedToken quote := by
    obtain rfl | rfl := hquote <;> rfl
  have hscalar : (inBlock length adjacent settled [] (valueMargins (c :: cs)) none false
      ⟨quote :: rest, p.after ' '⟩).readQuotedToken quote =
        (readQuoted length quote false (c + 1) ⟨quote :: rest, p.after ' '⟩ >>= fun read => do
          let s ← (inBlock length adjacent settled [] (valueMargins (c :: cs)) none false read.2).skip
          return { s.push (.scalar .quoted read.1) with adjacent := s.cursor.place.offset }) := rfl
  have hskip := skip_inBlock length adjacent settled false [] (valueMargins (c :: cs)) none
    (fun _ => mem_margin (n := n)) hnext q
  rw [Place.line_past_margin, Bool.false_or, decide_eq_true (Nat.lt_succ_self _)] at hskip
  rw [step_space hp hsolid.1 hsolid.2, hpart, hscalar, hread, ok_bind]
  simp only [hskip, ok_bind]
  exact settle_inBlock _ _ _ _ [.scalar .quoted text] _ _ (List.cons_ne_nil _ _)

/-- A value in lines of its own. -/
theorem step_folded (hp : c ≤ p.column)
    (hread : readBlock length c ⟨'>' :: rest, p.after ' '⟩ = .ok (text, ⟨next, q⟩)) :
    (inBlock length adjacent settled [] (valueMargins (c :: cs)) none false
        ⟨' ' :: '>' :: rest, p⟩).step =
      .ok ([.scalar .block text], inBlock length adjacent (settled + 1) [] (marginsOf (c :: cs)) none
        true ⟨next, q⟩) := by
  have hscalar : readPart '>' rest (inBlock length adjacent settled [] (valueMargins (c :: cs)) none
      false ⟨'>' :: rest, p.after ' '⟩) =
        (readBlock length c ⟨'>' :: rest, p.after ' '⟩ >>= fun read => do
          let s := inBlock length adjacent settled [] (marginsOf (c :: cs)) none false
            ⟨'>' :: rest, p.after ' '⟩
          return { s.push (.scalar .block read.1) with cursor := read.2, keyAllowed := true }) := rfl
  rw [step_space hp rfl (by decide), hscalar, hread, ok_bind]
  exact settle_inBlock _ _ _ _ [.scalar .block text] _ _ (List.cons_ne_nil _ _)

end Values

/-- Some mappings end in front of a column, and the innermost of the others does not. -/
theorem exists_ended (margins : List Margin) (column : Int) :
    ∃ inner outer, margins = inner ++ outer ∧ (∀ m ∈ inner, column < m.column) ∧
      ∀ m ∈ outer.head?, m.column ≤ column := by
  refine ⟨margins.takeWhile (column < ·.column), margins.dropWhile (column < ·.column),
    List.takeWhile_append_dropWhile.symm, fun m hm => ?_, fun m hm => ?_⟩
  · simpa using List.mem_takeWhile_imp hm
  · have hhead := List.head?_dropWhile_not (fun m : Margin => column < m.column) margins
    rw [hm] at hhead
    simpa using hhead

/-- Where nothing stands next, all mappings end. -/
theorem readNext_end (pending : List Token) {margins : List Margin}
    (hmargins : ∀ m ∈ margins, 0 ≤ m.column) (p : Place) :
    (inBlock length adjacent settled pending margins none allowed ⟨[], p⟩).readNext =
      .ok (inBlock length adjacent settled
        (.streamEnd :: (List.replicate (margins.countP (·.collection)) .blockEnd ++ pending)) [] none
        allowed ⟨[], p⟩) := by
  have hread : (inBlock length adjacent settled pending margins none allowed ⟨[], p⟩).readNext =
      .ok (push .streamEnd (endBlocks (-1)
        (inBlock length adjacent settled pending margins none allowed ⟨[], p⟩))) := rfl
  have hleft : ∀ m ∈ margins, -1 < m.column := fun m hm =>
    Int.lt_of_lt_of_le (by decide) (hmargins m hm)
  have hnone : ∀ m ∈ ([] : List Margin).head?, m.column ≤ -1 := fun _ h => nomatch h
  have hended := endBlocks_inBlock length adjacent settled allowed pending none ⟨[], p⟩ hleft hnone
  rw [List.append_nil] at hended
  rw [hread, hended]
  rfl

/-- At its end a text ends all the mappings that have begun. -/
theorem step_end (hmargins : ∀ m ∈ margins, 0 ≤ m.column) {gap : List Char}
    (hgap : ∀ c ∈ gap, c = ' ' ∨ c = '\n') (p : Place) :
    (inBlock length adjacent settled [] margins none allowed ⟨gap, p⟩).step =
      .ok (List.replicate (margins.countP (·.collection)) .blockEnd ++ [.streamEnd],
        inBlock length adjacent (settled + (margins.countP (·.collection) + 1)) [] [] none
          (allowed || decide (p.line < (p.past gap).line)) ⟨[], p.past gap⟩) := by
  have hskip := skip_inBlock length adjacent settled allowed [] margins none hgap .nil p
  rw [List.append_nil] at hskip
  generalize (allowed || decide (p.line < (p.past gap).line)) = allowed at hskip ⊢
  generalize p.past gap = q at hskip ⊢
  -- Some mappings end where the text does, and the others then.
  obtain ⟨inner, outer, rfl, hinner, houter⟩ := exists_ended margins q.column
  have hended := endBlocks_inBlock length adjacent settled allowed [] none ⟨[], q⟩ hinner houter
  have hread := readNext_end length adjacent settled allowed
    (List.replicate (inner.countP (·.collection)) .blockEnd)
    (fun m hm => hmargins m (List.mem_append_right inner hm)) q
  rw [List.replicate_append_replicate, Nat.add_comm, ← List.countP_append] at hread
  rw [List.append_nil] at hended
  rw [step, hskip, ok_bind]
  refine (congrArg (fun s => s.readNext >>= settle) hended).trans ?_
  rw [hread, ok_bind, settle_inBlock _ _ _ _ _ _ _ (List.cons_ne_nil _ _)]
  simp

end Lexer
end Schemata.Yaml
