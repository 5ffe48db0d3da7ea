import Schemata.Proofs.Yaml.Steps
/-!
# Entries of block mappings

What a lexer gives for a text that consists of the entries of block mappings: entry by entry, the
ends of the mappings that are behind it, its key, and its value. So the tokens of such a text are
found from its end on.
-/

namespace Schemata.Yaml
namespace Lexer

/-- The margins of block mappings where an entry ends; the one of its value may still be there. -/
def RestsOn (margins : List Margin) (columns : List Nat) : Prop :=
  margins = marginsOf columns ∨ columns ≠ [] ∧ margins = valueMargins columns

/-- A lexer in front of a text that starts at a column of a line, or in front of the gap before it.
All tokens are settled, and a key may follow. -/
def Ready (s : Lexer) (columns : List Nat) (column : Nat) (cs : List Char) : Prop :=
  ∃ length adjacent settled margins allowed gap p,
    s = inBlock length adjacent settled [] margins none allowed ⟨gap ++ cs, p⟩ ∧
      RestsOn margins columns ∧ (∀ c ∈ gap, c = ' ' ∨ c = '\n') ∧
      (allowed ∨ p.line < (p.past gap).line) ∧ (p.past gap).column = column ∧ cs.length ≤ length

/-- The tokens that a lexer gives for a text in front of which it is ready. -/
def Gives (columns : List Nat) (column : Nat) (cs : List Char) (steps : Nat)
    (tokens : List Token) : Prop :=
  ∀ s, Ready s columns column cs → ∀ fuel, run (steps + fuel) s = tokens

/-- The value of an entry that a lexer takes for a scalar, in a mapping at a column. -/
def TakesFor (column : Nat) (value : List Char) (style : Style) (text : String) : Prop :=
  ∀ length adjacent settled columns n next p,
    value.length ≤ length → next.length ≤ length → n ≤ column → IsSolid next →
      column ≤ p.column → p.fresh = false →
        ∃ s, Ready s (column :: columns) n next ∧
          (inBlock length adjacent settled [] (valueMargins (column :: columns)) none false
            ⟨' ' :: (value ++ (margin n ++ next)), p⟩).step = .ok ([.scalar style text], s)

theorem countP_marginsOf (columns : List Nat) :
    (marginsOf columns).countP (·.collection) = columns.length := by
  rw [marginsOf, List.countP_map]
  exact List.countP_eq_length.mpr fun _ _ => rfl

theorem dropWhile_marginsOf (columns : List Nat) :
    (marginsOf columns).dropWhile (!·.collection) = marginsOf columns := by
  cases columns <;> rfl

theorem lt_of_mem_marginsOf {columns : List Nat} {column : Nat} (h : ∀ c ∈ columns, column < c) :
    ∀ m ∈ marginsOf columns, (column : Int) < m.column := by
  intro m hm
  obtain ⟨c, hc, rfl⟩ := List.mem_map.mp hm
  exact Int.ofNat_lt.mpr (h c hc)

/-- In front of an entry some mappings have ended, and it is in the innermost one of the others or
begins one inside. -/
theorem RestsOn.split {margins : List Margin} {inner outer : List Nat} {column : Nat}
    (h : RestsOn margins (inner ++ outer)) (hinner : ∀ c ∈ inner, column < c)
    (houter : indentOf (marginsOf outer) ≤ column) :
    ∃ ended left, margins = ended ++ left ∧ (∀ m ∈ ended, (column : Int) < m.column) ∧
      indentOf left ≤ column ∧ ended.countP (·.collection) = inner.length ∧
      left.dropWhile (!·.collection) = marginsOf outer := by
  have hended := lt_of_mem_marginsOf hinner
  have hsplit : marginsOf (inner ++ outer) = marginsOf inner ++ marginsOf outer := List.map_append
  obtain rfl | ⟨hne, rfl⟩ := h
  · exact ⟨marginsOf inner, marginsOf outer, hsplit, hended, houter, countP_marginsOf inner,
      dropWhile_marginsOf outer⟩
  · -- The margin of a value ends with its mapping, or in front of another entry of that.
    cases inner with
    | cons i inner =>
      refine ⟨⟨i + 1, false⟩ :: marginsOf (i :: inner), marginsOf outer,
        congrArg (_ :: ·) hsplit, ?_, houter, countP_marginsOf (i :: inner),
        dropWhile_marginsOf outer⟩
      intro m hm
      cases hm with
      | head => exact Int.lt_add_one_of_le (Int.le_of_lt (hended _ List.mem_cons_self))
      | tail _ hm => exact hended m hm
    | nil =>
      obtain ⟨c, cs, rfl⟩ := List.exists_cons_of_ne_nil hne
      by_cases hc : (c : Int) + 1 ≤ column
      · exact ⟨[], valueMargins (c :: cs), rfl, (fun _ h => nomatch h), hc, rfl, rfl⟩
      · refine ⟨[⟨c + 1, false⟩], marginsOf (c :: cs), rfl, ?_, houter, rfl, rfl⟩
        intro m hm
        obtain rfl := List.mem_singleton.mp hm
        exact Int.not_le.mp hc

theorem zero_le_of_mem_marginsOf {columns : List Nat} : ∀ m ∈ marginsOf columns, 0 ≤ m.column := by
  intro m hm
  obtain ⟨c, -, rfl⟩ := List.mem_map.mp hm
  exact Int.natCast_nonneg c

/-- At the end of a text the mappings end. -/
theorem gives_end (columns : List Nat) (column : Nat) :
    Gives columns column [] 1 (List.replicate columns.length .blockEnd ++ [.streamEnd]) := by
  rintro _ ⟨length, adjacent, settled, margins, allowed, gap, p, rfl, hrests, hgap, -, -, -⟩ fuel
  have hcount : margins.countP (·.collection) = columns.length := by
    obtain rfl | ⟨-, rfl⟩ := hrests
    · exact countP_marginsOf columns
    · exact countP_marginsOf columns
  have hmargins : ∀ m ∈ margins, 0 ≤ m.column := by
    obtain rfl | ⟨hne, rfl⟩ := hrests
    · exact zero_le_of_mem_marginsOf
    · obtain ⟨c, cs, rfl⟩ := List.exists_cons_of_ne_nil hne
      intro m hm
      cases hm with
      | head => exact Int.natCast_nonneg (c + 1)
      | tail _ hm => exact zero_le_of_mem_marginsOf m hm
  rw [List.append_nil, Nat.add_comm, run, step_end _ _ _ _ hmargins hgap, hcount]
  exact if_pos (by rw [List.getLast?_concat])

/-- The tokens of a step that is not the last one come in front of the others. -/
theorem run_of_step {s t : Lexer} {tokens : List Token} (h : s.step = .ok (tokens, t))
    (hlast : tokens.getLast? ≠ some .streamEnd) (fuel : Nat) :
    run (fuel + 1) s = tokens ++ run fuel t := by
  rw [run, h]
  exact if_neg hlast

theorem getLast?_blockEnds (n : Nat) :
    (List.replicate n Token.blockEnd).getLast? ≠ some .streamEnd := by
  intro h
  exact absurd (List.eq_of_mem_replicate (List.mem_of_getLast? h)) (by decide)

theorem getLast?_entryTokens (columns : List Nat) (column : Nat) (name : String) :
    (entryTokens columns column name).getLast? ≠ some .streamEnd := by
  rw [entryTokens]
  split <;> simp

/-- The name of an entry and its colon are taken in two steps. -/
theorem Ready.run_key {s : Lexer} {inner outer : List Nat} {column : Nat} {name rest : List Char}
    (hs : Ready s (inner ++ outer) column (name ++ ':' :: rest)) (hname : IsFieldName name)
    (hrest : rest.head? = some ' ' ∨ rest.head? = some '\n') (hinner : ∀ c ∈ inner, column < c)
    (houter : indentOf (marginsOf outer) ≤ column) :
    ∃ length adjacent settled p, rest.length ≤ length ∧ column < p.column ∧ p.fresh = false ∧
      ∀ fuel, run (fuel + 2) s =
        List.replicate inner.length .blockEnd ++ (entryTokens outer column (.ofList name) ++
          run fuel (inBlock length adjacent settled [] (valueMargins (columnsAt outer column)) none
            false ⟨rest, p⟩)) := by
  obtain ⟨length, adjacent, settled, margins, allowed, gap, p, rfl, hrests, hgap, hallowed, rfl,
    hlength⟩ := hs
  obtain ⟨ended, left, rfl, hended, hleft, hcount, hdrop⟩ := hrests.split hinner houter
  have hopen : Cursor.isOpen rest = true := by
    cases rest with
    | nil => rfl
    | cons c rest => obtain ⟨⟨⟩⟩ | ⟨⟨⟩⟩ := hrest <;> rfl
  have hkey := step_fieldName length adjacent settled allowed hgap hallowed hname hopen hended hleft
  have hcolumn : ((p.past gap).past name).column = (p.past gap).column + name.length :=
    Place.column_past hname.newline_not_mem _
  have hoffset := Place.offset_past_le (p.past gap) name
  have hshort := hname.short
  -- The name may be a key until the colon says that it is one.
  rw [hcount, hdrop] at hkey
  have hline : ((p.past gap).past name).line ≤ (p.past gap).line :=
    Nat.le_of_eq (Place.line_past hname.newline_not_mem _)
  have hcolon := step_colon length adjacent (settled + inner.length) (.ofList name)
    ⟨settled + inner.length, p.past gap, isKeyColumn left (p.past gap).column⟩ hrest rfl hline
    (by dsimp only; omega) (by dsimp only; omega) houter
  refine ⟨length, adjacent, settled + inner.length +
    (entryTokens outer (p.past gap).column (.ofList name)).length,
    ((p.past gap).past name).after ':', ?_, ?_, ?_, fun fuel => ?_⟩
  · rw [List.length_append, List.length_cons] at hlength
    omega
  · exact Nat.lt_succ_of_le (by omega)
  · exact Bool.and_false _
  · rw [run_of_step hkey (getLast?_blockEnds _), run_of_step hcolon (getLast?_entryTokens _ _ _)]
    rfl

/-- An entry with a scalar as its value. -/
theorem gives_entry (inner outer : List Nat) {column n : Nat} {name value next : List Char}
    {style : Style} {text : String} {steps : Nat} {tokens : List Token} (hname : IsFieldName name)
    (hvalue : TakesFor column value style text) (hinner : ∀ c ∈ inner, column < c)
    (houter : indentOf (marginsOf outer) ≤ column) (hn : n ≤ column) (hnext : IsSolid next)
    (h : Gives (columnsAt outer column) n next steps tokens) :
    Gives (inner ++ outer) column (name ++ ':' :: ' ' :: (value ++ (margin n ++ next))) (steps + 3)
      (List.replicate inner.length .blockEnd ++
        (entryTokens outer column (.ofList name) ++ .scalar style text :: tokens)) := by
  intro s hs fuel
  obtain ⟨length, adjacent, settled, p, hlength, hcolumn, hfresh, hrun⟩ :=
    hs.run_key hname (.inl rfl) hinner houter
  obtain ⟨columns, hcolumns⟩ := columnsAt_eq_cons houter
  simp only [List.length_cons, List.length_append] at hlength
  obtain ⟨t, ht, hstep⟩ := hvalue length adjacent settled columns n next p (by omega) (by omega) hn
    hnext (Nat.le_of_lt hcolumn) hfresh
  rw [show steps + 3 + fuel = steps + fuel + 1 + 2 by omega, hrun, hcolumns,
    run_of_step hstep (by simp), h t (hcolumns ▸ ht)]
  rfl

/-- An entry with a mapping as its value, which begins on the next line. -/
theorem gives_nested (inner outer : List Nat) (column : Nat) {n : Nat} {name next : List Char}
    {steps : Nat} {tokens : List Token} (hname : IsFieldName name)
    (hinner : ∀ c ∈ inner, column < c) (houter : indentOf (marginsOf outer) ≤ column)
    (h : Gives (columnsAt outer column) n next steps tokens) :
    Gives (inner ++ outer) column (name ++ ':' :: (margin n ++ next)) (steps + 2)
      (List.replicate inner.length .blockEnd ++
        (entryTokens outer column (.ofList name) ++ tokens)) := by
  intro s hs fuel
  obtain ⟨length, adjacent, settled, p, hlength, -, -, hrun⟩ :=
    hs.run_key hname (.inr rfl) hinner houter
  obtain ⟨columns, hcolumns⟩ := columnsAt_eq_cons houter
  rw [List.length_append] at hlength
  have hready : Ready (inBlock length adjacent settled [] (valueMargins (columnsAt outer column))
      none false ⟨margin n ++ next, p⟩) (columnsAt outer column) n next :=
    ⟨length, adjacent, settled, _, false, margin n, p, rfl,
      .inr ⟨by rw [hcolumns]; exact List.cons_ne_nil _ _, rfl⟩, fun _ => mem_margin,
      .inr (by rw [Place.line_past_margin]; exact Nat.lt_succ_self _), Place.column_past_margin p n,
      by omega⟩
  rw [show steps + 2 + fuel = steps + fuel + 2 by omega, hrun, h _ hready]

end Lexer

/-- The tokens of a text that is a mapping. -/
theorem tokenize_eq_of_gives {cs : List Char} {steps : Nat} {tokens : List Token}
    (hsteps : steps ≤ cs.length + 1) (h : Lexer.Gives [] 0 cs steps tokens) :
    tokenize cs = tokens := by
  have hready : Lexer.Ready (.start cs) [] 0 cs :=
    ⟨cs.length, 0, 0, [], true, [], .start, rfl, .inl rfl, (fun _ h => nomatch h), .inl rfl,
      rfl, Nat.le_refl _⟩
  rw [tokenize, ← h _ hready (cs.length + 1 - steps), Nat.add_sub_cancel' hsteps]

end Schemata.Yaml
