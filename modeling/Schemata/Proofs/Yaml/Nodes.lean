import Mathlib.Data.List.Nodup
import Schemata.Proofs.FirstFault
import Schemata.Yaml.Document
import Schemata.Yaml.Value
/-!
# Mappings from tokens

The tokens of a block mapping, with a scalar in front of each colon, are read as that mapping. How
far the reader gets, and how much it counts, is bounded by the number of tokens. If the scalars are
distinct names of fields, the mapping has these fields.
-/

namespace Schemata.Yaml
namespace Reader

/-- A reader in front of some tokens, of a text without names. -/
def before (tokens : List Token) (size depth : Nat) : Reader :=
  { tokens, handles := [], anchors := #[], aliases := 0, size, depth }

/-- A reader goes on with what the one before it has made. -/
theorem bind_run {α β : Type} {read : Read α} {next : α → Read β} {s t : Reader} {a : α}
    (h : read s = .ok (a, t)) : (read >>= next) s = next a t := by
  change Except.bind (read s) _ = _
  rw [h]
  rfl

theorem count_before (tokens : List Token) {nodes size depth : Nat}
    (h : size + nodes ≤ sizeLimit) :
    count nodes (before tokens size depth) = .ok ((), before tokens (size + nodes) depth) := by
  have hcount : count nodes (before tokens size depth) =
      (if sizeLimit < size + nodes then throw .tooLarge else pure () : Read Unit)
        (before tokens (size + nodes) depth) := rfl
  rw [hcount, if_neg (Nat.not_lt.mpr h)]
  rfl

theorem readNested_before {α : Type} {read : Read α} {tokens rest : List Token}
    {size size' depth : Nat} {a : α} (hsize : size + 1 ≤ sizeLimit) (hdepth : depth + 1 ≤ depthLimit)
    (hread : read (before tokens (size + 1) (depth + 1)) = .ok (a, before rest size' (depth + 1))) :
    readNested read (before tokens size depth) = .ok (a, before rest size' depth) := by
  have hdeeper : (modify fun s => { s with depth := s.depth + 1 } : Read Unit)
      (before tokens (size + 1) depth) = .ok ((), before tokens (size + 1) (depth + 1)) := rfl
  have hget : (get : Read Reader) (before tokens (size + 1) (depth + 1)) =
      .ok (before tokens (size + 1) (depth + 1), before tokens (size + 1) (depth + 1)) := rfl
  have hshallow : ¬depthLimit < (before tokens (size + 1) (depth + 1)).depth := Nat.not_lt.mpr hdepth
  rw [readNested, bind_run (count_before tokens hsize), bind_run hdeeper, bind_run hget,
    if_neg hshallow]
  exact (bind_run hread).trans rfl

/-- Tokens that are read as a node, wherever a node may stand as a value. -/
def Reads (tokens : List Token) (node : Node) : Prop :=
  (∃ t more, tokens = t :: more ∧ t ∉ blockEnds) ∧ ∃ nodes ≤ tokens.length,
    ∀ fuel rest size depth indentless, 2 * tokens.length ≤ fuel →
      size + tokens.length ≤ sizeLimit → depth + tokens.length ≤ depthLimit →
        readNode fuel true indentless (before (tokens ++ rest) size depth) =
          .ok (node, before rest (size + nodes) depth)

/-- Tokens that are read as the entries of a block mapping that ends behind them. -/
def ReadsEntries (tokens : List Token) (entries : List (Node × Node)) : Prop :=
  ∃ nodes ≤ tokens.length,
    ∀ fuel rest size depth, 2 * tokens.length ≤ fuel →
      size + tokens.length ≤ sizeLimit → depth + tokens.length ≤ depthLimit →
        readBlockEntries fuel (before (tokens ++ rest) size depth) =
          .ok (entries, before rest (size + nodes) depth)

theorem readNode_scalar (fuel : Nat) (indentless : Bool) (style : Style) (text : String)
    (rest : List Token) {size : Nat} (hsize : size + 1 ≤ sizeLimit) (depth : Nat) :
    readNode (fuel + 2) true indentless (before (.scalar style text :: rest) size depth) =
      .ok (.scalar style .untagged text, before rest (size + 1) depth) := by
  have hread : readNode (fuel + 2) true indentless
      (before (.scalar style text :: rest) size depth) =
        (countScalar (.scalar style .untagged text) >>= fun node => do
          setName ⟨none, none⟩ size node
          return node : Read Node) (before rest size depth) := rfl
  have hscalar : countScalar (.scalar style .untagged text) (before rest size depth) =
      .ok (.scalar style .untagged text, before rest (size + 1) depth) := by
    rw [countScalar, bind_run (count_before rest hsize)]
    rfl
  rw [hread, bind_run hscalar]
  rfl

theorem readNode_mapping {fuel : Nat} (indentless : Bool) {tokens rest : List Token}
    {entries : List (Node × Node)} {size size' depth : Nat} (hsize : size + 1 ≤ sizeLimit)
    (hdepth : depth + 1 ≤ depthLimit)
    (hread : readBlockEntries fuel (before tokens (size + 1) (depth + 1)) =
      .ok (entries, before rest size' (depth + 1))) :
    readNode (fuel + 2) true indentless (before (.blockMappingStart :: tokens) size depth) =
      .ok (.mapping entries, before rest size' depth) := by
  have hnode : readNode (fuel + 2) true indentless
      (before (.blockMappingStart :: tokens) size depth) =
        ((readNested (readBlockEntries fuel) >>= fun entries => return .mapping entries) >>=
          fun node => do
            setName ⟨none, none⟩ size node
            return node : Read Node) (before tokens size depth) := rfl
  have hmapping : (readNested (readBlockEntries fuel) >>= fun entries =>
      return .mapping entries : Read Node) (before tokens size depth) =
        .ok (.mapping entries, before rest size' depth) := by
    rw [bind_run (readNested_before hsize hdepth hread)]
    rfl
  rw [hnode, bind_run hmapping]
  rfl

/-- A scalar is read as itself. -/
theorem reads_scalar (style : Style) (text : String) :
    Reads [.scalar style text] (.scalar style .untagged text) := by
  refine ⟨⟨_, [], rfl, by simp [blockEnds]⟩, 1, Nat.le_refl _,
    fun fuel rest size depth indentless hfuel hsize _ => ?_⟩
  obtain ⟨fuel, rfl⟩ := Nat.exists_eq_add_of_le' hfuel
  exact readNode_scalar fuel indentless style text rest hsize depth

/-- A mapping is read with its entries. -/
theorem ReadsEntries.reads {tokens : List Token} {entries : List (Node × Node)}
    (h : ReadsEntries tokens entries) : Reads (.blockMappingStart :: tokens) (.mapping entries) := by
  obtain ⟨nodes, hnodes, hread⟩ := h
  refine ⟨⟨_, tokens, rfl, by simp [blockEnds]⟩, nodes + 1, Nat.succ_le_succ hnodes,
    fun fuel rest size depth indentless hfuel hsize hdepth => ?_⟩
  rw [List.length_cons] at hfuel hsize hdepth
  obtain ⟨fuel, rfl⟩ := Nat.exists_eq_add_of_le' (show 2 ≤ fuel by omega)
  have hentries := hread fuel rest (size + 1) (depth + 1) (by omega) (by omega) (by omega)
  rw [show size + 1 + nodes = size + (nodes + 1) by omega] at hentries
  exact readNode_mapping indentless (by omega) (by omega) hentries

theorem readsEntries_nil : ReadsEntries [.blockEnd] [] := by
  refine ⟨0, Nat.zero_le _, fun fuel rest size depth hfuel _ _ => ?_⟩
  obtain ⟨fuel, rfl⟩ := Nat.exists_eq_add_of_le' (show 1 ≤ fuel from Nat.le_of_succ_le hfuel)
  rfl

theorem readUnless_before {ends : List Token} {t : Token} (ht : t ∉ ends) (read : Read Node)
    (tokens : List Token) (size depth : Nat) :
    readUnless ends read (before (t :: tokens) size depth) =
      read (before (t :: tokens) size depth) := by
  have hpeek : peek (before (t :: tokens) size depth) = .ok (t, before (t :: tokens) size depth) :=
    rfl
  rw [readUnless, bind_run hpeek, if_neg ht]

theorem readValue_before {t : Token} (ht : t ∉ blockEnds) (read : Read Node)
    (tokens : List Token) (size depth : Nat) :
    readValue blockEnds read (before (.value :: t :: tokens) size depth) =
      read (before (t :: tokens) size depth) :=
  readUnless_before ht read tokens size depth

/-- An entry is read with its key and its value. -/
theorem ReadsEntries.cons (name : String) {value tokens : List Token} {node : Node}
    {entries : List (Node × Node)} (hvalue : Reads value node) (h : ReadsEntries tokens entries) :
    ReadsEntries (.key :: .scalar .plain name :: .value :: (value ++ tokens))
      ((.scalar .plain .untagged name, node) :: entries) := by
  obtain ⟨⟨t, ts, rfl, ht⟩, nodes, hnodes, hread⟩ := hvalue
  obtain ⟨more, hmore, hrest⟩ := h
  rw [List.length_cons] at hnodes
  refine ⟨1 + nodes + more, ?_, fun fuel rest size depth hfuel hsize hdepth => ?_⟩
  · simp only [List.length_cons, List.length_append]
    omega
  · simp only [List.length_cons, List.length_append] at hfuel hsize hdepth
    obtain ⟨fuel, rfl⟩ := Nat.exists_eq_add_of_le' (show 3 ≤ fuel by omega)
    have hkeySize : size + 1 ≤ sizeLimit := by omega
    have hname := readNode_scalar fuel true .plain name (.value :: t :: (ts ++ tokens ++ rest))
      hkeySize depth
    have hkey : readUnless blockEnds (readNode (fuel + 2) true true)
        (before (.scalar .plain name :: .value :: t :: (ts ++ tokens ++ rest)) size depth) =
          .ok (.scalar .plain .untagged name,
            before (.value :: t :: (ts ++ tokens ++ rest)) (size + 1) depth) := by
      rw [readUnless_before (by simp [blockEnds]), hname]
    have hnode := hread (fuel + 2) (tokens ++ rest) (size + 1) depth true
      (by rw [List.length_cons]; omega) (by rw [List.length_cons]; omega)
      (by rw [List.length_cons]; omega)
    have hentry : readValue blockEnds (readNode (fuel + 2) true true)
        (before (.value :: t :: (ts ++ tokens ++ rest)) (size + 1) depth) =
          .ok (node, before (tokens ++ rest) (size + 1 + nodes) depth) := by
      rw [readValue_before ht, List.append_assoc, ← List.cons_append, hnode]
    -- What is left of the fuel and of both limits is enough for the other entries.
    have hentries := hrest (fuel + 2) rest (size + 1 + nodes) depth (by omega) (by omega) (by omega)
    have hstep : readBlockEntries (fuel + 3)
        (before (.key :: .scalar .plain name :: .value :: (t :: ts ++ tokens) ++ rest) size depth) =
          (readUnless blockEnds (readNode (fuel + 2) true true) >>= fun key => do
            let value ← readValue blockEnds (readNode (fuel + 2) true true)
            return (key, value) :: (← readBlockEntries (fuel + 2)) : Read (List (Node × Node)))
            (before (.scalar .plain name :: .value :: t :: (ts ++ tokens ++ rest)) size depth) := rfl
    rw [hstep, bind_run hkey, bind_run hentry, bind_run hentries,
      show size + 1 + nodes + more = size + (1 + nodes + more) by omega]
    rfl

end Reader

/-- A text is read as it is if it has line breaks of one kind only. -/
theorem readableText_eq_self {cs : List Char} (hfront : cs.head? ≠ some '\ufeff')
    (h : ∀ c ∈ cs, c ≠ '\x00' ∧ c ≠ '\r') : readableText cs = cs := by
  have hbreaks : normalizeBreaks cs = cs := by
    clear hfront
    induction cs with
    | nil => rfl
    | cons c cs ih =>
      obtain ⟨hend, hreturn⟩ := h c List.mem_cons_self
      rw [normalizeBreaks, ih fun d hd => h d (List.mem_cons_of_mem c hd)]
      · exact fun h => hend h
      · exact fun _ h => absurd h hreturn
      · exact fun h => hreturn h
  unfold readableText
  split
  · exact absurd rfl hfront
  · exact hbreaks

/-- A text with the tokens of a mapping and nothing behind them is that mapping. -/
theorem readDocument_of_reads {cs : List Char} {tokens : List Token}
    {entries : List (Node × Node)} (htext : readableText cs = cs)
    (htokens : tokenize cs = .blockMappingStart :: tokens ++ [.streamEnd])
    (h : Reader.ReadsEntries tokens entries) (hlength : tokens.length < 2000) :
    readDocument cs = .ok (.mapping entries) := by
  obtain ⟨-, nodes, hnodes, hread⟩ := h.reads
  have hnode := hread (4 * (.blockMappingStart :: tokens ++ [.streamEnd] : List Token).length + 4)
    [.streamEnd] 0 0 false (by simp only [List.length_cons, List.length_append]; omega)
    (by rw [List.length_cons, Reader.sizeLimit]; omega)
    (by rw [List.length_cons, Reader.depthLimit]; omega)
  have hdocument : readDocument cs = (Reader.readNode
      (4 * (.blockMappingStart :: tokens ++ [.streamEnd] : List Token).length + 4) true false
      (Reader.before (.blockMappingStart :: tokens ++ [.streamEnd]) 0 0) >>= fun read => do
        checkEnd read.2.tokens
        if read.2.isFlooded then .error .tooManyAliases
        return read.1) := by
    rw [readDocument, htext, htokens]
    rfl
  rw [hdocument, hnode]
  rfl

theorem toLower_eq (text : String) : text.toLower = .ofList (text.toList.map Char.toLower) := by
  rw [← String.toList_inj, String.toList_ofList]
  exact String.toList_map

/-- A text is none of some shorter words, whatever its letters look like. -/
theorem toLower_not_mem {text : String} {words : List String}
    (h : ∀ word ∈ words, word.length < text.length) : text.toLower ∉ words := by
  intro hmem
  have hlower : text.toLower.length = text.length := by
    rw [toLower_eq, String.length_ofList, List.length_map, String.length_toList]
  have hshort := h _ hmem
  omega

namespace Node

/-- The entries of a mapping in which names stand for themselves. -/
def entriesOf (fields : List (String × Node)) : List (Node × Node) :=
  fields.map fun f => (.scalar .plain .untagged f.1, f.2)

theorem hasKey_entriesOf (fields : List (String × Node)) (name : String) :
    hasKey (entriesOf fields) (.scalar .plain .untagged name) =
      decide (name ∈ fields.map (·.1)) := by
  induction fields with
  | nil => rfl
  | cons f fields ih =>
    have hkey : hasKey (entriesOf (f :: fields)) (.scalar .plain .untagged name) =
        (f.1 == name || hasKey (entriesOf fields) (.scalar .plain .untagged name)) := by
      simp [hasKey, entriesOf, same, Tag.same]
    rw [hkey, ih, List.map_cons]
    simp [Bool.beq_eq_decide_eq, eq_comm]

theorem merge_entriesOf {fields : List (String × Node)} (hnodup : (fields.map (·.1)).Nodup)
    (hmerge : "<<" ∉ fields.map (·.1)) : merge (entriesOf fields) = .ok (entriesOf fields) := by
  have hkeys : checkKeys (entriesOf fields) = .ok () := by
    clear hmerge
    induction fields with
    | nil => rfl
    | cons f fields ih =>
      obtain ⟨hname, hnodup⟩ := List.nodup_cons.mp hnodup
      have hfirst := hasKey_entriesOf fields f.1
      rw [decide_eq_false hname] at hfirst
      exact (if_neg (Bool.eq_false_iff.mp hfirst)).trans (ih hnodup)
  have hown : ∀ e ∈ entriesOf fields, e.1.isMergeKey = false := by
    intro e he
    obtain ⟨f, hf, rfl⟩ := List.mem_map.mp he
    have hname : f.1 ≠ "<<" := fun h => hmerge (h ▸ List.mem_map_of_mem hf)
    exact beq_false_of_ne hname
  -- Nothing is taken over from other mappings.
  have htaken : takenOver (entriesOf fields) = .ok [] := by
    generalize entriesOf fields = entries at hown
    induction entries with
    | nil => rw [takenOver]
    | cons e entries ih =>
      rw [takenOver, hown e List.mem_cons_self, if_neg Bool.false_ne_true]
      exact ih fun e he => hown e (List.mem_cons_of_mem _ he)
  have hkept : ownEntries (entriesOf fields) = entriesOf fields :=
    List.filter_eq_self.mpr fun e he => congrArg (!·) (hown e he)
  rw [merge, hkept, hkeys, ok_bind, htaken]
  rfl

/-- A scalar is read as its text unless it stands for nothing. -/
theorem readTextAs_scalar {style : Style} {text : String}
    (h : (scalar style .untagged text).isAbsent = false) (expected : String) :
    readTextAs expected (.scalar style .untagged text) = .ok text := by
  have hnull : (scalar style .untagged text).isNull = false := by
    cases style with
    | plain =>
      simp only [isAbsent, Bool.or_eq_false_iff, decide_true, Bool.true_and] at h
      exact h.1.2
    | quoted | block => rfl
  rw [readTextAs, hnull]
  rfl

/-- A text longer than the word for nothing stands for something. -/
theorem isNullText_of_length {text : String} (h : 4 < text.length) : isNullText text = false := by
  have hnull : text.toLower ∉ ["null"] := by
    refine toLower_not_mem fun word hword => ?_
    rw [List.mem_singleton.mp hword]
    exact h
  have hne (other : String) (hother : other.length ≤ 4) : text ≠ other := by
    rintro rfl
    omega
  rw [isNullText, beq_false_of_ne (hne "~" (by decide)),
    beq_false_of_ne fun heq => hnull (List.mem_singleton.mpr heq)]
  simpa using hne "" (by decide)

/-- A mapping whose keys are the distinct names of a record has the fields of that. Names that are
long enough stand for themselves. -/
theorem readFields_entriesOf (type : String) {names : List String} {fields : List (String × Node)}
    (hfields : fields.map (·.1) = names) (hnodup : names.Nodup)
    (hlong : ∀ name ∈ names, 4 < name.length) :
    readFields type names (.mapping (entriesOf fields)) = .ok fields := by
  have hmember : ∀ f ∈ fields, f.1 ∈ names :=
    fun _ hf => hfields ▸ List.mem_map_of_mem hf
  have hmerge : "<<" ∉ names := fun h => absurd (hlong _ h) (by decide)
  rw [← hfields] at hnodup hmerge
  have hmerged := merge_entriesOf hnodup hmerge
  have hknown : fields.filter (fun f => decide (f.1 ∈ names)) = fields :=
    List.filter_eq_self.mpr fun f hf => decide_eq_true (hmember f hf)
  have hcount (name : String) : ¬1 < (fields.map (·.1)).count name :=
    Nat.not_lt.mpr (List.nodup_iff_count_le_one.mp hnodup name)
  have honce : (forIn names PUnit.unit fun name _ => (do
      if 1 < (fields.map (·.1)).count name then .error (.mismatch (.duplicateField name))
      return .yield PUnit.unit : Except Error (ForInStep PUnit))) = .ok PUnit.unit :=
    forIn_eq_ok fun name _ => if_neg (hcount name)
  rw [readFields, hmerged, ok_bind, entriesOf, mapM_map_eq_ok, ok_bind]
  · simp only [hknown]
    exact congrArg (· >>= fun _ => .ok fields) honce
  · intro f hf
    have hkey : readTextAs "field identifier" (.scalar .plain .untagged f.1) = .ok f.1 := by
      rw [readTextAs, isNull, isNullText_of_length (hlong _ (hmember f hf))]
      rfl
    simp only [hkey, ok_bind, hmember f hf, not_true_eq_false, if_false, pure_eq_ok]

end Node

end Schemata.Yaml
