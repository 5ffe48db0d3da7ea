import Schemata.Config.YamlText
import Schemata.Proofs.Yaml.Nodes
import Schemata.Proofs.Yaml.Scalars
/-!
# Configurations inside YAML texts

A configuration is read back from the text that it is written as. Each of its texts stands for
itself there, except for a long one that breaks in front of several spaces.
-/

namespace Schemata

open Yaml (Node Token margin IsFieldName)
open Yaml.Node (entriesOf)
open Yaml.Lexer (TakesFor Gives gives_end gives_entry gives_nested)
open Yaml.Reader (ReadsEntries readsEntries_nil reads_scalar)

/-- What a text is read back as when it is the value of a field. -/
def rereadText (text : String) : String := .ofList (Yaml.reread text.toList)

theorem rereadText_eq_iff {t : String} : rereadText t = t ↔ Yaml.reread t.toList = t.toList := by
  rw [rereadText, ← String.toList_inj, String.toList_ofList]

theorem rereadText_of_length_le {t : String} (h : t.length ≤ Yaml.lineWidth) : rereadText t = t :=
  rereadText_eq_iff.mpr (Yaml.reread_of_length_le (by rwa [String.length_toList]))

namespace Outputs

theorem ofYaml_entriesOf (prisma types : Node) :
    ofYaml (.mapping (entriesOf [("prisma", prisma), ("types", types)])) = do
      return ⟨← prisma.readTextAs "path string", ← types.readTextAs "path string"⟩ := by
  rw [ofYaml, Node.readFields_entriesOf]
  · rfl
  · rfl
  · decide
  · decide

end Outputs

namespace Config

variable {c : Config}

/-- The texts that a configuration is free to choose. -/
def texts (c : Config) : List String :=
  c.version :: c.input :: c.basePrelude.toList ++ [c.outputs.prisma, c.outputs.types]

/-- The configuration that is read back. -/
def reread (c : Config) : Config where
  version := rereadText c.version
  input := rereadText c.input
  basePrelude := c.basePrelude.map rereadText
  outputs := ⟨rereadText c.outputs.prisma, rereadText c.outputs.types⟩
  unresolvedRelations := c.unresolvedRelations

theorem forall_mem_texts {p : String → Prop} :
    (∀ t ∈ c.texts, p t) ↔ p c.version ∧ p c.input ∧ (∀ t ∈ c.basePrelude, p t) ∧
      p c.outputs.prisma ∧ p c.outputs.types := by
  simp only [texts, List.forall_mem_cons, List.forall_mem_append, Option.mem_toList,
    List.cons_append]
  simp

theorem reread_eq_iff : c.reread = c ↔ ∀ t ∈ c.texts, rereadText t = t := by
  obtain ⟨version, input, basePrelude, ⟨prisma, types⟩, policy⟩ := c
  rw [forall_mem_texts]
  cases basePrelude <;> simp [reread]

/-- A text of a configuration is one scalar, which stands for something. -/
theorem takesFor_yamlText {t : String} (h : Yaml.IsTidy t.toList) (depth : Nat) :
    ∃ style, TakesFor (2 * depth) (yamlText depth t) style (rereadText t) ∧
      (Node.scalar style .untagged (rereadText t)).isAbsent = false :=
  h.takesFor_writeScalar (show 2 * depth < 2 * (depth + 1) by omega)

theorem isTidy_policy (p : UnresolvedPolicy) : Yaml.IsTidy p.name.toList := by
  cases p <;> decide

theorem takesFor_policy (p : UnresolvedPolicy) :
    ∃ style, TakesFor 0 (yamlText 0 p.name) style p.name := by
  have hshort : p.name.length ≤ Yaml.lineWidth := by cases p <;> decide
  obtain ⟨style, h, -⟩ := takesFor_yamlText (isTidy_policy p) 0
  rw [rereadText_of_length_le hshort] at h
  exact ⟨style, h⟩

theorem takesFor_yamlOption {o : Option String} (h : ∀ t ∈ o, Yaml.IsTidy t.toList) :
    ∃ style text, TakesFor 0 (yamlOption 0 o) style text ∧
      (Node.scalar style .untagged text).readOption (Node.readTextAs "path string") =
        .ok (o.map rereadText) := by
  cases o with
  | none =>
    have hplain : Yaml.IsPlainText ['n', 'u', 'l', 'l'] :=
      ⟨⟨by simp [Yaml.isGap, Yaml.isBlank], by decide, rfl, by decide⟩, _, _, rfl, by decide,
        by decide⟩
    have habsent : (Node.scalar .plain .untagged "null").isAbsent = true := by
      rw [Node.isAbsent, Node.isNullText, Yaml.toLower_eq]
      decide
    exact ⟨.plain, "null", Yaml.Lexer.takesFor_plain hplain 0, if_pos habsent⟩
  | some t =>
    obtain ⟨style, htakes, habsent⟩ := takesFor_yamlText (h t rfl) 0
    refine ⟨style, rereadText t, htakes, ?_⟩
    rw [Node.readOption, habsent, Node.readTextAs_scalar habsent]
    rfl

/-- Only line breaks are written in a field that are not seen. -/
theorem isControl_of_mem_yamlField (depth : Nat) {name : String} {value : List Char}
    (hname : name.toList.any Yaml.isControl = false)
    (hvalue : ∀ d ∈ value, d = '\n' ∨ Yaml.isControl d = false) :
    ∀ d ∈ yamlField depth name value, d = '\n' ∨ Yaml.isControl d = false := by
  intro d hd
  simp only [yamlField, List.mem_append, List.mem_cons, List.not_mem_nil, or_false] at hd
  obtain (hd | hd) | rfl | rfl | hd | hd := hd
  · rw [List.eq_of_mem_replicate hd]
    exact .inr rfl
  · exact .inr (Bool.eq_false_iff.mpr (List.any_eq_false.mp hname d hd))
  · exact .inr rfl
  · exact .inr rfl
  · exact hvalue d hd
  · exact .inl hd

/-- Only line breaks are written in a configuration that are not seen. -/
theorem isControl_of_mem_yamlChars (h : ∀ t ∈ c.texts, Yaml.IsTidy t.toList) :
    ∀ d ∈ c.yamlChars, d = '\n' ∨ Yaml.isControl d = false := by
  obtain ⟨hversion, hinput, hprelude, hprisma, htypes⟩ := forall_mem_texts.mp h
  have hoption : ∀ d ∈ yamlOption 0 c.basePrelude, d = '\n' ∨ Yaml.isControl d = false := by
    cases hc : c.basePrelude with
    | none => simp [yamlOption, Yaml.isControl]
    | some t => exact (hprelude t hc).isControl_of_mem_writeScalar _
  simp only [yamlChars, List.forall_mem_append]
  refine ⟨⟨⟨⟨⟨⟨?_, ?_⟩, ?_⟩, ?_⟩, ?_⟩, ?_⟩, ?_⟩
  · exact isControl_of_mem_yamlField 0 (by decide) (hversion.isControl_of_mem_writeScalar _)
  · exact isControl_of_mem_yamlField 0 (by decide) (hinput.isControl_of_mem_writeScalar _)
  · exact isControl_of_mem_yamlField 0 (by decide) hoption
  · simp [Yaml.isControl]
  · exact isControl_of_mem_yamlField 1 (by decide) (hprisma.isControl_of_mem_writeScalar _)
  · exact isControl_of_mem_yamlField 1 (by decide) (htypes.isControl_of_mem_writeScalar _)
  · exact isControl_of_mem_yamlField 0 (by decide)
      ((isTidy_policy c.unresolvedRelations).isControl_of_mem_writeScalar _)

/-- The text of a configuration. The margin of a line belongs to the line in front of it. -/
theorem yamlChars_eq (c : Config) : c.yamlChars =
    "version".toList ++ ':' :: ' ' :: (yamlText 0 c.version ++ (margin 0 ++
    ("input".toList ++ ':' :: ' ' :: (yamlText 0 c.input ++ (margin 0 ++
    ("base_prelude".toList ++ ':' :: ' ' :: (yamlOption 0 c.basePrelude ++ (margin 0 ++
    ("outputs".toList ++ ':' :: (margin 2 ++
    ("prisma".toList ++ ':' :: ' ' :: (yamlText 1 c.outputs.prisma ++ (margin 2 ++
    ("types".toList ++ ':' :: ' ' :: (yamlText 1 c.outputs.types ++ (margin 0 ++
    ("unresolved_relations".toList ++ ':' :: ' ' :: (yamlText 0 c.unresolvedRelations.name ++
      (margin 0 ++ []))))))))))))))))))) := by
  simp only [yamlChars, yamlField, margin, List.append_assoc, List.cons_append, List.nil_append]
  rfl

theorem exists_tokens {s₁ s₂ s₃ s₄ s₅ s₆ : Yaml.Style} {t₁ t₂ t₃ t₄ t₅ t₆ : String}
    (hversion : TakesFor 0 (yamlText 0 c.version) s₁ t₁)
    (hinput : TakesFor 0 (yamlText 0 c.input) s₂ t₂)
    (hprelude : TakesFor 0 (yamlOption 0 c.basePrelude) s₃ t₃)
    (hprisma : TakesFor 2 (yamlText 1 c.outputs.prisma) s₄ t₄)
    (htypes : TakesFor 2 (yamlText 1 c.outputs.types) s₅ t₅)
    (hpolicy : TakesFor 0 (yamlText 0 c.unresolvedRelations.name) s₆ t₆) :
    ∃ tokens, Gives [] 0 c.yamlChars 21 (.blockMappingStart :: tokens ++ [.streamEnd]) ∧
      tokens.length < 2000 ∧ ReadsEntries tokens (entriesOf [
        ("version", .scalar s₁ .untagged t₁), ("input", .scalar s₂ .untagged t₂),
        ("base_prelude", .scalar s₃ .untagged t₃),
        ("outputs", .mapping (entriesOf [
          ("prisma", .scalar s₄ .untagged t₄), ("types", .scalar s₅ .untagged t₅)])),
        ("unresolved_relations", .scalar s₆ .untagged t₆)]) := by
  have hname : ∀ name ∈ ["version", "input", "base_prelude", "outputs", "prisma", "types",
      "unresolved_relations"], IsFieldName name.toList := by decide
  simp only [List.forall_mem_cons] at hname
  obtain ⟨nversion, ninput, nprelude, noutputs, nprisma, ntypes, npolicy, -⟩ := hname
  -- From the last line on: the tokens of a line stand in front of those of the lines behind it.
  have h := gives_end [0] 0
  have h := gives_entry [2] [0] npolicy hpolicy (by decide) (by decide) (Nat.zero_le 0) .nil h
  have h := gives_entry [] [2, 0] ntypes htypes (by decide) (by decide) (Nat.zero_le 2)
    (npolicy.isSolid_append _) h
  have h := gives_entry [] [0] nprisma hprisma (by decide) (by decide) (Nat.le_refl 2)
    (ntypes.isSolid_append _) h
  have h := gives_nested [] [0] 0 noutputs (by decide) (by decide) h
  have h := gives_entry [] [0] nprelude hprelude (by decide) (by decide) (Nat.zero_le 0)
    (noutputs.isSolid_append _) h
  have h := gives_entry [] [0] ninput hinput (by decide) (by decide) (Nat.zero_le 0)
    (nprelude.isSolid_append _) h
  have h := gives_entry [] [] nversion hversion (by decide) (by decide) (Nat.zero_le 0)
    (ninput.isSolid_append _) h
  -- The same tokens as the reader goes through them.
  have houtputs := ReadsEntries.cons "prisma" (reads_scalar s₄ t₄)
    (.cons "types" (reads_scalar s₅ t₅) readsEntries_nil)
  have hentries := ReadsEntries.cons "version" (reads_scalar s₁ t₁)
    (.cons "input" (reads_scalar s₂ t₂) (.cons "base_prelude" (reads_scalar s₃ t₃)
      (.cons "outputs" houtputs.reads
        (.cons "unresolved_relations" (reads_scalar s₆ t₆) readsEntries_nil))))
  -- Whether a line begins a mapping has been found by computing with the columns.
  simp only [String.ofList_toList] at h
  rw [← yamlChars_eq] at h
  refine ⟨_, ?_, ?_, hentries⟩
  · exact h
  · simp

theorem ofYaml_entriesOf (version input prelude outputs policy : Node) :
    ofYaml (.mapping (entriesOf [("version", version), ("input", input), ("base_prelude", prelude),
      ("outputs", outputs), ("unresolved_relations", policy)])) = do
        let version ← version.readTextAs "a string"
        let input ← input.readTextAs "path string"
        let basePrelude ← prelude.readOption (Node.readTextAs "path string")
        let outputs ← Outputs.ofYaml outputs
        let unresolvedRelations ←
          policy.readNamed "UnresolvedRelationPolicy" UnresolvedPolicy.named
        return { version, input, basePrelude, outputs, unresolvedRelations } := by
  rw [ofYaml, Node.readFields_entriesOf]
  · rfl
  · rfl
  · decide
  · decide

/-- A configuration of texts on one line is read back, with what has become of these. -/
theorem ofYamlText_toYaml (h : ∀ t ∈ c.texts, Yaml.IsTidy t.toList) :
    ofYamlText c.toYaml = .ok c.reread := by
  obtain ⟨hversion, hinput, hprelude, hprisma, htypes⟩ := forall_mem_texts.mp h
  obtain ⟨s₁, hversion, hversion'⟩ := takesFor_yamlText hversion 0
  obtain ⟨s₂, hinput, hinput'⟩ := takesFor_yamlText hinput 0
  obtain ⟨s₃, t₃, hprelude, hprelude'⟩ := takesFor_yamlOption hprelude
  obtain ⟨s₄, hprisma, hprisma'⟩ := takesFor_yamlText hprisma 1
  obtain ⟨s₅, htypes, htypes'⟩ := takesFor_yamlText htypes 1
  obtain ⟨s₆, hpolicy⟩ := takesFor_policy c.unresolvedRelations
  obtain ⟨tokens, hgives, hlength, hreads⟩ :=
    exists_tokens hversion hinput hprelude hprisma htypes hpolicy
  -- No carriage return and no mark at the front: the text is read as it is.
  have hfront : c.yamlChars.head? = some 'v' := rfl
  have htext : Yaml.readableText c.yamlChars = c.yamlChars := by
    refine Yaml.readableText_eq_self (by rw [hfront]; decide) fun d hd => ?_
    obtain rfl | hseen := isControl_of_mem_yamlChars h d hd
    · decide
    · constructor <;> rintro rfl <;> exact absurd hseen (by decide)
  have hlong : 21 ≤ c.yamlChars.length + 1 := by
    simp [yamlChars, yamlField]
    omega
  have hdocument := Yaml.readDocument_of_reads htext (Yaml.tokenize_eq_of_gives hlong hgives) hreads
    hlength
  have hpolicy' : (Node.scalar s₆ .untagged c.unresolvedRelations.name).readNamed
      "UnresolvedRelationPolicy" UnresolvedPolicy.named = .ok c.unresolvedRelations := by
    cases c.unresolvedRelations <;> rfl
  rw [ofYamlText, Yaml.ofText, toYaml, String.toList_ofList, hdocument, ok_bind, ofYaml_entriesOf,
    Node.readTextAs_scalar hversion', Node.readTextAs_scalar hinput', hprelude',
    Outputs.ofYaml_entriesOf, Node.readTextAs_scalar hprisma', Node.readTextAs_scalar htypes',
    hpolicy']
  rfl

/-- Texts that look like something else, or like pieces of YAML, and a long one. -/
def peculiar : Config where
  version := "1.0"
  input := "\"it's\": [a, b] # \\ \x7bc\x7d"
  basePrelude := some "null"
  outputs.prisma := "true"
  outputs.types :=
    "generated files of a project whose directories have long names with a few words in them"
  unresolvedRelations := .error

/-- A text that breaks in front of two spaces. -/
def spacedText : List Char := List.replicate 80 'x' ++ [' ', ' ', 'w', 'o', 'r', 'd']

theorem isFolded_spacedText : Yaml.isFolded spacedText = true := by
  have htrim : Text.trim (.ofList spacedText) = .ofList spacedText := by
    rw [Text.trim, String.toList_ofList]
    exact congrArg String.ofList (by decide)
  have hword : ∀ words : List String, (∀ word ∈ words, word.length ≤ 5) →
      (String.ofList spacedText).toLower ∉ words := fun words hshort =>
    Yaml.toLower_not_mem fun word hword => by
      rw [String.length_ofList]
      exact Nat.lt_of_le_of_lt (hshort word hword) (by decide)
  rw [Yaml.isFolded, Yaml.isPlainSafe, Node.isNullText_of_length (by rw [String.length_ofList]; decide),
    Yaml.Scalar.bool?, htrim, if_neg (hword _ (by decide)), if_neg (hword _ (by decide)),
    Yaml.looksUnbounded, decide_eq_false (hword _ (by decide))]
  decide

end Config
end Schemata
