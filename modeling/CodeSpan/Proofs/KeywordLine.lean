import CodeSpan.Proofs.BraceCount
import CodeSpan.Proofs.Indentation
import CodeSpan.Proofs.Nesting

/-!
# Indented lines of keyword programs

A text that begins no comment is counted alike at every depth: what it adds when it is indented
by one space, it adds under any deeper indentation. A line without braces that opens at most one
block and closes none leaves one block open when a block is sought from it.
-/

namespace CodeSpan

/-- A line at some depth, indented by two spaces for each level. -/
def indented (depth : Nat) (text : List Char) : List Char :=
  List.replicate (2 * depth) ' ' ++ text

theorem isBlankText_indent (depth : Nat) :
    Text.isBlankText (List.replicate (2 * depth) ' ') = true :=
  Text.isBlankText_replicate _

theorem trimStart_indented {c : Char} (hc : Text.isBlank c = false) (depth : Nat)
    (text : List Char) : Text.trimStart (indented depth (c :: text)) = c :: text :=
  Text.trimStart_append (isBlankText_indent depth) hc

theorem mem_indented {c : Char} (hc : c ≠ ' ') {depth : Nat} {text : List Char} :
    c ∈ indented depth text ↔ c ∈ text := by
  simp [indented, hc]

theorem infix_indented {c : Char} {needle : List Char} (hc : c ≠ ' ') {depth : Nat}
    {text : List Char} : c :: needle <:+: indented depth text ↔ c :: needle <:+: text := by
  rw [indented]
  induction 2 * depth with
  | zero => rfl
  | succ n ih =>
      have hno : ¬ c :: needle <+: List.replicate (n + 1) ' ' ++ text := by
        rintro ⟨rest, hrest⟩
        exact hc (List.cons.inj hrest).1
      rw [List.replicate_succ, List.cons_append] at hno ⊢
      rw [List.infix_cons_iff, ih]
      exact or_iff_right hno

/-- A text that begins no comment and adds so many openers and closers behind a space. -/
structure KeywordText (text : List Char) (opened closed : Nat) : Prop where
  no_lineMarker : '#' ∉ text
  no_blockOpen : ¬ "=begin".toList <:+: text
  opens_eq : Dialect.keywordBlocks.countOpens (' ' :: text) = opened
  closes_eq : Dialect.keywordBlocks.countCloses (' ' :: text) = closed

instance (text : List Char) (opened closed : Nat) :
    Decidable (KeywordText text opened closed) :=
  decidable_of_iff
    ('#' ∉ text ∧ ¬ "=begin".toList <:+: text ∧
      Dialect.keywordBlocks.countOpens (' ' :: text) = opened ∧
      Dialect.keywordBlocks.countCloses (' ' :: text) = closed)
    ⟨fun ⟨h, h', h'', h'''⟩ => ⟨h, h', h'', h'''⟩, fun ⟨h, h', h'', h'''⟩ => ⟨h, h', h'', h'''⟩⟩

theorem classify_keyword {line : List Char} (hline : '#' ∉ line)
    (hopen : ¬ "=begin".toList <:+: line) :
    Dialect.keyword.comments.classify .outside line = (.code line, .outside) := by
  apply CommentSyntax.classify_of_unmarked Dialect.keyword.comments_delimited _ hopen
  intro hin
  exact hline (hin.subset List.mem_cons_self)

namespace KeywordText

variable {text : List Char} {opened closed : Nat}

theorem classify_eq (h : KeywordText text opened closed) (depth : Nat) :
    Dialect.keyword.comments.classify .outside (indented depth text) =
      (.code (indented depth text), .outside) := by
  apply classify_keyword
  · rw [mem_indented (by decide)]
    exact h.no_lineMarker
  · exact fun hin => h.no_blockOpen ((infix_indented (by decide)).1 hin)

theorem countOpens_eq (h : KeywordText text opened closed) (depth : Nat) :
    Dialect.keywordBlocks.countOpens (indented (depth + 1) text) = opened :=
  (BlockRules.countOpens_replicate Dialect.keywordBlocks_ignoresIndent _ text).trans h.opens_eq

theorem countCloses_eq (h : KeywordText text opened closed) (depth : Nat) :
    Dialect.keywordBlocks.countCloses (indented (depth + 1) text) = closed :=
  (BlockRules.countCloses_replicate Dialect.keywordBlocks_ignoresIndent _ text).trans h.closes_eq

theorem adds (h : KeywordText text opened closed) (depth : Nat) :
    Adds Dialect.keyword.comments Dialect.keywordBlocks (indented (depth + 1) text) opened
      closed where
  outside := by rw [h.classify_eq]
  opens_eq := by
    rw [h.classify_eq]
    exact h.countOpens_eq depth
  closes_eq := by
    rw [h.classify_eq]
    exact h.countCloses_eq depth

end KeywordText

/-- From a line of code with at most one opener, no closer and no brace, one block is open. -/
theorem starts_keyword {line : List Char}
    (hclass : Dialect.keyword.comments.classify .outside line = (.code line, .outside))
    (hbrace : '\x7b' ∉ line) (hopens : Dialect.keywordBlocks.countOpens line ≤ 1)
    (hcloses : Dialect.keywordBlocks.countCloses line = 0) : Starts Dialect.keyword line := by
  have hinline : ∀ rules ∈ Dialect.keyword.inlineBlocks, rules.countOpens line = 0 := by
    intro rules hrules
    cases hrules
    rw [Dialect.countOpens_braceBlocks, List.count_eq_zero]
    exact hbrace
  have hrules := Dialect.selectRules_of_no_inline hinline
  refine ⟨by rw [hclass], ?_, ?_, ?_⟩
  · rw [hclass, hrules]
  · rw [hclass, hrules]
    change (if true = true ∧ Dialect.keywordBlocks.countOpens line = 0 then 1 else 0) +
      Dialect.keywordBlocks.countOpens line = 1
    by_cases hzero : Dialect.keywordBlocks.countOpens line = 0
    · rw [if_pos ⟨rfl, hzero⟩, hzero]
    · rw [if_neg fun h => hzero h.2]
      omega
  · rw [hclass]
    exact hcloses

theorem KeywordText.starts {text : List Char} {opened : Nat} (h : KeywordText text opened 0)
    (hopened : opened ≤ 1) (hbrace : '\x7b' ∉ text) (depth : Nat) :
    Starts Dialect.keyword (indented (depth + 1) text) := by
  apply starts_keyword (h.classify_eq _) _ _ (h.countCloses_eq depth)
  · rw [mem_indented (by decide)]
    exact hbrace
  · rw [h.countOpens_eq depth]
    exact hopened

end CodeSpan
