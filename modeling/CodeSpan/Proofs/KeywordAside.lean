import CodeSpan.Proofs.KeywordLine

/-!
# Texts and asides of keyword programs

The text that opens a block opens one, a statement leaves the blocks as they are and an end
closes one, at every depth below the outermost. Comments of both kinds, a comment behind a
statement and members that end by themselves leave the blocks around them as they are.
-/

namespace CodeSpan.KeywordProgram

/-- Lines that never move the end of a block: comments, and members that end by themselves. -/
def asides : List (List (List Char)) :=
  [["# end end"],
    ["count += 1 # end"],
    ["# if x then"],
    ["def name=(value)", "  @name = value", "end"],
    ["def self.label=(text)", "  @label = text", "end"],
    ["def twice(x) = x * 2"],
    ["=begin", "def hidden", "=end"]].map (·.map String.toList)

/-- The texts that programs are made of, with their openers and closers behind a space. -/
def texts : List (String × Nat × Nat) :=
  [("if ready", 1, 0), ("count += 1", 0, 0), ("count += 1 ", 0, 0), ("end", 0, 1),
    ("def name=(value)", 1, 0), ("  @name = value", 0, 0), ("def self.label=(text)", 1, 0),
    ("  @label = text", 0, 0), ("def twice(x) = x * 2", 0, 0)]

-- One evaluation for all texts, because every evaluation compiles the patterns anew.
theorem keywordText_texts : ∀ entry ∈ texts, KeywordText entry.1.toList entry.2.1 entry.2.2 := by
  decide +kernel

theorem keywordText_of_mem {text : String} {opened closed : Nat}
    (h : (text, opened, closed) ∈ texts) : KeywordText text.toList opened closed :=
  keywordText_texts _ h

theorem text_statement : KeywordText "count += 1".toList 0 0 :=
  keywordText_of_mem (by simp [texts])

theorem text_before_comment : KeywordText "count += 1 ".toList 0 0 :=
  keywordText_of_mem (by simp [texts])

theorem text_opening : KeywordText "if ready".toList 1 0 :=
  keywordText_of_mem (by simp [texts])

theorem text_closing : KeywordText "end".toList 0 1 :=
  keywordText_of_mem (by simp [texts])

/-- The end in the comment behind a statement is cut off. -/
theorem classify_trailing (depth : Nat) :
    Dialect.keyword.comments.classify .outside (indented depth "count += 1 # end".toList) =
      (.code (indented depth "count += 1 ".toList), .outside) := by
  have hsplit : indented depth "count += 1 # end".toList =
      indented depth "count += 1 ".toList ++ Dialect.keyword.comments.line ++ " end".toList := by
    simp only [indented, List.append_assoc]
    rfl
  have hnot : ¬ Dialect.keyword.comments.isLineComment
      (indented depth "count += 1 # end".toList) = true := by
    change ¬ Dialect.keyword.comments.isLineComment
      (indented depth ('c' :: "ount += 1 # end".toList)) = true
    rw [CommentSyntax.isLineComment_iff, trimStart_indented rfl]
    decide
  have hopen : ¬ Dialect.keyword.comments.blockOpen <:+:
      indented depth "count += 1 # end".toList := by
    change ¬ '=' :: "begin".toList <:+: _
    rw [infix_indented (by decide)]
    decide
  have hstarts : Dialect.keyword.comments.startsLineComment
      ⟨indented depth "count += 1 ".toList, " end".toList⟩ = true := by
    have hlast : (indented depth "count += 1 ".toList).getLast? = some ' ' := by
      rw [indented, List.getLast?_append]
      rfl
    rw [CommentSyntax.startsLineComment, hlast]
    rfl
  have hmark : '#' ∉ indented depth "count += 1 ".toList := by
    rw [mem_indented (by decide)]
    exact text_before_comment.no_lineMarker
  unfold CommentSyntax.classify
  rw [if_neg hnot,
    (CommentSyntax.openIndex?_eq_none_iff Dialect.keyword.comments_delimited).2 hopen]
  dsimp only
  rw [hsplit, CommentSyntax.cutLineComment_append rfl hmark hstarts]

theorem adds_trailing (depth : Nat) :
    Adds Dialect.keyword.comments Dialect.keywordBlocks
      (indented (depth + 1) "count += 1 # end".toList) 0 0 where
  outside := by rw [classify_trailing]
  opens_eq := by
    rw [classify_trailing]
    exact text_before_comment.countOpens_eq depth
  closes_eq := by
    rw [classify_trailing]
    exact text_before_comment.countCloses_eq depth

abbrev LevelText (lines : List (List Char)) : Prop :=
  Level Dialect.keyword.comments Dialect.keywordBlocks lines

theorem level_comments {lines : List (List Char)}
    (h : Dialect.keyword.comments.Chunk .outside lines) : LevelText lines :=
  Level.comments Dialect.keyword.comments_delimited (DialectKind.distinct_comments .keyword)
    Dialect.solid_keywordBlocks h

theorem level_lineComment (depth : Nat) (text : List Char) :
    LevelText [indented depth ('#' :: text)] := by
  apply level_comments
  apply CommentSyntax.Chunk.lineComments
  intro line hline
  rw [List.mem_singleton.1 hline, trimStart_indented rfl]
  exact ⟨text, rfl⟩

theorem level_member {opening body : List Char} (hopening : KeywordText opening 1 0)
    (hbody : KeywordText body 0 0) (depth : Nat) :
    LevelText ([opening, body, "end".toList].map (indented (depth + 1))) :=
  Level.block (hopening.adds depth) (Level.line (hbody.adds depth)) (text_closing.adds depth)

theorem level_blockComment (depth : Nat) :
    LevelText (["=begin", "def hidden", "=end"].map (indented depth ·.toList)) := by
  have hunclosed : ∀ text : List Char, ¬ "=end".toList <:+: text →
      ¬ Dialect.keyword.comments.blockClose <:+: indented depth text := by
    intro text h hin
    exact h ((infix_indented (by decide)).1 hin)
  have hfirst : indented depth "=begin".toList =
      List.replicate (2 * depth) ' ' ++ Dialect.keyword.comments.blockOpen ++ [] :=
    (List.append_nil _).symm
  have hchunk : Dialect.keyword.comments.Chunk .outside
      ((List.replicate (2 * depth) ' ' ++ Dialect.keyword.comments.blockOpen ++ []) ::
        ([indented depth "def hidden".toList] ++ [indented depth "=end".toList])) := by
    refine .block (isBlankText_indent depth) ?_ ?_ ?_ ?_ ?_
    · rw [← hfirst]
      exact hunclosed _ (by decide)
    · intro line hline
      rw [List.mem_singleton.1 hline]
      exact hunclosed _ (by decide)
    · exact (infix_indented (by decide)).2 List.infix_rfl
    · intro hin
      exact absurd ((infix_indented (by decide)).1 hin) (by decide)
    · change ¬ _ <+: Text.trimStart (indented depth ('=' :: "end".toList))
      rw [trimStart_indented rfl]
      decide
  rw [← hfirst] at hchunk
  exact level_comments hchunk

/-- No aside moves the end of the block it stands in. -/
theorem level_aside {aside : List (List Char)} (h : aside ∈ asides) (depth : Nat) :
    LevelText (aside.map (indented (depth + 1))) := by
  simp only [asides, List.map_cons, List.map_nil, List.mem_cons, List.not_mem_nil, or_false] at h
  rcases h with rfl | rfl | rfl | rfl | rfl | rfl | rfl
  · exact level_lineComment _ _
  · exact Level.line (adds_trailing depth)
  · exact level_lineComment _ _
  · exact level_member (keywordText_of_mem (by simp [texts]))
      (keywordText_of_mem (by simp [texts])) depth
  · exact level_member (keywordText_of_mem (by simp [texts]))
      (keywordText_of_mem (by simp [texts])) depth
  · have hendless : KeywordText "def twice(x) = x * 2".toList 0 0 :=
      keywordText_of_mem (by simp [texts])
    exact Level.line (hendless.adds depth)
  · exact level_blockComment _

end CodeSpan.KeywordProgram
