import CodeSpan.Proofs.BraceCount
import CodeSpan.Proofs.Nesting

/-!
# Programs of braces

A program of braces is a list of plain lines, chunks of comments and blocks, and a block holds
such a program between a line with one opening brace and a line with one closing brace. Every
block of a program is extracted from its opening line to its closing line, at any depth and
whatever stands around the program.
-/

namespace CodeSpan

/-- A line that begins no comment, with so many opening and closing braces. -/
structure BraceLine (line : List Char) (opened closed : Nat) : Prop where
  no_lineMarker : ¬ "//".toList <:+: line
  no_blockOpen : ¬ "/*".toList <:+: line
  count_open : line.count '\x7b' = opened
  count_close : line.count '\x7d' = closed

instance (line : List Char) (opened closed : Nat) : Decidable (BraceLine line opened closed) :=
  decidable_of_iff
    (¬ "//".toList <:+: line ∧ ¬ "/*".toList <:+: line ∧ line.count '\x7b' = opened ∧
      line.count '\x7d' = closed)
    ⟨fun ⟨h, h', h'', h'''⟩ => ⟨h, h', h'', h'''⟩, fun ⟨h, h', h'', h'''⟩ => ⟨h, h', h'', h'''⟩⟩

theorem BraceLine.classify_eq {line : List Char} {opened closed : Nat}
    (h : BraceLine line opened closed) :
    Dialect.brace.comments.classify .outside line = (.code line, .outside) :=
  CommentSyntax.classify_of_unmarked Dialect.brace.comments_delimited h.no_lineMarker h.no_blockOpen

theorem BraceLine.adds {line : List Char} {opened closed : Nat} (h : BraceLine line opened closed) :
    Adds Dialect.brace.comments Dialect.braceBlocks line opened closed where
  outside := by rw [h.classify_eq]
  opens_eq := by
    rw [h.classify_eq, BlockRules.opensOn, Dialect.countOpens_braceBlocks, h.count_open]
  closes_eq := by
    rw [h.classify_eq, BlockRules.closesOn, Dialect.countCloses_braceBlocks, h.count_close]

inductive BraceProgram where
  | nil
  | line (text : List Char) (plain : BraceLine text 0 0) (rest : BraceProgram)
  | comments (chunk : List (List Char))
      (chunk_comments : Dialect.brace.comments.Chunk .outside chunk) (rest : BraceProgram)
  | block (opening : List Char) (opens : BraceLine opening 1 0) (body : BraceProgram)
      (closing : List Char) (closes : BraceLine closing 0 1) (rest : BraceProgram)

namespace BraceProgram

def lines : BraceProgram → List (List Char)
  | nil => []
  | line text _ rest => text :: rest.lines
  | comments chunk _ rest => chunk ++ rest.lines
  | block opening _ body closing _ rest => opening :: (body.lines ++ closing :: rest.lines)

/-- A block of the program, at any depth, opens on its line `i` and closes on its line `j`. -/
inductive BlockAt : BraceProgram → Nat → Nat → Prop where
  | first {opening body closing rest} {opens closes} :
      BlockAt (block opening opens body closing closes rest) 0 (body.lines.length + 1)
  | inside {opening body closing rest} {opens closes} {i j : Nat} (h : BlockAt body i j) :
      BlockAt (block opening opens body closing closes rest) (i + 1) (j + 1)
  | afterBlock {opening body closing rest} {opens closes} {i j : Nat} (h : BlockAt rest i j) :
      BlockAt (block opening opens body closing closes rest) (body.lines.length + 2 + i)
        (body.lines.length + 2 + j)
  | afterLine {text rest} {plain} {i j : Nat} (h : BlockAt rest i j) :
      BlockAt (line text plain rest) (i + 1) (j + 1)
  | afterComments {chunk rest} {chunk_comments} {i j : Nat} (h : BlockAt rest i j) :
      BlockAt (comments chunk chunk_comments rest) (chunk.length + i) (chunk.length + j)

theorem level_lines (p : BraceProgram) :
    Level Dialect.brace.comments Dialect.braceBlocks p.lines := by
  induction p with
  | nil => exact Level.nil
  | line text plain rest ih => exact (Level.line plain.adds).append ih
  | comments chunk hchunk rest ih =>
      exact (Level.comments Dialect.brace.comments_delimited
        (DialectKind.distinct_comments .brace) Dialect.solid_braceBlocks hchunk).append ih
  | block opening opens body closing closes rest ihbody ihrest =>
      have hblock := (Level.block opens.adds ihbody closes.adds).append ihrest
      rwa [List.cons_append, List.append_assoc] at hblock

/-- From the opening line of a block on, a program reads as that block and some more lines. -/
theorem BlockAt.exists_drop {p : BraceProgram} {i j : Nat} (h : p.BlockAt i j) :
    ∃ (opening closing : List Char) (body : BraceProgram) (more : List (List Char)),
      BraceLine opening 1 0 ∧ BraceLine closing 0 1 ∧ j = i + (body.lines.length + 1) ∧
        p.lines.drop i = opening :: (body.lines ++ closing :: more) := by
  induction h with
  | @first opening body closing rest opens closes =>
      exact ⟨opening, closing, body, rest.lines, opens, closes, (Nat.zero_add _).symm, rfl⟩
  | @inside opening body closing rest opens closes i j h ih =>
      obtain ⟨o, c, b, more, ho, hc, rfl, hdrop⟩ := ih
      refine ⟨o, c, b, more ++ closing :: rest.lines, ho, hc, by omega, ?_⟩
      have hle : i ≤ body.lines.length := by
        have hlen := congrArg List.length hdrop
        simp only [List.length_drop, List.length_cons] at hlen
        omega
      rw [lines, List.drop_succ_cons, List.drop_append_of_le_length hle, hdrop]
      simp
  | @afterBlock opening body closing rest opens closes i j h ih =>
      obtain ⟨o, c, b, more, ho, hc, rfl, hdrop⟩ := ih
      refine ⟨o, c, b, more, ho, hc, by omega, ?_⟩
      have hsplit : lines (block opening opens body closing closes rest) =
          (opening :: (body.lines ++ [closing])) ++ rest.lines := by
        simp [lines]
      have hlen : (opening :: (body.lines ++ [closing])).length = body.lines.length + 2 := by
        simp
      rw [hsplit, ← hlen, List.drop_append, List.drop_eq_nil_of_le (Nat.le_add_right _ _),
        Nat.add_sub_cancel_left, hdrop, List.nil_append]
  | afterLine h ih =>
      obtain ⟨o, c, b, more, ho, hc, rfl, hdrop⟩ := ih
      exact ⟨o, c, b, more, ho, hc, by omega, hdrop⟩
  | @afterComments chunk rest hchunk i j h ih =>
      obtain ⟨o, c, b, more, ho, hc, rfl, hdrop⟩ := ih
      refine ⟨o, c, b, more, ho, hc, by omega, ?_⟩
      rw [lines, List.drop_append, List.drop_eq_nil_of_le (Nat.le_add_right _ _),
        Nat.add_sub_cancel_left, hdrop, List.nil_append]

end BraceProgram

theorem BraceLine.starts {line : List Char} (h : BraceLine line 1 0) {f : Fallback} {d : Dialect}
    (hd : Dialect.brace.withFallback f = .ok d) : Starts d line := by
  obtain ⟨hcomments, hblocks, hinline, himplicit⟩ := Dialect.syntax_of_withFallback hd
  have hadds := h.adds
  have hrules : ∀ first, d.selectRules first = (d.blocks, 0) := by
    intro first
    simp [Dialect.selectRules, hinline, himplicit, Dialect.brace]
  refine ⟨?_, by rw [hrules], ?_, ?_⟩
  · rw [hcomments, hadds.outside]
  · rw [hrules, hcomments, hblocks]
    exact (Nat.zero_add _).trans hadds.opens_eq
  · rw [hcomments, hblocks]
    exact hadds.closes_eq

/-- Every block of a program of braces is extracted from its opening line to its closing line,
under every fallback and between any other lines. -/
theorem extract_block_of_braces (f : Fallback) (d : Dialect)
    (hd : Dialect.brace.withFallback f = .ok d) (p : BraceProgram) (i j : Nat)
    (h : p.BlockAt i j) (before after : List (List Char)) :
    extract ⟨before ++ p.lines ++ after⟩ (before.length + i) d =
      some (.ok (.ofLines ⟨before ++ p.lines ++ after⟩ (before.length + i) (before.length + j)
        .balanced)) := by
  obtain ⟨opening, closing, body, more, hopening, hclosing, rfl, hdrop⟩ := h.exists_drop
  obtain ⟨hcomments, hblocks, -⟩ := Dialect.syntax_of_withFallback hd
  change d.blocks = Dialect.braceBlocks at hblocks
  have hlines : (before ++ p.lines ++ after).drop (before.length + i) =
      opening :: (body.lines ++ closing :: (more ++ after)) := by
    have hle : i ≤ p.lines.length := by
      have hlen := congrArg List.length hdrop
      simp only [List.length_drop, List.length_cons] at hlen
      omega
    rw [List.append_assoc, List.drop_append, List.drop_eq_nil_of_le (Nat.le_add_right _ _),
      Nat.add_sub_cancel_left, List.nil_append, List.drop_append_of_le_length hle, hdrop]
    simp
  have hbody := body.level_lines
  have hcloses := hclosing.adds
  rw [← hcomments, ← hblocks] at hbody hcloses
  rw [extract_of_closesAt (closesAt_of_level (hopening.starts hd) hlines hbody hcloses),
    Nat.add_assoc]

theorem extract_block_of_braces_window :
    ∃ d, Dialect.brace.withFallback (.window 1) = .ok d ∧
      extract ⟨["\x7b", "f() \x7b", "/* \x7d", "// \x7b", "\x7d */", "if (x) \x7b", "y(); */",
          "\x7d", "\x7d", "/*"].map String.toList⟩ 5 d =
        some (.ok ⟨5, 7, "if (x) \x7b\ny(); */\n\x7d".toList, .balanced⟩) := by
  let inner : BraceProgram := .block "if (x) \x7b".toList (by decide)
    (.line "y(); */".toList (by decide) .nil) "\x7d".toList (by decide) .nil
  let chunk : List (List Char) :=
    ([] ++ "/*".toList ++ " \x7d".toList) :: (["// \x7b".toList] ++ ["\x7d */".toList])
  have hchunk : Dialect.brace.comments.Chunk .outside chunk :=
    .block rfl (by decide) (by decide) (by decide) (by decide) (by decide)
  let p : BraceProgram := .block "f() \x7b".toList (by decide) (.comments chunk hchunk inner)
    "\x7d".toList (by decide) .nil
  have hat : p.BlockAt (chunk.length + 0 + 1) (chunk.length + 2 + 1) :=
    .inside (.afterComments .first)
  exact ⟨_, rfl, extract_block_of_braces (.window 1) _ rfl p 4 6 hat ["\x7b".toList]
    ["/*".toList]⟩

end CodeSpan
